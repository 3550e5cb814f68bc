/-! Families of types. A family has a code for each of its types, the type of the values that a code
stands for, and the name by which messages call it; keeping codes as data lets a table hold
strategies and components of many types and still give each back at its own. -/

namespace QueryMapping

class TypeFamily (τ : Type) where
  Carrier : τ → Type
  name : τ → String

inductive OutputType (τ : Type) where
  | base (t : τ)
  | list (t : OutputType τ)
deriving DecidableEq, Repr

namespace OutputType

variable {τ : Type} [TypeFamily τ]

@[reducible] def Carrier : OutputType τ → Type
  | .base t => TypeFamily.Carrier t
  | .list t => List t.Carrier

def name : OutputType τ → String
  | .base t => TypeFamily.name t
  | .list t => "Vec<" ++ t.name ++ ">"

end OutputType

end QueryMapping
