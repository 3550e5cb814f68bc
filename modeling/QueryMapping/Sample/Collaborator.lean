import QueryMapping.Hub

/-! A sample family of collaborators, with the text that each shows. -/

namespace QueryMapping.Sample

structure Greeter where
  name : String
deriving DecidableEq, Repr

def Greeter.greet (g : Greeter) : String := "hello " ++ g.name

structure Suffix where
  text : String
deriving DecidableEq, Repr

inductive Interface where
  | greeter
  | suffix
  | text
deriving DecidableEq, Repr

@[reducible] def Interface.Carrier : Interface → Type
  | .greeter => Greeter
  | .suffix => Suffix
  | .text => String

instance : TypeFamily Interface where
  Carrier := Interface.Carrier
  name
    | .greeter => "dyn Greeter"
    | .suffix => "dyn Suffix"
    | .text => "String"

theorem Interface.name_injective : Function.Injective (TypeFamily.name : Interface → String) := by
  intro i j
  cases i <;> cases j <;> decide

def Interface.component (i : Interface) (value : String) : Component Interface :=
  match i with
  | .greeter => ⟨.greeter, (⟨value⟩ : Greeter)⟩
  | .suffix => ⟨.suffix, (⟨value⟩ : Suffix)⟩
  | .text => ⟨.text, value⟩

def Interface.shown : (i : Interface) → i.Carrier → String
  | .greeter, g => g.greet
  | .suffix, s => s.text
  | .text, s => s

end QueryMapping.Sample
