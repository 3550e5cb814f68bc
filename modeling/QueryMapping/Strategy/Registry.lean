import QueryMapping.Strategy.Basic

/-! The registry of strategies. A key is taken by its first registration and never changes its
strategy; a strategy that is built from collaborators is built when it is registered. -/

namespace QueryMapping

structure Strategy (τ : Type) [TypeFamily τ] where
  output : OutputType τ
  materializer : Materializer output.Carrier

structure Blueprint (ι τ : Type) [TypeFamily ι] [TypeFamily τ] where
  typeName : String
  build : Hub ι → Except HubError (Strategy τ)

structure Registration where
  key : StrategyKey
  shape : Shape
  output : String
deriving DecidableEq, Repr

structure Registry (τ : Type) [TypeFamily τ] where
  entries : Table StrategyKey (Strategy τ)

namespace Registry

variable {τ : Type} [TypeFamily τ]

def empty : Registry τ := ⟨[]⟩

def register (r : Registry τ) (key : StrategyKey) (s : Strategy τ) :
    Except MaterializeError (Registry τ) :=
  if r.entries.contains key then .error (.duplicateKey key) else .ok ⟨r.entries.set key s⟩

/-- Builds the strategy first, so a missing collaborator is reported even if the key is taken. -/
def registerBuilt {ι : Type} [TypeFamily ι] (r : Registry τ) (hub : Hub ι) (key : StrategyKey)
    (b : Blueprint ι τ) : Except MaterializeError (Registry τ) :=
  match b.build hub with
  | .error e => .error (.component e)
  | .ok s => r.register key s

def registerType {ι : Type} [TypeFamily ι] (r : Registry τ) (hub : Hub ι) (b : Blueprint ι τ) :
    Except MaterializeError (Registry τ) :=
  r.registerBuilt hub (.ofType b.typeName) b

def contains (r : Registry τ) (key : StrategyKey) : Bool := r.entries.contains key

def length (r : Registry τ) : Nat := r.entries.length

def registrations (r : Registry τ) : List Registration :=
  r.entries.map fun entry => ⟨entry.1, entry.2.materializer.shape, entry.2.output.name⟩

def display (r : Registry τ) : String :=
  "MaterializerRegistry \x7b keys: [" ++ ", ".intercalate (r.entries.keys.map (·.display)) ++
    "] \x7d"

def resolve [DecidableEq τ] (r : Registry τ) (key : StrategyKey) (t : OutputType τ) :
    Except MaterializeError (Materializer t.Carrier) :=
  match r.entries.get? key with
  | none => .error (.notFound key)
  | some s =>
    if h : s.output = t then .ok (h ▸ s.materializer)
    else .error (.typeMismatch key s.output.name t.name)

end Registry

end QueryMapping
