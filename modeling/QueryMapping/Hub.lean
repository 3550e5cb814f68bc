import QueryMapping.Table
import QueryMapping.TypeFamily

/-! The component hub. A collaborator is registered under its interface type and a scope, or under a
stable name, and is looked up by the same key at the interface asked for. -/

namespace QueryMapping

structure Component (ι : Type) [TypeFamily ι] where
  interface : ι
  value : TypeFamily.Carrier interface

inductive ComponentKey where
  | interface (typeName : String)
  | named (name : String)
deriving DecidableEq, Repr

namespace ComponentKey

def display : ComponentKey → String
  | .interface typeName => "type=" ++ typeName
  | .named name => "name=" ++ name

end ComponentKey

inductive HubError where
  | notFound (key : ComponentKey) (scope : String)
  | typeMismatch (key : ComponentKey) (scope expected : String)
deriving DecidableEq, Repr

namespace HubError

def message : HubError → String
  | .notFound key scope => "component not found: " ++ key.display ++ ", scope=" ++ scope
  | .typeMismatch key scope expected =>
    "type mismatch in hub for " ++ key.display ++ ", scope=" ++ scope ++ ": expected " ++ expected

end HubError

structure Hub (ι : Type) [TypeFamily ι] where
  entries : Table (ComponentKey × String) (Component ι)

namespace Hub

variable {ι : Type} [TypeFamily ι]

/-- The scope of components that are registered without one, and of all named components. -/
def globalScope : String := "global"

def empty : Hub ι := ⟨[]⟩

def insert (hub : Hub ι) (key : ComponentKey) (scope : String) (c : Component ι) : Hub ι :=
  ⟨hub.entries.set (key, scope) c⟩

def registerScoped (hub : Hub ι) (scope : String) (c : Component ι) : Hub ι :=
  hub.insert (.interface (TypeFamily.name c.interface)) scope c

def register (hub : Hub ι) (c : Component ι) : Hub ι := hub.registerScoped globalScope c

def registerNamed (hub : Hub ι) (name : String) (c : Component ι) : Hub ι :=
  hub.insert (.named name) globalScope c

def clear (_ : Hub ι) : Hub ι := empty

def length (hub : Hub ι) : Nat := hub.entries.length

def contains (hub : Hub ι) (i : ι) : Bool :=
  hub.entries.contains (.interface (TypeFamily.name i), globalScope)

variable [DecidableEq ι]

def lookup (hub : Hub ι) (key : ComponentKey) (scope : String) (i : ι) :
    Except HubError (TypeFamily.Carrier i) :=
  match hub.entries.get? (key, scope) with
  | none => .error (.notFound key scope)
  | some c =>
    if h : c.interface = i then .ok (h ▸ c.value)
    else .error (.typeMismatch key scope (TypeFamily.name i))

def getScoped (hub : Hub ι) (scope : String) (i : ι) : Except HubError (TypeFamily.Carrier i) :=
  hub.lookup (.interface (TypeFamily.name i)) scope i

def get (hub : Hub ι) (i : ι) : Except HubError (TypeFamily.Carrier i) :=
  hub.getScoped globalScope i

def getNamed (hub : Hub ι) (name : String) (i : ι) : Except HubError (TypeFamily.Carrier i) :=
  hub.lookup (.named name) globalScope i

def display (hub : Hub ι) : String :=
  let shown := hub.entries.keys.map fun key => "(" ++ key.1.display ++ ", " ++ key.2 ++ ")"
  "ComponentHub \x7b keys: [" ++ ", ".intercalate shown ++ "] \x7d"

end Hub

end QueryMapping
