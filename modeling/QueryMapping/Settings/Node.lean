/-! Trees of settings, and typed reading of them. Nothing is coerced: a text is no number and a
number no text. A failure says where in the tree it arose. -/

namespace QueryMapping

inductive Node where
  | null
  | bool (b : Bool)
  | int (n : Int)
  | float
  | text (s : String)
  | list (items : List Node)
  /-- A record's members, in ascending order of their keys. -/
  | record (members : List (String × Node))
deriving Repr

inductive SettingsError where
  | unknownField (name : String)
  | missingField (name : String)
  | invalidType (path : List String)
  | invalidValue (path : List String)
  | unknownVariant (path : List String)
  /-- A list that ends before a field that has to be given. -/
  | tooShort (path : List String)
  | refused (path : List String)
deriving DecidableEq, Repr

namespace SettingsError

def mapPath (f : List String → List String) : SettingsError → SettingsError
  | .unknownField name => .unknownField name
  | .missingField name => .missingField name
  | .invalidType path => .invalidType (f path)
  | .invalidValue path => .invalidValue (f path)
  | .unknownVariant path => .unknownVariant (f path)
  | .tooShort path => .tooShort (f path)
  | .refused path => .refused (f path)

def message : SettingsError → String
  | .unknownField name | .missingField name => name
  | .invalidType path | .invalidValue path | .unknownVariant path | .tooShort path
  | .refused path => ".".intercalate path

end SettingsError

namespace Node

abbrev Reader (α : Type) := Node → Except SettingsError α

def text? : Reader String
  | .text s => .ok s
  | _ => .error (.invalidType [])

def bool? : Reader Bool
  | .bool b => .ok b
  | _ => .error (.invalidType [])

def below? (bound : Nat) : Reader Nat
  | .int n => if 0 ≤ n && n < bound then .ok n.toNat else .error (.invalidValue [])
  | _ => .error (.invalidType [])

/-- Null is absent. -/
def optional? {α : Type} (read : Reader α) : Reader (Option α)
  | .null => .ok none
  | node => (read node).map some

/-- Reads a member, so that a failure's path begins with its key. -/
def at? {α : Type} (key : String) (read : Reader α) : Reader α := fun node =>
  (read node).mapError (·.mapPath (key :: ·))

/-- Reads a record member by member, in the order of the keys. A list gives the fields' values in
their own order; fields that it does not reach are left as they were. -/
def fields? {α : Type} (names : List String) (step : α → String → Reader α) (start : α) :
    Reader α
  | .record members =>
    members.foldlM (fun a member => at? member.1 (step a member.1) member.2) start
  | .list items =>
    ((names.zip items).zipIdx).foldlM
      (fun a entry => at? (toString entry.2) (step a entry.1.1) entry.1.2) start
  | _ => .error (.invalidType [])

def allFields? {α : Type} (names : List String) (step : α → String → Reader α) (start : α) :
    Reader α := fun node => do
  let a ← fields? names step start node
  match node with
  | .list items => if items.length < names.length then throw (.tooShort []) else return a
  | _ => return a

/-- The node at the end of a path. An empty component ends the path early. -/
def find? : List String → Node → Option Node
  | [], node => some node
  | key :: rest, node =>
    if key.isEmpty then some node
    else
      match node with
      | .record members => (members.find? (·.1 = key)).bind fun member => find? rest member.2
      | _ => none

/-- Reads the section that a dotted path names. The section's own path comes last in a failure's. -/
def section? {α : Type} (path : String) (read : Reader α) : Reader α := fun node =>
  let keys := path.splitOn "."
  match find? keys node with
  | none => .error (.missingField path)
  | some found => (read found).mapError (·.mapPath (· ++ keys.filter (!·.isEmpty)))

end Node

end QueryMapping
