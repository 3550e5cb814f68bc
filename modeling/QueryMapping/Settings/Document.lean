import QueryMapping.Json.Tree
import QueryMapping.Settings.Node
import QueryMapping.Settings.Quoted

/-! Settings given as JSON documents. A file of settings is YAML, and a JSON document in it is YAML
on one line whose texts are read as YAML reads quoted ones. A document that cannot be read so, or
that is not a record, is refused as a whole. -/

namespace QueryMapping.Node

mutual

def ofTree : Json.Tree → Node
  | .null => .null
  | .bool b => .bool b
  | .number (.int n) => .int n
  | .number (.float _) => .float
  | .string s => .text s
  | .array ts => .list (ofTrees ts)
  | .object ms => .record (ofMembers ms)

def ofTrees : List Json.Tree → List Node
  | [] => []
  | t :: ts => ofTree t :: ofTrees ts

def ofMembers : List (String × Json.Tree) → List (String × Node)
  | [] => []
  | (key, t) :: ms => (key, ofTree t) :: ofMembers ms

end

mutual

def inFile? : Node → Option Node
  | .text s => (Settings.ofQuoted? s).map .text
  | .list items => (itemsInFile? items).map .list
  | .record members => (membersInFile? members).map .record
  | node => some node

def itemsInFile? : List Node → Option (List Node)
  | [] => some []
  | node :: rest => do return (← inFile? node) :: (← itemsInFile? rest)

def membersInFile? : List (String × Node) → Option (List (String × Node))
  | [] => some []
  | (key, node) :: rest => do
    if !Settings.isKey key then none
    let read ← inFile? node
    return (key, read) :: (← membersInFile? rest)

end

def ofDocument (t : Json.Tree) : Except SettingsError Node :=
  match inFile? (ofTree t) with
  | some (.record members) => .ok (.record members)
  | _ => .error (.refused [])

end QueryMapping.Node
