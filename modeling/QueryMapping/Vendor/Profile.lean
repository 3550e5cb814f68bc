import QueryMapping.Settings.Document
import QueryMapping.Settings.Text
import QueryMapping.Vendor.Error

/-! The profile of a test run: the vendor it runs against and where its scripts are. Both come from
a file of settings, and environment variables take the place of what the file says. -/

namespace QueryMapping

structure TestSettings where
  active : Option Vendor
  scriptDir : Option String
deriving DecidableEq, Repr

namespace TestSettings

def variableStart : String := "ROWKIT_"

def variablePaths : List (String × String × String) :=
  [("profiles_active", "profiles", "active"), ("scripts_dir", "scripts", "dir")]

/-- The section and the key that a variable gives; names are read without regard to case and to
blanks around them. -/
def pathOfVariable? (name : String) : Option (String × String) :=
  let chars := Text.trim name.toList
  let start := variableStart.toList
  if Text.sameFolded (chars.take start.length) start then
    (variablePaths.find? fun path =>
      Text.sameFolded path.1.toList (chars.drop start.length)).map Prod.snd
  else none

def membersOf : Node → List (String × Node)
  | .record members => members
  | _ => []

/-- Sets a member, keeping the keys in ascending order. -/
def setMember (key : String) (node : Node) : List (String × Node) → List (String × Node)
  | [] => [(key, node)]
  | (k, n) :: rest =>
    if key = k then (key, node) :: rest
    else if key < k then (key, node) :: (k, n) :: rest
    else (k, n) :: setMember key node rest

/-- Sets one key of one section; what is no record gives way to one. -/
def overlay (root : Node) (path : String × String) (node : Node) : Node :=
  let members := membersOf root
  let keys := membersOf (((members.find? (·.1 = path.1)).map Prod.snd).getD .null)
  .record (setMember path.1 (.record (setMember path.2 node keys)) members)

def layered (file : Node) (vars : List (String × String)) : Node :=
  vars.foldl (fun root setting =>
    match pathOfVariable? setting.1 with
    | some path => overlay root path (Settings.ofText setting.2)
    | none => root) file

def vendor? : Node.Reader Vendor
  | .text text =>
    match Vendor.parse? text with
    | some v => .ok v
    | none => .error (.refused [])
  | _ => .error (.invalidType [])

def readProfiles (s : TestSettings) (name : String) : Node.Reader TestSettings := fun node =>
  match name with
  | "active" => do return { s with active := ← Node.optional? vendor? node }
  | name => .error (.unknownField name)

def readScripts (s : TestSettings) (name : String) : Node.Reader TestSettings := fun node =>
  match name with
  | "dir" => do return { s with scriptDir := ← Node.optional? Node.text? node }
  | name => .error (.unknownField name)

def readSection (s : TestSettings) (name : String) : Node.Reader TestSettings :=
  match name with
  | "profiles" => Node.allFields? ["active"] readProfiles s
  | "scripts" => Node.allFields? ["dir"] readScripts s
  | name => fun _ => .error (.unknownField name)

def ofNode : Node.Reader TestSettings :=
  Node.fields? ["profiles", "scripts"] readSection ⟨none, none⟩

/-- The settings of a file that has been read and of the variables that are set. A file that is not
there is a record without members. -/
def extract (file : Node) (vars : List (String × String)) : Except SettingsError TestSettings :=
  ofNode (layered file vars)

def load (document : Option Json.Tree) (vars : List (String × String)) :
    Except SettingsError TestSettings := do
  let file ← (document.map Node.ofDocument).getD (.ok (.record []))
  extract file vars

def profile (s : TestSettings) : Vendor := s.active.getD .sqlite

end TestSettings

end QueryMapping
