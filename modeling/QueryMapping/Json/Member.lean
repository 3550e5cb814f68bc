import QueryMapping.Json.Tree

/-! Reading the parts of a document. A member that is not there reads as null, and a part of another
kind than the one asked for as an empty one. -/

namespace QueryMapping.Json.Tree

def get (t : Tree) (key : String) : Tree :=
  match t with
  | .object members => ((members.find? (·.1 == key)).map Prod.snd).getD .null
  | _ => .null

def isNull : Tree → Bool
  | .null => true
  | _ => false

def has (t : Tree) (key : String) : Bool := !(t.get key).isNull

def str? : Tree → Option String
  | .string s => some s
  | _ => none

def str (t : Tree) : String := t.str?.getD ""

def items : Tree → List Tree
  | .array ts => ts
  | _ => []

def members : Tree → List (String × Tree)
  | .object ms => ms
  | _ => []

def int : Tree → Int
  | .number (.int n) => n
  | _ => 0

def nat (t : Tree) : Nat := t.int.toNat

def bool? : Tree → Option Bool
  | .bool b => some b
  | _ => none

def flag (t : Tree) : Bool := t.bool?.getD false

def strs (t : Tree) : List String := t.items.map str

def opt {α : Type} (f : Tree → α) (t : Tree) : Option α := if t.isNull then none else some (f t)

end QueryMapping.Json.Tree
