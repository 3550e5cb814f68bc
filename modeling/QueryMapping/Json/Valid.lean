import QueryMapping.Json.Token

/-! Validity of a JSON text by a scan that builds nothing: a stack of the open containers and what
may come next. There is no limit to the nesting, and neither the size of a number nor the pairing of
surrogates is looked at. -/

namespace QueryMapping.Json

inductive Container where
  | array
  | object
deriving DecidableEq, Repr

inductive Expectation where
  | value
  /-- A value, or the end of the array just opened. -/
  | element
  /-- A key, or the end of the object just opened. -/
  | member
  | key
  | colon
  /-- A comma or the end of the innermost container, or the end of the text outside them. -/
  | separator
deriving DecidableEq, Repr

structure Scan where
  containers : List Container
  next : Expectation
deriving DecidableEq, Repr

namespace Scan

def start : Scan := ⟨[], .value⟩

/-- Only outside all containers, after a value, may the text end. -/
def isDone (s : Scan) : Bool := s == ⟨[], .separator⟩

def value? (s : Scan) : Token → Option Scan
  | .openArray => some ⟨.array :: s.containers, .element⟩
  | .openObject => some ⟨.object :: s.containers, .member⟩
  | .null | .bool _ | .number _ | .string _ => some ⟨s.containers, .separator⟩
  | _ => none

def close? (s : Scan) : Option Scan :=
  match s.containers with
  | [] => none
  | _ :: outer => some ⟨outer, .separator⟩

def step? (s : Scan) (t : Token) : Option Scan :=
  match s.next with
  | .value => s.value? t
  | .element => if t = .closeArray then s.close? else s.value? t
  | .member =>
    match t with
    | .closeObject => s.close?
    | .string _ => some { s with next := .colon }
    | _ => none
  | .key =>
    match t with
    | .string _ => some { s with next := .colon }
    | _ => none
  | .colon => if t = .colon then some { s with next := .value } else none
  | .separator =>
    match s.containers, t with
    | .array :: _, .comma => some { s with next := .value }
    | .array :: _, .closeArray => s.close?
    | .object :: _, .comma => some { s with next := .key }
    | .object :: _, .closeObject => s.close?
    | _, _ => none

end Scan

def isValid (text : String) : Bool :=
  match tokens? text.toList with
  | none => false
  | some ts => (ts.foldlM Scan.step? Scan.start).any Scan.isDone

def stripped (text : String) : String :=
  String.ofList ((text.toList.dropWhile isSpace).reverse.dropWhile isSpace).reverse

end QueryMapping.Json
