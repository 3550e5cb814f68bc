import QueryMapping.Relational.Error
import QueryMapping.Relational.Token

/-! The parameters of a statement. Each has a number, and equal names are one parameter. Values are
given in order to those without a name, and by number to those whose name is one. -/

namespace QueryMapping.Relational

abbrev Parameters := Array (Option String)

namespace Parameters

def largest : Nat := 32766

def named (ps : Parameters) (index : Nat) (name : String) : Parameters :=
  let ps := ps ++ Array.replicate (index + 1 - ps.size) none
  ps.modify index fun name? => name?.orElse fun _ => some name

def added? (ps : Parameters) (name? : Option String) : Option (Nat × Parameters) :=
  if ps.size < largest then some (ps.size, ps.push name?) else none

def placeOfName? (ps : Parameters) (name : String) : Option (Nat × Parameters) :=
  match ps.findIdx? (· == some name) with
  | some index => some (index, ps)
  | none => ps.added? (some name)

def place? (ps : Parameters) (written : String) : Option (Nat × Parameters) :=
  match written.toList with
  | ['?'] => ps.added? none
  | '?' :: digits =>
    let n := Numeral.digitsValue digits
    if 0 < n && n ≤ largest then some (n - 1, ps.named (n - 1) written) else none
  | '#' :: c :: _ => if c.isDigit then none else ps.placeOfName? written
  | _ => ps.placeOfName? written

def ofTokens (ps : Parameters) : List Token → List Token × Parameters
  | [] => ([], ps)
  | t :: ts =>
    match t.kind with
    | .parameter written _ =>
      let (kind, ps) :=
        match ps.place? written with
        | some (index, ps) => (.parameter written index, ps)
        | none => (.unknown, ps)
      let (ts, ps) := ofTokens ps ts
      ({ t with kind } :: ts, ps)
    | _ =>
      let (ts, ps) := ofTokens ps ts
      (t :: ts, ps)

def number? (name : String) : Option Nat :=
  match name.toList with
  | '?' :: cs | '$' :: cs =>
    let n := Numeral.digitsValue (cs.takeWhile Char.isDigit)
    if n = 0 then none else some n
  | _ => none

/-- The values of parameters by their names, of which those without one take the next value each.
The first parameter without a value ends the giving: it and all after it are null. -/
def valuesOf (args : Array Datum) (next : Nat) :
    List (Option String) → Except SqlError (List Datum × Nat)
  | [] => .ok ([], next)
  | name? :: ps => do
    let (n, next) ←
      match name? with
      | none => pure (next + 1, next + 1)
      | some name => (number? name).elim (.error (.parameterName name)) fun n => pure (n, next)
    match args[n - 1]? with
    | none => return ([], next)
    | some d =>
      let (ds, next) ← valuesOf args next ps
      return (d :: ds, next)

def values (ps : Parameters) (args : Array Datum) (next : Nat) :
    Except SqlError (Array Datum × Nat) := do
  let (ds, next) ← valuesOf args next ps.toList
  return (ds.toArray, next)

end Parameters

end QueryMapping.Relational
