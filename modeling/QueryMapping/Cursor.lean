import QueryMapping.Value.Scalar

/-! A forward-only cursor over a query result. `Cursor.next` consumes one row at a time; a row that
cannot be delivered is consumed too, but does not count in the position. -/

namespace QueryMapping

structure Column where
  name : String
  typeName : String
deriving DecidableEq, Repr

inductive CursorError where
  | indexOutOfRange (index len : Nat)
  | unknownColumn (name : String)
  | decode (mismatch : Mismatch)
  | unsupportedType (column typeName : String)
  | driver (reason : String)
deriving DecidableEq, Repr

namespace CursorError

def message : CursorError → String
  | .indexOutOfRange index len =>
    "column index " ++ toString index ++ " out of range (row has " ++ toString len ++ " columns)"
  | .unknownColumn name => "unknown column '" ++ name ++ "'"
  | .decode mismatch => mismatch.message
  | .unsupportedType column typeName =>
    "unsupported column type '" ++ typeName ++ "' for column '" ++ column ++ "'"
  | .driver reason => reason

end CursorError

structure Row where
  columns : List Column
  values : List Value
  sized : values.length = columns.length

namespace Row

def length (row : Row) : Nat := row.values.length

def valueAt (row : Row) (index : Nat) : Except CursorError Value :=
  match row.values[index]? with
  | some v => .ok v
  | none => .error (.indexOutOfRange index row.length)

/-- The first column of that name, which is compared without regard to ASCII case. -/
def find? (row : Row) (name : String) : Option Nat :=
  row.columns.findIdx? fun column => Text.sameFolded column.name.toList name.toList

def get (row : Row) (s : Scalar) (index : Nat) : Except CursorError s.Carrier := do
  let v ← row.valueAt index
  (s.read v).mapError .decode

def getByName (row : Row) (s : Scalar) (name : String) : Except CursorError s.Carrier :=
  match row.find? name with
  | some index => row.get s index
  | none => .error (.unknownColumn name)

end Row

/-- What is left of a query result: each row yet to be read is its values, or the failure that
reading it ends in. -/
structure Cursor where
  columns : List Column
  unread : List (Except CursorError (List Value))
  position : Nat

namespace Cursor

def ofRows (columns : List Column) (rows : List (List Value)) : Cursor :=
  ⟨columns, rows.map .ok, 0⟩

/-- Columns known by name alone have the type `TEXT`. -/
def ofNames (names : List String) (rows : List (List Value)) : Cursor :=
  ofRows (names.map fun name => ⟨name, "TEXT"⟩) rows

def empty : Cursor := ofRows [] []

def rowOf (columns : List Column) (values : List Value) : Except CursorError Row :=
  if sized : values.length = columns.length then .ok ⟨columns, values, sized⟩
  else .error (.indexOutOfRange values.length columns.length)

def next (c : Cursor) : Except CursorError (Option Row) × Cursor :=
  match c.unread with
  | [] => (.ok none, c)
  | fetched :: rest =>
    match fetched.bind (rowOf c.columns) with
    | .ok row => (.ok (some row), { c with unread := rest, position := c.position + 1 })
    | .error e => (.error e, { c with unread := rest })

theorem next_unread (c : Cursor) : c.next.2.unread = c.unread.tail := by
  unfold next
  split
  · simp_all
  · split <;> simp_all

theorem unread_lt_of_next {c c' : Cursor} {row : Row} (h : c.next = (.ok (some row), c')) :
    c'.unread.length < c.unread.length := by
  have h' := next_unread c
  unfold next at h
  split at h
  · simp at h
  · next heq =>
    rw [show c.next.2 = c' from ?_] at h'
    · simp [h', heq]
    · unfold next
      rw [heq]
      exact congrArg Prod.snd h

end Cursor

end QueryMapping
