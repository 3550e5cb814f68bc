import QueryMapping.Cursor

/-! Rows as a driver fetches them. Each is read when a cursor gets to it, and reading it changes
nothing, so that a cursor can hold in its place what reading it ends in. -/

namespace QueryMapping

/-- How the rows of a driver are read: the columns that a row says it has, and the value at a place
of it, read as one of a column. -/
structure RowReader (ρ : Type) where
  columns : ρ → List Column
  valueAt : ρ → Nat → Column → Except CursorError Value

namespace RowReader

variable {ρ : Type}

def values (r : RowReader ρ) (columns : List Column) (row : ρ) : Except CursorError (List Value) :=
  columns.zipIdx.mapM fun (column, index) => r.valueAt row index column

/-- The columns are known only from the first row, so a result without rows has none. -/
def cursor (r : RowReader ρ) (rows : List ρ) : Cursor :=
  let columns := rows.head?.elim [] r.columns
  ⟨columns, rows.map (r.values columns), 0⟩

end RowReader

end QueryMapping
