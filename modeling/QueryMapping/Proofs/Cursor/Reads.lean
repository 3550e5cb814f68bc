import Mathlib.Data.List.Basic
import QueryMapping.Database.Fetched
import QueryMapping.Proofs.Failure

/-! Reading a cursor to its end and past it. Each read consumes one row, also if the row cannot be
delivered, and only delivered rows count in the position. A delivered row has a value for every
column, so that looking one up by name fails for want of the column, or because of the value, but
never of its place. -/

namespace QueryMapping

variable {ρ : Type}

namespace Cursor

def delivered (columns : List Column) (fetched : Except CursorError (List Value)) :
    Except CursorError Row := fetched.bind (rowOf columns)

variable {c c' : Cursor} {fetched : Except CursorError (List Value)}
  {rest : List (Except CursorError (List Value))} {row : Row} {e : CursorError}
  {columns : List Column}

theorem rowOf_eq_error_iff {columns : List Column} {values : List Value} :
    rowOf columns values = .error e ↔
      values.length ≠ columns.length ∧ e = .indexOutOfRange values.length columns.length := by
  unfold rowOf
  split
  · next h => simp [h]
  · next h => simp [h, eq_comm]

theorem rowOf_eq_ok_iff {values : List Value} :
    rowOf columns values = .ok row ↔ row.columns = columns ∧ row.values = values := by
  unfold rowOf
  split
  · next h =>
    obtain ⟨columns', values', sized⟩ := row
    simp [eq_comm]
  · next h =>
    refine iff_of_false (fun heq => by cases heq) ?_
    rintro ⟨rfl, rfl⟩
    exact h row.sized

theorem next_of_nil (h : c.unread = []) : c.next = (.ok none, c) := by
  rw [next, h]

theorem next_of_delivered (h : c.unread = fetched :: rest)
    (hrow : delivered c.columns fetched = .ok row) :
    c.next = (.ok (some row), { c with unread := rest, position := c.position + 1 }) := by
  rw [delivered] at hrow
  simp only [next, h, hrow]

theorem next_of_undelivered (h : c.unread = fetched :: rest)
    (hrow : delivered c.columns fetched = .error e) :
    c.next = (.error e, { c with unread := rest }) := by
  rw [delivered] at hrow
  simp only [next, h, hrow]

/-! ### One read -/

def isRow : Except CursorError (Option Row) → Bool
  | .ok (some _) => true
  | _ => false

theorem next_eq (c : Cursor) :
    c.next = (c.unread.head?.elim (.ok none) fun fetched => (delivered c.columns fetched).map some,
      ⟨c.columns, c.unread.tail, c.position + if isRow c.next.1 then 1 else 0⟩) := by
  cases h : c.unread with
  | nil =>
    obtain ⟨columns, unread, position⟩ := c
    obtain rfl : unread = [] := h
    rfl
  | cons fetched rest =>
    cases hrow : delivered c.columns fetched with
    | ok row =>
      rw [next_of_delivered h hrow]
      simp [hrow, isRow, Except.map]
    | error e =>
      rw [next_of_undelivered h hrow]
      simp [hrow, isRow, Except.map]

/-! ### Any number of reads -/

def after (c : Cursor) : Nat → Cursor
  | 0 => c
  | n + 1 => (c.after n).next.2

def answer (c : Cursor) (k : Nat) : Except CursorError (Option Row) := (c.after k).next.1

theorem columns_after (c : Cursor) (n : Nat) : (c.after n).columns = c.columns := by
  induction n with
  | zero => rfl
  | succ n ih => rw [after, next_eq, ih]

theorem unread_after (c : Cursor) (n : Nat) : (c.after n).unread = c.unread.drop n := by
  induction n with
  | zero => rfl
  | succ n ih => rw [after, next_unread, ih, List.tail_drop]

theorem position_after (c : Cursor) (n : Nat) :
    (c.after n).position = c.position + (List.range n).countP fun k => isRow (c.answer k) := by
  induction n with
  | zero => rfl
  | succ n ih =>
    have hlast :
        [n].countP (fun k => isRow (c.answer k)) = if isRow (c.answer n) then 1 else 0 := by
      simp [List.countP_cons]
    rw [List.range_succ, List.countP_append, hlast, ← Nat.add_assoc, ← ih, after, next_eq]
    rfl

theorem answer_eq (c : Cursor) (k : Nat) :
    c.answer k = c.unread[k]?.elim (.ok none) fun fetched =>
      (delivered c.columns fetched).map some := by
  rw [answer, next_eq, unread_after, columns_after, List.head?_drop]

theorem answer_eq_row_iff {k : Nat} :
    c.answer k = .ok (some row) ↔
      ∃ fetched, c.unread[k]? = some fetched ∧ delivered c.columns fetched = .ok row := by
  rw [answer_eq]
  cases c.unread[k]? with
  | none => simp
  | some fetched => cases h : delivered c.columns fetched <;> simp [Except.map, h]

theorem columns_of_answer {k : Nat} (h : c.answer k = .ok (some row)) :
    row.columns = c.columns := by
  obtain ⟨fetched, -, hrow⟩ := answer_eq_row_iff.1 h
  cases fetched with
  | error e => cases hrow
  | ok values => exact (rowOf_eq_ok_iff.1 hrow).1

/-! ### Cursors over rows -/

/-- How every number of reads goes over rows that are read as `read` says: each consumes the row
whose turn it is, of which `ends` says how the read ends. Past the last row there is none to
read. -/
structure Serves (c : Cursor) (rows : List ρ) (read : ρ → Except CursorError (List Value))
    (ends : Option ρ → Except CursorError (Option Row) → Prop) : Prop where
  answers : ∀ k, ends rows[k]? (c.answer k)
  unread : ∀ n, (c.after n).unread = (rows.drop n).map read
  position : ∀ n, (c.after n).position = (List.range n).countP fun k => isRow (c.answer k)
  columns : ∀ n, (c.after n).columns = c.columns

theorem serves_of_unread {rows : List ρ} {read : ρ → Except CursorError (List Value)}
    {ends : Option ρ → Except CursorError (Option Row) → Prop} (hnone : ends none (.ok none))
    (hsome : ∀ raw, ends (some raw) ((delivered c.columns (read raw)).map some))
    (hunread : c.unread = rows.map read) (hposition : c.position = 0) :
    c.Serves rows read ends where
  answers k := by
    rw [answer_eq, hunread, List.getElem?_map]
    cases rows[k]? with
    | none => exact hnone
    | some raw => exact hsome raw
  unread n := by rw [unread_after, hunread, List.map_drop]
  position n := by rw [position_after, hposition, Nat.zero_add]
  columns := columns_after c

inductive Yields (columns : List Column) :
    Option (List Value) → Except CursorError (Option Row) → Prop
  | exhausted : Yields columns none (.ok none)
  | returned {row : Row} (hcolumns : row.columns = columns) :
    Yields columns (some row.values) (.ok (some row))
  | refused {values : List Value} (h : values.length ≠ columns.length) :
    Yields columns (some values) (.error (.indexOutOfRange values.length columns.length))

theorem yields_delivered (columns : List Column) (values : List Value) :
    Yields columns (some values) ((delivered columns (.ok values)).map some) := by
  change Yields columns (some values) ((rowOf columns values).map some)
  cases h : rowOf columns values with
  | ok row =>
    obtain ⟨hcolumns, rfl⟩ := rowOf_eq_ok_iff.1 h
    exact .returned hcolumns
  | error e =>
    obtain ⟨hne, rfl⟩ := rowOf_eq_error_iff.1 h
    exact .refused hne

theorem serves_ofRows (columns : List Column) (rows : List (List Value)) :
    (ofRows columns rows).Serves rows .ok (Yields columns) :=
  serves_of_unread .exhausted (yields_delivered columns) rfl rfl

end Cursor

namespace RowReader

variable {r : RowReader ρ} {columns : List Column} {raw : ρ} {values : List Value} {e : CursorError}

/-- How a read of a driver's rows ends: with a value for each column, or with the failure of the
first that cannot be read. -/
inductive Yields (r : RowReader ρ) (columns : List Column) :
    Option ρ → Except CursorError (Option Row) → Prop
  | exhausted : Yields r columns none (.ok none)
  | returned {raw : ρ} {row : Row} (hcolumns : row.columns = columns)
    (hvalues : ∀ i column, columns[i]? = some column →
      ∃ v, row.values[i]? = some v ∧ r.valueAt raw i column = .ok v) :
    Yields r columns (some raw) (.ok (some row))
  | failed {raw : ρ} {i : Nat} {column : Column} {e : CursorError}
    (hcolumn : columns[i]? = some column) (hfails : r.valueAt raw i column = .error e)
    (hbefore : ∀ j < i, ∀ column', columns[j]? = some column' →
      ∃ v, r.valueAt raw j column' = .ok v) :
    Yields r columns (some raw) (.error e)

theorem values_eq_ok (h : r.values columns raw = .ok values) :
    values.length = columns.length ∧ ∀ i column, columns[i]? = some column →
      ∃ v, values[i]? = some v ∧ r.valueAt raw i column = .ok v := by
  have hall := mapM_eq_ok_iff.1 h
  have hlength : values.length = columns.length := by rw [← hall.length_eq, List.length_zipIdx]
  refine ⟨hlength, fun i column hcolumn => ?_⟩
  obtain ⟨hi, rfl⟩ := List.getElem?_eq_some_iff.1 hcolumn
  have hat := (List.forall₂_iff_get.1 hall).2 i (by simpa using hi) (hlength ▸ hi)
  refine ⟨values[i], List.getElem?_eq_getElem _, ?_⟩
  simpa using hat

theorem values_eq_error (h : r.values columns raw = .error e) :
    ∃ i column, columns[i]? = some column ∧ r.valueAt raw i column = .error e ∧
      ∀ j < i, ∀ column', columns[j]? = some column' → ∃ v, r.valueAt raw j column' = .ok v := by
  obtain ⟨before, ⟨column, i⟩, after, hsplit, hbefore, hfails⟩ := mapM_eq_error_iff.1 h
  obtain ⟨front, rest, rfl, rfl, hrest⟩ := List.zipIdx_eq_append_iff.1 hsplit
  obtain ⟨column', back, rfl, hpair, -⟩ := List.zipIdx_eq_cons_iff.1 hrest.symm
  obtain ⟨rfl, rfl⟩ := Prod.mk.inj hpair
  rw [Nat.zero_add] at hfails
  refine ⟨front.length, column, by simp, hfails, fun j hj column' hcolumn' => ?_⟩
  rw [List.getElem?_append_left hj] at hcolumn'
  refine hbefore (column', j) (List.mem_zipIdx_iff_getElem?.2 hcolumn')

theorem yields_delivered (r : RowReader ρ) (columns : List Column) (raw : ρ) :
    r.Yields columns (some raw) ((Cursor.delivered columns (r.values columns raw)).map some) := by
  cases h : r.values columns raw with
  | error e =>
    obtain ⟨i, column, hcolumn, hfails, hbefore⟩ := values_eq_error h
    exact .failed hcolumn hfails hbefore
  | ok values =>
    obtain ⟨hlength, hvalues⟩ := values_eq_ok h
    have hrow : Cursor.delivered columns (.ok values) = .ok ⟨columns, values, hlength⟩ :=
      Cursor.rowOf_eq_ok_iff.2 ⟨rfl, rfl⟩
    rw [hrow]
    exact .returned rfl hvalues

theorem serves_cursor (r : RowReader ρ) (rows : List ρ) :
    (r.cursor rows).Serves rows (r.values (r.cursor rows).columns)
      (r.Yields (r.cursor rows).columns) :=
  Cursor.serves_of_unread .exhausted (r.yields_delivered _) rfl rfl

end RowReader

def Column.IsCalled (column : Column) (name : String) : Prop :=
  Text.sameFolded column.name.toList name.toList = true

namespace Row

variable {row : Row} {s : Scalar} {name : String} {out : Except CursorError s.Carrier}

/-- How looking up a column's value by name ends: no column has the name, or the value of the first
that has it is read. -/
inductive LooksUp (row : Row) (s : Scalar) (name : String) : Except CursorError s.Carrier → Prop
  | unknown (h : ∀ column ∈ row.columns, ¬ column.IsCalled name) :
    LooksUp row s name (.error (.unknownColumn name))
  | found {before after : List Column} {column : Column} {v : Value}
    (hcolumns : row.columns = before ++ column :: after)
    (hbefore : ∀ column' ∈ before, ¬ column'.IsCalled name)
    (hcolumn : column.IsCalled name) (hv : row.values[before.length]? = some v) :
    LooksUp row s name ((s.read v).mapError .decode)

theorem find?_eq_none (h : ∀ column ∈ row.columns, ¬ column.IsCalled name) :
    row.find? name = none :=
  List.findIdx?_eq_none_iff.2 fun column hcolumn => eq_false_of_ne_true (h column hcolumn)

theorem find?_eq_some {before after : List Column} {column : Column}
    (hcolumns : row.columns = before ++ column :: after)
    (hbefore : ∀ column' ∈ before, ¬ column'.IsCalled name)
    (hcolumn : column.IsCalled name) : row.find? name = some before.length := by
  rw [find?, hcolumns, List.findIdx?_append,
    List.findIdx?_eq_none_iff.2 fun column' hcolumn' =>
      eq_false_of_ne_true (hbefore column' hcolumn'),
    List.findIdx?_cons, if_pos (show Text.sameFolded _ _ = true from hcolumn)]
  simp

theorem get_of_value {i : Nat} {v : Value} (hv : row.values[i]? = some v) :
    row.get s i = (s.read v).mapError .decode := by
  rw [get, valueAt, hv]
  rfl

theorem LooksUp.getByName_eq (h : row.LooksUp s name out) : row.getByName s name = out := by
  cases h with
  | unknown h => rw [getByName, find?_eq_none h]
  | found hcolumns hbefore hcolumn hv =>
    rw [getByName, find?_eq_some hcolumns hbefore hcolumn]
    exact get_of_value hv

theorem exists_looksUp (row : Row) (s : Scalar) (name : String) :
    ∃ out, row.LooksUp s name out := by
  cases h : row.columns.find? fun column => Text.sameFolded column.name.toList name.toList with
  | none => exact ⟨_, .unknown fun column hcolumn => List.find?_eq_none.1 h column hcolumn⟩
  | some column =>
    obtain ⟨hcolumn, before, after, hcolumns, hbefore⟩ := List.find?_eq_some_iff_append.1 h
    have hlt : before.length < row.values.length := by
      rw [row.sized, hcolumns]
      simp
    refine ⟨_, .found hcolumns (fun column' hcolumn' => ?_) hcolumn (List.getElem?_eq_getElem hlt)⟩
    simpa [Column.IsCalled] using hbefore column' hcolumn'

theorem LooksUp.ne_indexOutOfRange (h : row.LooksUp s name out) (index len : Nat) :
    out ≠ .error (.indexOutOfRange index len) := by
  intro hout
  cases h with
  | unknown => cases hout
  | found =>
    obtain ⟨mismatch, -, hmismatch⟩ := mapError_eq_error_iff.1 hout
    cases hmismatch

theorem getByName_eq_iff : row.getByName s name = out ↔ row.LooksUp s name out := by
  obtain ⟨out', h⟩ := exists_looksUp row s name
  exact ⟨fun hout => h.getByName_eq.symm.trans hout ▸ h, LooksUp.getByName_eq⟩

end Row

/-- The reads of a cursor take its rows one after another, and return those that are as long as
there are columns or, if a driver has fetched them, those that can be read for every column. -/
theorem Cursor.reads_exact :
    (∀ columns rows, (ofRows columns rows).Serves rows .ok (Yields columns)) ∧
    (∀ (ρ : Type) (r : RowReader ρ) (rows : List ρ),
      (r.cursor rows).columns = rows.head?.elim [] r.columns ∧
      (r.cursor rows).Serves rows (r.values (r.cursor rows).columns)
        (r.Yields (r.cursor rows).columns)) ∧
    (∀ c k row, Cursor.answer c k = .ok (some row) →
      row.columns = c.columns ∧ row.values.length = c.columns.length ∧
      ∀ s name, (∀ out, row.getByName s name = out ↔ row.LooksUp s name out) ∧
        ∀ index len, row.getByName s name ≠ .error (.indexOutOfRange index len)) := by
  refine ⟨serves_ofRows, fun ρ r rows => ⟨rfl, r.serves_cursor rows⟩, fun c k row h => ?_⟩
  have hcolumns : row.columns = c.columns := columns_of_answer h
  have hlength : row.values.length = c.columns.length := by rw [row.sized, hcolumns]
  refine ⟨hcolumns, hlength, fun s name => ⟨fun out => Row.getByName_eq_iff, ?_⟩⟩
  intro index len hout
  exact (Row.getByName_eq_iff.1 hout).ne_indexOutOfRange index len rfl

end QueryMapping
