import QueryMapping.Proofs.Cursor.Reads
import QueryMapping.Relational.Backend

/-! What is read of the values that a relational engine has stored. Any kind of value can stand in
any column. A value is read as what it is, unless its column is declared as one of truth values:
there every value is read as an integer, and what else it holds is lost. -/

namespace QueryMapping

namespace ColumnType

theorem named?_name (t : ColumnType) : named? t.name = some t := by
  cases t <;> decide

theorem name_eq_boolean_iff {t : ColumnType} : t.name = "BOOLEAN" ↔ t = .boolean := by
  cases t <;> decide

end ColumnType

namespace Datum

/-- A value has the content of a stored one. Integers are truth values in a column that is declared
so. -/
inductive Keeps (isTruth : Prop) : Datum → Value → Prop
  | null : Keeps isTruth .null .null
  | text (s : String) : Keeps isTruth (.text s) (.text s)
  | blob (bs : List UInt8) : Keeps isTruth (.blob bs) (.bytes bs)
  | real (x : Binary64) : Keeps isTruth (.real x) (.float x)
  | int {n : Int64} (h : ¬ isTruth) : Keeps isTruth (.int n) (.int n)
  | truth {n : Int64} (h : isTruth) : Keeps isTruth (.int n) (.bool (n ≠ 0))

def isIntOrNull : Datum → Bool
  | .null | .int _ => true
  | .real _ | .text _ | .blob _ => false

variable {type? : Option ColumnType} {d : Datum}

theorem decode_of_ne_boolean (h : type? ≠ some .boolean) : d.decode type? = d.toValue := by
  unfold decode
  split
  · rfl
  · exact absurd rfl h
  · rfl

theorem decode_boolean (h : d ≠ .null) : d.decode (some .boolean) = .bool (d.toInteger ≠ 0) := by
  cases d with
  | null => exact absurd rfl h
  | int | real | text | blob => rfl

theorem keeps_toValue {isTruth : Prop} (h : ¬ isTruth) (d : Datum) : Keeps isTruth d d.toValue := by
  cases d with
  | null => exact .null
  | int n => exact .int h
  | real x => exact .real x
  | text s => exact .text s
  | blob bs => exact .blob bs

theorem not_keeps_bool {isTruth : Prop} {b : Bool} (h : d.isIntOrNull = false) :
    ¬ Keeps isTruth d (.bool b) := by
  rintro ⟨⟩
  cases h

theorem keeps_decode_boolean {isTruth : Prop} (h : isTruth) :
    Keeps isTruth d (d.decode (some .boolean)) ↔ d.isIntOrNull = true := by
  cases d with
  | null => exact iff_of_true .null rfl
  | int n =>
    have hzero : n.toInt ≠ 0 ↔ n ≠ 0 := not_congr (Int64.toInt_inj (y := 0))
    have hdecode : (Datum.int n).decode (some .boolean) = .bool (n ≠ 0) :=
      (decode_boolean (by simp)).trans (congrArg Value.bool (decide_eq_decide.2 hzero))
    rw [hdecode]
    exact iff_of_true (.truth h) rfl
  | real | text | blob => exact iff_of_false (not_keeps_bool rfl) Bool.false_ne_true

end Datum

namespace Relational

variable {c : ResultColumn} {columns : List ResultColumn} {row : List Datum} {i : Nat} {v : Value}

namespace ResultColumn

theorem named?_typeName (c : ResultColumn) : ColumnType.named? c.column.typeName = c.type? := by
  obtain ⟨name, _ | t⟩ := c
  · change ColumnType.named? "NULL" = none
    decide
  · exact ColumnType.named?_name t

theorem typeName_eq_boolean_iff : c.column.typeName = "BOOLEAN" ↔ c.type? = some .boolean := by
  obtain ⟨name, _ | t⟩ := c
  · change "NULL" = "BOOLEAN" ↔ none = some ColumnType.boolean
    decide
  · change t.name = "BOOLEAN" ↔ some t = some ColumnType.boolean
    rw [ColumnType.name_eq_boolean_iff, Option.some_inj]

end ResultColumn

theorem Selection.length_of_mem_rows {s : Selection} {args : Array Datum} (h : row ∈ s.rows args) :
    row.length = s.columns.length := by
  unfold rows at h
  split at h
  · obtain rfl := List.mem_singleton.1 h
    simp [Selection.columns]
  · obtain ⟨found, -, rfl⟩ := List.mem_map.1 h
    simp [Selection.columns]

namespace ResultSet

theorem readAt_eq_ok_iff :
    readAt row i c.column = .ok v ↔ ∃ d, row[i]? = some d ∧ v = d.decode c.type? := by
  unfold readAt
  rw [c.named?_typeName]
  cases row[i]? with
  | none => simp
  | some d => simp [eq_comm]

theorem readAt_ne_error {column : Column} {e : CursorError} (h : i < row.length) :
    readAt row i column ≠ .error e := by
  rw [readAt, List.getElem?_eq_getElem h]
  intro heq
  cases heq

theorem columns_cursor {r : ResultSet} {k : Nat} {data : List Datum} (h : r.rows[k]? = some data) :
    r.cursor.columns = r.columns.map (·.column) := by
  have hne : r.rows ≠ [] := by
    intro hnil
    rw [hnil] at h
    cases h
  obtain ⟨first, rest, hrows⟩ := List.exists_cons_of_ne_nil hne
  change r.rows.head?.elim [] _ = _
  rw [hrows]
  rfl

/-- What a value is read as in a column: what it is, or whether it is not zero as an integer. -/
structure ReadsAs (c : ResultColumn) (d : Datum) (v : Value) : Prop where
  keeps : d.Keeps (c.column.typeName = "BOOLEAN") v ↔
    c.column.typeName ≠ "BOOLEAN" ∨ d.isIntOrNull = true
  truth : c.column.typeName = "BOOLEAN" → d ≠ .null → v = .bool (d.toInteger ≠ 0)

theorem readsAs_decode (c : ResultColumn) (d : Datum) : ReadsAs c d (d.decode c.type?) := by
  by_cases h : c.column.typeName = "BOOLEAN"
  · have htype : c.type? = some .boolean := ResultColumn.typeName_eq_boolean_iff.1 h
    rw [htype]
    refine ⟨(Datum.keeps_decode_boolean h).trans ?_, fun _ hne => Datum.decode_boolean hne⟩
    simp [h]
  · have htype : c.type? ≠ some .boolean :=
      fun heq => h (ResultColumn.typeName_eq_boolean_iff.2 heq)
    rw [Datum.decode_of_ne_boolean htype]
    exact ⟨iff_of_true (Datum.keeps_toValue h d) (.inl h), fun hbool => absurd hbool h⟩

/-- A row that has a value for every column is read, and what each value is read as has its content,
except for texts, bytes and reals in a column of truth values. -/
theorem fetched_content (r : ResultSet) {k : Nat} {data : List Datum}
    (hdata : r.rows[k]? = some data) :
    (r.columns.length ≤ data.length → ∃ row, r.cursor.answer k = .ok (some row)) ∧
    (∀ row : QueryMapping.Row, r.cursor.answer k = .ok (some row) →
      row.columns = r.columns.map (·.column) ∧ ∀ (i : Nat) c, r.columns[i]? = some c →
        ∃ d v, data[i]? = some d ∧ row.values[i]? = some v ∧ ReadsAs c d v) ∧
    (∀ (s : Selection) (args : Array Datum), ∀ data ∈ s.rows args,
      data.length = s.columns.length) := by
  have hcolumns : r.cursor.columns = r.columns.map (·.column) := columns_cursor hdata
  have hends := ((reader r.columns).serves_cursor r.rows).answers k
  change (reader r.columns).Yields r.cursor.columns r.rows[k]? (r.cursor.answer k) at hends
  rw [hdata, hcolumns] at hends
  refine ⟨fun hwide => ?_, fun row hrow => ?_, fun s args data hmem => s.length_of_mem_rows hmem⟩
  · generalize r.cursor.answer k = out at hends
    cases hends with
    | returned => exact ⟨_, rfl⟩
    | @failed _ i column e hcolumn hfails =>
      have hi : i < (r.columns.map (·.column)).length := (List.getElem?_eq_some_iff.1 hcolumn).1
      rw [List.length_map] at hi
      exact absurd hfails (readAt_ne_error (Nat.lt_of_lt_of_le hi hwide))
  · rw [hrow] at hends
    cases hends with
    | returned hcols hvalues =>
      refine ⟨hcols, fun i c hc => ?_⟩
      have hcolumn : (r.columns.map (·.column))[i]? = some c.column := by
        rw [List.getElem?_map, hc]
        rfl
      obtain ⟨v, hv, hread⟩ := hvalues i c.column hcolumn
      obtain ⟨d, hd, rfl⟩ := readAt_eq_ok_iff.1 hread
      exact ⟨d, _, hd, hv, readsAs_decode c d⟩

end ResultSet

def mixed : ResultSet :=
  ⟨[⟨"flag", some .boolean⟩, ⟨"n", none⟩], [[.int 1, .text "a"], [.text "12x", .int 7]]⟩

theorem fetched_content_mixed :
    mixed.rows[1]? = some [.text "12x", .int 7] ∧
      ∃ row : QueryMapping.Row, mixed.cursor.answer 1 = .ok (some row) ∧
        ∀ (i : Nat) c, mixed.columns[i]? = some c →
          ∃ d v, [Datum.text "12x", .int 7][i]? = some d ∧ row.values[i]? = some v ∧
          ResultSet.ReadsAs c d v := by
  have hdata : mixed.rows[1]? = some [.text "12x", .int 7] := rfl
  obtain ⟨hread, hcontent, -⟩ := ResultSet.fetched_content mixed hdata
  obtain ⟨row, hrow⟩ := hread (by decide)
  exact ⟨hdata, row, hrow, (hcontent row hrow).2⟩

def flagged : Connection :=
  ((Connection.ofStore .empty).runText
    ⟨"CREATE TABLE t (flag BOOLEAN); INSERT INTO t VALUES ('abc')", none⟩).2

/-- The text is stored as it is, and selecting it gives a truth value in its place. -/
theorem text_is_lost :
    (flagged.runText ⟨"SELECT flag FROM t", some #[]⟩).1.toOption.map (·.result.rows) =
      some [[.text "abc"]] ∧
      (backend.run flagged "SELECT flag FROM t" []).1.toOption.bind
        (fun a => (a.cursor.answer 0).toOption.join.map (·.values)) = some [.bool false] ∧
      ¬ (Datum.text "abc").Keeps True (.bool false) := by
  refine ⟨by decide +kernel, by decide +kernel, ?_⟩
  exact Datum.not_keeps_bool rfl

end Relational

end QueryMapping
