import QueryMapping.Proofs.Cursor.Reads
import QueryMapping.Strategy.Basic

/-! A row mapper driven over a cursor. It is applied to the rows that are left in order, under the
numbers from zero on, until one of them cannot be delivered or mapped. -/

namespace QueryMapping

namespace RowMapper

variable {α : Type}

def Maps (m : RowMapper α) (columns : List Column)
    (p : Except CursorError (List Value) × Nat) (a : α) :
    Prop := ∃ row, Cursor.delivered columns p.1 = .ok row ∧ m row p.2 = .ok a

structure Reaches (m : RowMapper α) (start : Nat) (c : Cursor)
    (before : List (Except CursorError (List Value))) (fetched : Except CursorError (List Value))
    (after : List (Except CursorError (List Value))) : Prop where
  unread : c.unread = before ++ fetched :: after
  maps : ∀ p ∈ before.zipIdx start, ∃ a, m.Maps c.columns p a

def Applies (m : RowMapper α) (start : Nat) (c : Cursor) (row : Row) (n : Nat) : Prop :=
  ∃ before fetched after, m.Reaches start c before fetched after ∧
    Cursor.delivered c.columns fetched = .ok row ∧ n = start + before.length

/-- How a run over the rows that are left ends. -/
inductive Drives (m : RowMapper α) (start : Nat) (c : Cursor) :
    Except MaterializeError (List α) × Cursor → Prop
  | finished {as : List α} (h : List.Forall₂ (m.Maps c.columns) (c.unread.zipIdx start) as) :
    Drives m start c (.ok as, { c with unread := [], position := c.position + as.length })
  | undelivered {before after : List (Except CursorError (List Value))}
      {fetched : Except CursorError (List Value)} {e : CursorError}
      (h : m.Reaches start c before fetched after)
        (hrow : Cursor.delivered c.columns fetched = .error e) :
    Drives m start c
      (.error (.cursor e), { c with unread := after, position := c.position + before.length })
  | unmapped {before after : List (Except CursorError (List Value))}
      {fetched : Except CursorError (List Value)} {row : Row} {e : MaterializeError}
      (h : m.Reaches start c before fetched after)
        (hrow : Cursor.delivered c.columns fetched = .ok row)
      (hmap : m row (start + before.length) = .error e) :
    Drives m start c
      (.error e, { c with unread := after, position := c.position + before.length + 1 })

variable {m m' : RowMapper α} {c : Cursor} {start : Nat} {fetched : Except CursorError (List Value)}
  {before after rest : List (Except CursorError (List Value))} {row : Row}
  {out : Except MaterializeError (List α) × Cursor}

theorem mapFrom_eq (m : RowMapper α) (done : Array α) (c : Cursor) :
    m.mapFrom done c =
      match c.next with
      | (.error e, c') => (.error (.cursor e), c')
      | (.ok none, c') => (.ok done.toList, c')
      | (.ok (some row), c') =>
        match m row done.size with
        | .error e => (.error e, c')
        | .ok a => m.mapFrom (done.push a) c' := by
  rw [mapFrom]
  split
  · next h => rw [h]
  · next h => rw [h]
  · next row _ h => cases hmap : m row done.size <;> simp only [h, hmap]

theorem mapFrom_of_nil (h : c.unread = []) (done : Array α) :
    m.mapFrom done c = (.ok done.toList, c) := by
  rw [mapFrom_eq, Cursor.next_of_nil h]

theorem mapFrom_of_undelivered {e : CursorError} (h : c.unread = fetched :: rest)
    (hrow : Cursor.delivered c.columns fetched = .error e) (done : Array α) :
    m.mapFrom done c = (.error (.cursor e), { c with unread := rest }) := by
  rw [mapFrom_eq, Cursor.next_of_undelivered h hrow]

theorem mapFrom_of_unmapped {e : MaterializeError} {done : Array α} (h : c.unread = fetched :: rest)
    (hrow : Cursor.delivered c.columns fetched = .ok row) (hmap : m row done.size = .error e) :
    m.mapFrom done c = (.error e, { c with unread := rest, position := c.position + 1 }) := by
  rw [mapFrom_eq, Cursor.next_of_delivered h hrow]
  simp only [hmap]

theorem mapFrom_of_mapped {a : α} {done : Array α} (h : c.unread = fetched :: rest)
    (hrow : Cursor.delivered c.columns fetched = .ok row) (hmap : m row done.size = .ok a) :
    m.mapFrom done c =
      m.mapFrom (done.push a) { c with unread := rest, position := c.position + 1 } := by
  rw [mapFrom_eq, Cursor.next_of_delivered h hrow]
  simp only [hmap]

theorem mapFrom_of_maps {as : List α} {done : Array α} (h : c.unread = before ++ after)
    (hmaps : List.Forall₂ (m.Maps c.columns) (before.zipIdx done.size) as) :
    m.mapFrom done c =
      m.mapFrom (done ++ as.toArray)
        { c with unread := after, position := c.position + before.length } := by
  -- A row's number is the size of what has been done, so the induction is for every accumulator.
  induction before generalizing c done as with
  | nil =>
    cases hmaps
    obtain rfl : c.unread = after := h
    simp
  | cons fetched before ih =>
    rw [List.zipIdx_cons, List.forall₂_cons_left_iff] at hmaps
    obtain ⟨a, as, ⟨row, hrow, hmap⟩, hmaps, rfl⟩ := hmaps
    rw [mapFrom_of_mapped h hrow hmap, ih rfl (by rwa [Array.size_push])]
    simp [Nat.add_assoc, Nat.add_comm 1]

theorem maps_or_reaches (m : RowMapper α) (start : Nat) (c : Cursor) :
    (∀ p ∈ c.unread.zipIdx start, ∃ a, m.Maps c.columns p a) ∨
      ∃ before fetched after, m.Reaches start c before fetched after ∧
        ¬ ∃ a, m.Maps c.columns (fetched, start + before.length) a := by
  generalize hunread : c.unread = unread
  induction unread generalizing start c with
  | nil => exact .inl (List.forall_mem_nil _)
  | cons fetched rest ih =>
    by_cases hfetched : ∃ a, m.Maps c.columns (fetched, start) a
    · rcases ih (start + 1) { c with unread := rest } rfl with h | ⟨before, next, after, h, hnext⟩
      · exact .inl (List.forall_mem_cons.2 ⟨hfetched, h⟩)
      · refine .inr ⟨fetched :: before, next, after,
          ⟨hunread.trans (congrArg (fetched :: ·) h.unread),
            List.forall_mem_cons.2 ⟨hfetched, h.maps⟩⟩, ?_⟩
        rwa [List.length_cons, Nat.add_comm before.length, ← Nat.add_assoc]
    · exact .inr ⟨[], fetched, rest, ⟨hunread, List.forall_mem_nil _⟩, hfetched⟩

theorem exists_drives (m : RowMapper α) (start : Nat) (c : Cursor) :
    ∃ out, Drives m start c out := by
  rcases maps_or_reaches m start c with h | ⟨before, fetched, after, h, hfetched⟩
  · obtain ⟨as, has⟩ := exists_forall₂_iff.2 h
    exact ⟨_, .finished has⟩
  · cases hrow : Cursor.delivered c.columns fetched with
    | error e => exact ⟨_, .undelivered h hrow⟩
    | ok row =>
      cases hmap : m row (start + before.length) with
      | error e => exact ⟨_, .unmapped h hrow hmap⟩
      | ok a => exact absurd ⟨a, row, hrow, hmap⟩ hfetched

theorem Drives.mapFrom_eq {done : Array α} (h : Drives m done.size c out) :
    m.mapFrom done c = (out.1.map (done.toList ++ ·), out.2) := by
  cases h with
  | @finished as h =>
    rw [mapFrom_of_maps (List.append_nil _).symm h, mapFrom_of_nil rfl, h.length_eq.symm,
      List.length_zipIdx]
    simp [Except.map]
  | undelivered h hrow =>
    obtain ⟨as, has⟩ := exists_forall₂_iff.2 h.maps
    rw [mapFrom_of_maps h.unread has]
    exact mapFrom_of_undelivered (c := ⟨c.columns, _ :: _, _⟩) rfl hrow _
  | @unmapped before after fetched row e h hrow hmap =>
    obtain ⟨as, has⟩ := exists_forall₂_iff.2 h.maps
    have hsize : (done ++ as.toArray).size = done.size + before.length := by
      simp [← has.length_eq]
    rw [mapFrom_of_maps h.unread has]
    exact mapFrom_of_unmapped rfl hrow (by rwa [hsize])

theorem mapAll_eq_iff : m.mapAll c = out ↔ Drives m 0 c out := by
  have heq : ∀ {out}, Drives m 0 c out → m.mapAll c = out := by
    rintro ⟨result, c'⟩ h
    have h := @Drives.mapFrom_eq α m c (result, c') #[] h
    cases result <;> simpa [mapAll, Except.map] using h
  obtain ⟨out', h⟩ := exists_drives m 0 c
  exact ⟨fun hout => (heq h).symm.trans hout ▸ h, heq⟩

theorem applies_of_maps {p : Except CursorError (List Value) × Nat} (h : c.unread = before ++ after)
    (hmaps : ∀ p ∈ before.zipIdx start, ∃ a, m.Maps c.columns p a) (hp : p ∈ before.zipIdx start)
    (hrow : Cursor.delivered c.columns p.1 = .ok row) : m.Applies start c row p.2 := by
  obtain ⟨front, back, hsplit⟩ := List.append_of_mem hp
  obtain ⟨before, rest, rfl, rfl, hrest⟩ := List.zipIdx_eq_append_iff.1 hsplit
  obtain ⟨fetched, rest, rfl, rfl, rfl⟩ := List.zipIdx_eq_cons_iff.1 hrest.symm
  refine ⟨before, fetched, rest ++ after, ⟨by simpa using h, fun q hq => ?_⟩, hrow, rfl⟩
  exact hmaps q (List.zipIdx_append ▸ List.mem_append_left _ hq)

section Agree

variable (hagree : ∀ row n, m.Applies start c row n → m' row n = m row n)
include hagree

theorem maps_of_agree (h : c.unread = before ++ after)
    (hmaps : ∀ p ∈ before.zipIdx start, ∃ a, m.Maps c.columns p a) :
    ∀ p ∈ before.zipIdx start, ∀ a, m.Maps c.columns p a → m'.Maps c.columns p a := by
  rintro p hp a ⟨row, hrow, hmap⟩
  exact ⟨row, hrow, hagree row p.2 (applies_of_maps h hmaps hp hrow) ▸ hmap⟩

theorem Reaches.of_agree (h : m.Reaches start c before fetched after) :
    m'.Reaches start c before fetched after where
  unread := h.unread
  maps := fun p hp => (h.maps p hp).imp (maps_of_agree hagree h.unread h.maps p hp)

/-- A mapper that does the same to every row that one is applied to ends its run in the same way. -/
theorem Drives.of_agree (h : Drives m start c out) : Drives m' start c out := by
  cases h with
  | finished h =>
    have hmaps := exists_forall₂_iff.1 ⟨_, h⟩
    have hunread := (List.append_nil c.unread).symm
    have hmem := (List.forall₂_and_left _ _).2 ⟨fun _ hp => hp, h⟩
    exact .finished (hmem.imp fun p a hp => maps_of_agree hagree hunread hmaps p hp.1 a hp.2)
  | undelivered h hrow => exact .undelivered (h.of_agree hagree) hrow
  | unmapped h hrow hmap =>
    exact .unmapped (h.of_agree hagree) hrow (hagree _ _ ⟨_, _, _, h, hrow, rfl⟩ ▸ hmap)

end Agree

/-- The rows that are left are mapped in order, up to the first one that is not delivered or not
mapped. The mapper is applied to none after it. -/
theorem mapAll_stops_at_first_failure (m : RowMapper α) (c : Cursor) :
    (∀ out, m.mapAll c = out ↔ Drives m 0 c out) ∧
    ((∃ as, (m.mapAll c).1 = .ok as) ↔ ∀ p ∈ c.unread.zipIdx, ∃ a, m.Maps c.columns p a) ∧
    (∀ values e, Cursor.delivered c.columns (.ok values) = .error e ↔
      values.length ≠ c.columns.length ∧ e = .indexOutOfRange values.length c.columns.length) ∧
    (∀ m' : RowMapper α, (∀ row n, m.Applies 0 c row n → m' row n = m row n) →
      m'.mapAll c = m.mapAll c) ∧
    (Materializer.mapRows m).materialize c = ((m.mapAll c).1.map .rows, (m.mapAll c).2) ∧
    (Materializer.extract m.mapAll).materialize c =
      ((m.mapAll c).1.map .single, (m.mapAll c).2) := by
  have hrun : Drives m 0 c (m.mapAll c) := mapAll_eq_iff.1 rfl
  refine ⟨fun out => mapAll_eq_iff, ⟨?_, fun h => ?_⟩, fun values e => Cursor.rowOf_eq_error_iff,
    fun m' h => mapAll_eq_iff.2 (hrun.of_agree h), rfl, rfl⟩
  · rintro ⟨as, has⟩
    generalize m.mapAll c = out at hrun has
    cases hrun with
    | finished h => exact exists_forall₂_iff.1 ⟨_, h⟩
    | undelivered => cases has
    | unmapped => cases has
  · obtain ⟨as, has⟩ := exists_forall₂_iff.2 h
    exact ⟨as, congrArg Prod.fst (mapAll_eq_iff.2 (.finished has))⟩

/-- Numbers are counted from zero wherever the cursor stands. -/
example :
    mapAll (fun row n => if n = 1 then .error .emptyResult else .ok row.length)
        ⟨[], [.ok [], .ok [], .ok [.null]], 4⟩ =
      (.error .emptyResult, ⟨[], [.ok [.null]], 6⟩) := by
  cbv

end RowMapper

end QueryMapping
