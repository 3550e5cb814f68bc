import Mathlib.Data.List.Basic

/-! Lists cut at a separator. -/

namespace QueryMapping

variable {α : Type}

theorem pieces_induction (mark : α) {motive : List α → Prop}
    (last : ∀ piece, mark ∉ piece → motive piece)
    (next : ∀ piece rest, mark ∉ piece → motive rest → motive (piece ++ mark :: rest))
    (as : List α) :
    motive as := by
  -- `piece` is what has been read since the last separator.
  suffices h : ∀ piece, mark ∉ piece → motive (piece ++ as) from h [] List.not_mem_nil
  induction as with
  | nil =>
    intro piece hpiece
    rw [List.append_nil]
    exact last piece hpiece
  | cons a as ih =>
    intro piece hpiece
    by_cases ha : a = mark
    · rw [ha]
      exact next piece as hpiece (ih [] List.not_mem_nil)
    · have hmore : mark ∉ piece ++ [a] := by simp [hpiece, Ne.symm ha]
      simpa using ih (piece ++ [a]) hmore

theorem intercalate_cons {pieces : List (List α)} (mark : α) (piece : List α) (h : pieces ≠ []) :
    [mark].intercalate (piece :: pieces) = piece ++ mark :: [mark].intercalate pieces := by
  obtain ⟨next, rest, rfl⟩ := List.exists_cons_of_ne_nil h
  rw [List.intercalate_cons_cons, List.append_assoc, List.singleton_append]

theorem mem_of_mem_intercalate {mark a : α} {pieces : List (List α)}
    (h : a ∈ [mark].intercalate pieces) :
    a = mark ∨ ∃ piece ∈ pieces, a ∈ piece := by
  induction pieces with
  | nil => cases h
  | cons piece pieces ih =>
    by_cases hpieces : pieces = []
    · subst hpieces
      rw [List.intercalate_singleton] at h
      exact .inr ⟨piece, List.mem_cons_self, h⟩
    · rw [intercalate_cons mark piece hpieces] at h
      rcases List.mem_append.1 h with h | h
      · exact .inr ⟨piece, List.mem_cons_self, h⟩
      · rcases List.mem_cons.1 h with h | h
        · exact .inl h
        · rcases ih h with h | ⟨piece', hmem, h⟩
          · exact .inl h
          · exact .inr ⟨piece', List.mem_cons_of_mem _ hmem, h⟩

theorem mem_intercalate_of_mem {mark a : α} {piece : List α} {pieces : List (List α)}
    (h : piece ∈ pieces) (ha : a ∈ piece) : a ∈ [mark].intercalate pieces := by
  induction pieces with
  | nil => cases h
  | cons first pieces ih =>
    by_cases hpieces : pieces = []
    · subst hpieces
      rw [List.mem_singleton.1 h] at ha
      rwa [List.intercalate_singleton]
    · rw [intercalate_cons mark first hpieces]
      rcases List.mem_cons.1 h with rfl | h
      · exact List.mem_append_left _ ha
      · exact List.mem_append_right _ (List.mem_cons_of_mem _ (ih h))

theorem exists_mem_intercalate_ne_iff {mark : α} {pieces : List (List α)}
    (h : ∀ piece ∈ pieces, mark ∉ piece) :
    (∃ a ∈ [mark].intercalate pieces, a ≠ mark) ↔ ∃ piece ∈ pieces, piece ≠ [] := by
  constructor
  · rintro ⟨a, ha, hne⟩
    obtain ⟨piece, hpiece, ha⟩ := (mem_of_mem_intercalate ha).resolve_left hne
    exact ⟨piece, hpiece, List.ne_nil_of_mem ha⟩
  · rintro ⟨piece, hpiece, hne⟩
    obtain ⟨a, ha⟩ := List.exists_mem_of_ne_nil piece hne
    exact ⟨a, mem_intercalate_of_mem hpiece ha, fun heq => h piece hpiece (heq ▸ ha)⟩

theorem not_mem_of_mem_splitOn [BEq α] [LawfulBEq α] {mark : α} {as piece : List α}
    (h : piece ∈ as.splitOn mark) : mark ∉ piece := by
  induction as using pieces_induction mark with
  | last as has =>
    rw [List.splitOn_eq_singleton has, List.mem_singleton] at h
    exact h ▸ has
  | next first rest hfirst ih =>
    rw [List.splitOn_append_cons_self_of_not_mem hfirst] at h
    rcases List.mem_cons.1 h with rfl | h
    · exact hfirst
    · exact ih h

theorem splitOn_append_cons [BEq α] [LawfulBEq α] (mark : α) (as bs : List α) :
    (as ++ mark :: bs).splitOn mark = as.splitOn mark ++ bs.splitOn mark := by
  induction as using pieces_induction mark with
  | last piece h =>
    rw [List.splitOn_append_cons_self_of_not_mem h, List.splitOn_eq_singleton h,
      List.singleton_append]
  | next piece rest h ih =>
    rw [List.append_assoc, List.cons_append, List.splitOn_append_cons_self_of_not_mem h, ih,
      List.splitOn_append_cons_self_of_not_mem h, List.cons_append]

theorem splitOn_append_of_not_mem [BEq α] [LawfulBEq α] {mark : α} {bs : List α} (h : mark ∉ bs)
    (as : List α) :
    ∃ before last, (as ++ bs).splitOn mark = before ++ [last ++ bs] := by
  induction as using pieces_induction mark with
  | last piece hpiece => exact ⟨[], piece, List.splitOn_eq_singleton (by simp [hpiece, h])⟩
  | next piece rest hpiece ih =>
    obtain ⟨before, last, heq⟩ := ih
    refine ⟨piece :: before, last, ?_⟩
    rw [List.append_assoc, List.cons_append, List.splitOn_append_cons_self_of_not_mem hpiece, heq,
      List.cons_append]

theorem cases_of_dropWhile_ne [DecidableEq α] (mark : α) (as : List α) :
    (as.dropWhile (· ≠ mark) = [] ∧ as.takeWhile (· ≠ mark) = as) ∨
      ∃ rest, as.dropWhile (· ≠ mark) = mark :: rest ∧
      as.takeWhile (· ≠ mark) ++ mark :: rest = as := by
  have hcut := List.takeWhile_append_dropWhile (p := (· ≠ mark)) (l := as)
  cases hdrop : as.dropWhile (· ≠ mark) with
  | nil =>
    rw [hdrop, List.append_nil] at hcut
    exact .inl ⟨rfl, hcut⟩
  | cons a rest =>
    have hmark := List.head?_dropWhile_not (· ≠ mark) as
    rw [hdrop] at hmark
    obtain rfl : a = mark := by simpa using hmark
    rw [hdrop] at hcut
    exact .inr ⟨rest, rfl, hcut⟩

/-! ### Occurrences -/

theorem prefix_append_cons_iff {mark : α} {pattern as bs : List α} (h : mark ∉ pattern) :
    pattern <+: as ++ mark :: bs ↔ pattern <+: as := by
  refine ⟨fun ⟨rest, heq⟩ => ?_, fun hprefix => hprefix.trans (List.prefix_append _ _)⟩
  rcases List.append_eq_append_iff.1 heq with ⟨tail, rfl, -⟩ | ⟨tail, rfl, htail⟩
  · exact List.prefix_append _ _
  · cases tail with
    | nil => exact (List.append_nil as).symm ▸ List.prefix_rfl
    | cons a tail =>
      obtain ⟨rfl, -⟩ := List.cons.inj htail
      simp at h

theorem infix_append_cons_iff {mark : α} {pattern : List α} (h : mark ∉ pattern) (as bs : List α) :
    pattern <:+: as ++ mark :: bs ↔ pattern <:+: as ∨ pattern <:+: bs := by
  induction as with
  | nil =>
    rw [List.nil_append, List.infix_cons_iff, ← List.nil_append (mark :: bs),
      prefix_append_cons_iff h, List.prefix_nil, List.infix_nil]
  | cons a as ih =>
    rw [List.cons_append, List.infix_cons_iff, ih, ← List.cons_append, prefix_append_cons_iff h,
      List.infix_cons_iff, or_assoc]

theorem infix_iff_exists_mem_splitOn [BEq α] [LawfulBEq α] {mark : α} {pattern : List α}
    (h : mark ∉ pattern)
    (as : List α) : pattern <:+: as ↔ ∃ piece ∈ as.splitOn mark, pattern <:+: piece := by
  induction as using pieces_induction mark with
  | last piece hpiece => simp [List.splitOn_eq_singleton hpiece]
  | next piece rest hpiece ih =>
    rw [infix_append_cons_iff h, ih, List.splitOn_append_cons_self_of_not_mem hpiece,
      List.exists_mem_cons_iff]

theorem tail_eq_of_append_eq {a b : α} {as bs as' bs' : List α}
    (h : as ++ a :: as' = bs ++ b :: bs') (ha : a ∉ bs) (hb : b ∉ as) : a :: as' = b :: bs' := by
  rcases List.append_eq_append_iff.1 h with ⟨cs, rfl, hcs⟩ | ⟨cs, rfl, hcs⟩
  · cases cs with
    | nil => simpa using hcs
    | cons c cs =>
      obtain ⟨rfl, -⟩ := List.cons.inj hcs
      simp at ha
  · cases cs with
    | nil => simpa using hcs.symm
    | cons c cs =>
      obtain ⟨rfl, -⟩ := List.cons.inj hcs
      simp at hb

end QueryMapping
