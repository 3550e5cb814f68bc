import Mathlib.Data.List.DropRight
import QueryMapping.Text.Ascii
import QueryMapping.Text.Blank

/-! Trimming, piece by piece. -/

namespace QueryMapping.Text

variable {as bs cs : List Char} {c : Char}

theorem isBlank_of_isNameChar (h : isNameChar c = true) : isBlank c = false := by
  delta isNameChar Char.isAlphanum Char.isAlpha Char.isUpper Char.isLower Char.isDigit at h
  simp only [Bool.or_eq_true, Bool.and_eq_true, decide_eq_true_eq, beq_iff_eq, ge_iff_le,
    UInt32.le_iff_toNat_le] at h
  change (((65 ≤ c.toNat ∧ c.toNat ≤ 90) ∨ (97 ≤ c.toNat ∧ c.toNat ≤ 122)) ∨
    (48 ≤ c.toNat ∧ c.toNat ≤ 57)) ∨ c = '_' at h
  rcases h with h | rfl
  · simp only [isBlank, blankRanges, List.any_cons, List.any_nil, Bool.or_eq_false_iff,
      Bool.and_eq_false_iff, decide_eq_false_iff_not, and_true]
    omega
  · decide

theorem ne_of_isBlank {d : Char} (hc : isBlank c = true) (hd : isBlank d = false) : c ≠ d := by
  rintro rfl
  rw [hc] at hd
  cases hd

theorem isNameChar_of_isBlank (h : isBlank c = true) : isNameChar c = false := by
  rw [← Bool.not_eq_true]
  intro hname
  rw [isBlank_of_isNameChar hname] at h
  cases h

theorem trimEnd_isPrefix (cs : List Char) : trimEnd cs <+: cs := List.rdropWhile_prefix isBlank cs

theorem trimEnd_idem (cs : List Char) : trimEnd (trimEnd cs) = trimEnd cs :=
  List.rdropWhile_idempotent isBlank cs

theorem trimEnd_append_of_nil (h : trimEnd bs = []) : trimEnd (as ++ bs) = trimEnd as := by
  have hbs : bs.reverse.dropWhile isBlank = [] := List.reverse_eq_nil_iff.1 h
  rw [trimEnd, List.reverse_append, List.dropWhile_append, hbs]
  rfl

theorem trimEnd_append_of_ne_nil (h : trimEnd bs ≠ []) : trimEnd (as ++ bs) = as ++ trimEnd bs := by
  have hbs : bs.reverse.dropWhile isBlank ≠ [] := fun h' => h (by rw [trimEnd, h']; rfl)
  rw [trimEnd, List.reverse_append, List.dropWhile_append, if_neg (by simpa using hbs),
    List.reverse_append, List.reverse_reverse]
  rfl

theorem trimEnd_singleton (h : isBlank c = true) : trimEnd [c] = [] := by simp [trimEnd, h]

theorem trimEnd_concat (h : isBlank c = false) : trimEnd (cs ++ [c]) = cs ++ [c] := by
  rw [trimEnd_append_of_ne_nil] <;> simp [trimEnd, h]

theorem trimEnd_cons_of_not_blank (h : isBlank c = false) :
    trimEnd (c :: cs) = c :: trimEnd cs := by
  have hc : trimEnd [c] = [c] := @trimEnd_concat [] c h
  by_cases hcs : trimEnd cs = []
  · rw [hcs, ← hc]
    exact @trimEnd_append_of_nil [c] cs hcs
  · exact @trimEnd_append_of_ne_nil [c] cs hcs

theorem trimStart_cons_of_blank (h : isBlank c = true) : trimStart (c :: cs) = trimStart cs :=
  List.dropWhile_cons_of_pos h

theorem trimStart_cons_of_not_blank (h : isBlank c = false) : trimStart (c :: cs) = c :: cs :=
  List.dropWhile_cons_of_neg (by simp [h])

theorem trimStart_append (h : trimStart as ≠ []) (bs : List Char) :
    trimStart (as ++ bs) = trimStart as ++ bs := by
  rw [trimStart, List.dropWhile_append, if_neg (by rw [List.isEmpty_iff]; exact h)]
  rfl

theorem trim_cons_of_blank (h : isBlank c = true) : trim (c :: cs) = trim cs := by
  rw [trim, trimStart_cons_of_blank h, trim]

theorem trim_cons_of_not_blank (h : isBlank c = false) : trim (c :: cs) = c :: trimEnd cs := by
  rw [trim, trimStart_cons_of_not_blank h, trimEnd_cons_of_not_blank h]

theorem trim_idem (cs : List Char) : trim (trim cs) = trim cs := by
  induction cs with
  | nil => rfl
  | cons c cs ih =>
    cases h : isBlank c with
    | true => rwa [trim_cons_of_blank h]
    | false =>
      rw [trim_cons_of_not_blank h, trim_cons_of_not_blank h, trimEnd_idem]

end QueryMapping.Text
