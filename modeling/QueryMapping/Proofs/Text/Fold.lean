import QueryMapping.Text.Ascii

/-! Folding letters: what it changes, and that it neither makes nor breaks names. -/

namespace QueryMapping.Text

variable {c : Char}

theorem toLower_cases (c : Char) : (c.toLower = c ∧ ¬ (65 ≤ c.toNat ∧ c.toNat ≤ 90)) ∨
    ((65 ≤ c.toNat ∧ c.toNat ≤ 90) ∧ c.toLower.toNat = c.toNat + 32) := by
  by_cases h : c.val ≥ 65 ∧ c.val ≤ 90
  · have hle : c.val.toNat ≤ 90 := h.2
    have hval : c.toLower.val = c.val + 32 := congrArg Char.val (dif_pos h)
    refine .inr ⟨h, ?_⟩
    change c.toLower.val.toNat = c.val.toNat + 32
    rw [hval, UInt32.toNat_add]
    exact Nat.mod_eq_of_lt (by change c.val.toNat + 32 < 4294967296; omega)
  · exact .inl ⟨dif_neg h, h⟩

theorem toLower_idem (c : Char) : c.toLower.toLower = c.toLower := by
  rcases toLower_cases c with ⟨h, -⟩ | ⟨hrange, h⟩
  · rw [h, h]
  · rcases toLower_cases c.toLower with ⟨h', -⟩ | ⟨h', -⟩
    · exact h'
    · omega

theorem isAlpha_of_toLower_ne (h : c.toLower ≠ c) : c.isAlpha = true := by
  rcases toLower_cases c with ⟨heq, -⟩ | ⟨hrange, -⟩
  · exact absurd heq h
  · have hupper : c.isUpper = true := decide_eq_true hrange
    exact Bool.or_eq_true_iff.2 (.inl hupper)

theorem isAlpha_of_toLower (h : c.toLower.isAlpha = true) : c.isAlpha = true := by
  by_cases heq : c.toLower = c
  · rwa [heq] at h
  · exact isAlpha_of_toLower_ne heq

theorem isAlphanum_of_toLower (h : c.toLower.isAlphanum = true) : c.isAlphanum = true := by
  by_cases heq : c.toLower = c
  · rwa [heq] at h
  · exact Bool.or_eq_true_iff.2 (.inl (isAlpha_of_toLower_ne heq))

theorem isNameChar_of_toLower (h : isNameChar c.toLower = true) : isNameChar c = true := by
  by_cases heq : c.toLower = c
  · rwa [heq] at h
  · simp [isNameChar, Char.isAlphanum, isAlpha_of_toLower_ne heq]

theorem prefix_fold_takeWhile_iff {word : List Char} (hword : ∀ c ∈ word, isNameChar c = true)
    (cs : List Char) :
    word <+: (cs.takeWhile isNameChar).map Char.toLower ↔ word <+: cs.map Char.toLower := by
  refine ⟨fun h => h.trans ((List.takeWhile_prefix isNameChar).map Char.toLower), fun h => ?_⟩
  induction cs generalizing word with
  | nil => exact h
  | cons c cs ih =>
    cases word with
    | nil => exact List.nil_prefix
    | cons d word =>
      rw [List.map_cons, List.cons_prefix_cons] at h
      obtain ⟨hhead, hcs⟩ := List.forall_mem_cons.1 hword
      rw [List.takeWhile_cons_of_pos (isNameChar_of_toLower (h.1 ▸ hhead)), List.map_cons,
        List.cons_prefix_cons]
      exact ⟨h.1, ih hcs h.2⟩

end QueryMapping.Text
