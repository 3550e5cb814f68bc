import QueryMapping.Proofs.Text.Blank
import QueryMapping.Settings.Text

/-! What settings given as text are read as. A text that has none of the other forms, and no white
space around it, is taken over as it is. -/

namespace QueryMapping.Settings

/-- A text without white space around it that is no truth value and no number, and begins neither
with a quote nor with a bracket or a brace. -/
structure IsPlain (text : String) : Prop where
  trimmed : Text.trim text.toList = text.toList
  head : ∀ c ∈ text.toList.head?, c ∉ ['"', '\'', '[', '\x7b']
  ne_true : text ≠ "true"
  ne_false : text ≠ "false"
  not_decimal : isDecimal text.toList = false
  not_integer : integer? text.toList = none

variable {text : String} {cs as bs : List Char} {c : Char}

theorem isBlank_of_isAsciiBlank (h : isAsciiBlank c = true) : Text.isBlank c = true := by
  simp only [isAsciiBlank, Bool.or_eq_true, beq_iff_eq] at h
  rcases h with (((rfl | rfl) | rfl) | rfl) | rfl <;> decide

theorem not_isAsciiBlank_of_isSeparator (h : isSeparator c = true) : isAsciiBlank c = false := by
  simp only [isSeparator, Bool.or_eq_true, beq_iff_eq] at h
  rcases h with (((rfl | rfl) | rfl) | rfl) | rfl <;> decide

theorem length_trim_le (cs : List Char) : (Text.trim cs).length ≤ cs.length :=
  (Text.trimEnd_isPrefix _).length_le.trans (List.dropWhile_suffix _).length_le

theorem trimEnd_of_trimmed (h : Text.trim cs = cs) : Text.trimEnd cs = cs := by
  rw [← h, Text.trim, Text.trimEnd_idem]

theorem skipBlanks_of_trimmed (h : Text.trim cs = cs) : skipBlanks cs = cs := by
  cases cs with
  | nil => rfl
  | cons c cs =>
    refine List.dropWhile_cons_of_neg fun hc => ?_
    -- A blank at the start would be trimmed away.
    have hle := length_trim_le cs
    rw [← Text.trim_cons_of_blank (isBlank_of_isAsciiBlank hc), h, List.length_cons] at hle
    exact Nat.not_succ_le_self _ hle

theorem skipBlanks_ne_nil_of_trimmed (as : List Char) (h : Text.trim (as ++ bs) = as ++ bs)
    (hbs : bs ≠ []) :
    skipBlanks bs ≠ [] := by
  intro hblank
  have hend : Text.trimEnd bs = [] := by
    rw [Text.trimEnd, List.reverse_eq_nil_iff, List.dropWhile_eq_nil_iff]
    intro c hc
    exact isBlank_of_isAsciiBlank (List.dropWhile_eq_nil_iff.1 hblank c (List.mem_reverse.1 hc))
  have hstart := Text.trimEnd_isPrefix as
  rw [← Text.trimEnd_append_of_nil hend, trimEnd_of_trimmed h] at hstart
  exact hbs (List.append_right_eq_self.1 (hstart.eq_of_length_le (by simp)))

theorem skipBlanks_dropWhile (cs : List Char) :
    skipBlanks (cs.dropWhile (!isSeparator ·)) = cs.dropWhile (!isSeparator ·) := by
  cases hdrop : cs.dropWhile (!isSeparator ·) with
  | nil => rfl
  | cons c rest =>
    have hc : isSeparator c = true := by
      have hfirst := List.head?_dropWhile_not (!isSeparator ·) cs
      rw [hdrop] at hfirst
      simpa using hfirst
    exact List.dropWhile_cons_of_neg (by simp [not_isAsciiBlank_of_isSeparator hc])

theorem takeWhile_of_dropWhile_eq_nil (h : cs.dropWhile (!isSeparator ·) = []) :
    cs.takeWhile (!isSeparator ·) = cs := by
  rw [List.takeWhile_eq_self_iff, ← List.dropWhile_eq_nil_iff, h]

theorem toList_of_plain {name : String} (h : plain cs = .text name) :
    name.toList = Text.trim cs := by
  unfold plain at h
  dsimp only at h
  split at h
  · cases h
  · split at h
    · cases h
    · obtain rfl := Node.text.inj h
      exact String.toList_ofList

theorem IsPlain.plain_eq (h : IsPlain text) : plain text.toList = .text text := by
  rw [plain, h.trimmed, if_neg (by simp [h.not_decimal]), h.not_integer, String.ofList_toList]

theorem IsPlain.exists_unread {rest : List Char} (h : IsPlain text) (word : String)
    (htext : text.toList = word.toList ++ rest) (hword : text ≠ word) :
    ∃ c cs, skipBlanks rest = c :: cs := by
  refine List.exists_cons_of_ne_nil
    (skipBlanks_ne_nil_of_trimmed word.toList (htext ▸ h.trimmed) ?_)
  rintro rfl
  rw [List.append_nil] at htext
  exact hword (String.toList_inj.1 htext)

theorem IsPlain.value?_cases (h : IsPlain text) (fuel : Nat) :
    value? (fuel + 1) text.toList = some (.text text, []) ∨
      ∃ node c rest, value? (fuel + 1) text.toList = some (node, c :: rest) := by
  have hhead : ∀ c rest, text.toList = c :: rest → c ∉ ['"', '\'', '[', '\x7b'] := by
    intro c rest htext
    exact h.head c (by simp [htext])
  rw [value?, skipBlanks_of_trimmed h.trimmed]
  split
  case h_1 rest htext =>
    obtain ⟨c, cs, hrest⟩ := h.exists_unread "true" htext h.ne_true
    exact .inr ⟨.bool true, c, cs, by rw [Option.map_some, hrest]⟩
  case h_2 rest htext =>
    obtain ⟨c, cs, hrest⟩ := h.exists_unread "false" htext h.ne_false
    exact .inr ⟨.bool false, c, cs, by rw [Option.map_some, hrest]⟩
  case h_8 =>
    rw [Option.map_some, skipBlanks_dropWhile]
    cases hdrop : text.toList.dropWhile (!isSeparator ·) with
    | nil =>
      rw [takeWhile_of_dropWhile_eq_nil hdrop, h.plain_eq]
      exact .inl rfl
    | cons c cs => exact .inr ⟨_, c, cs, rfl⟩
  all_goals
    next htext => exact absurd (by decide) (hhead _ _ htext)

theorem ofText_of_isPlain (h : IsPlain text) : ofText text = .text text := by
  unfold ofText
  rcases h.value?_cases (2 * text.length + 1) with hvalue | ⟨node, c, rest, hvalue⟩
  · rw [hvalue]
  · rw [hvalue]

/-! ### Texts with white space around them -/

theorem trim_skipBlanks (cs : List Char) : Text.trim (skipBlanks cs) = Text.trim cs := by
  induction cs with
  | nil => rfl
  | cons c cs ih =>
    rw [skipBlanks, List.dropWhile_cons]
    split
    · next hc => rw [Text.trim_cons_of_blank (isBlank_of_isAsciiBlank hc), ← ih, skipBlanks]
    · rfl

theorem head?_trim_of_skipBlanks (h : skipBlanks as = c :: cs) (hc : Text.isBlank c = false) :
    (Text.trim as).head? = some c := by
  rw [← trim_skipBlanks, h, Text.trim_cons_of_not_blank hc]
  rfl

theorem trim_of_ofText {name : String} (h : ofText text = .text name)
    (hquote : ∀ c ∈ (Text.trim text.toList).head?, c ≠ '"' ∧ c ≠ '\'') :
    Text.trim name.toList = Text.trim text.toList := by
  unfold ofText at h
  split at h
  · next node hvalue =>
    subst h
    rw [value?] at hvalue
    obtain ⟨⟨node, rest⟩, hparsed, heq⟩ := Option.map_eq_some_iff.1 hvalue
    obtain ⟨rfl, hrest⟩ := Prod.mk.inj heq
    split at hparsed
    case h_8 =>
      obtain ⟨hplain, rfl⟩ := Prod.mk.inj (Option.some.inj hparsed)
      rw [skipBlanks_dropWhile] at hrest
      rw [takeWhile_of_dropWhile_eq_nil hrest] at hplain
      rw [toList_of_plain hplain, Text.trim_idem, trim_skipBlanks]
    case h_3 | h_4 =>
      obtain ⟨r, -, hr⟩ := Option.map_eq_some_iff.1 hparsed
      cases hr
    case h_5 hstart =>
      exact absurd rfl (hquote _ (head?_trim_of_skipBlanks hstart (by decide))).1
    case h_6 hstart | h_7 hstart =>
      exact absurd rfl (hquote _ (head?_trim_of_skipBlanks hstart (by decide))).2
    all_goals cases hparsed
  · obtain rfl := Node.text.inj h
    rfl

theorem not_isDigit_of_isAlpha (h : c.isAlpha = true) : c.isDigit = false := by
  rw [← Bool.not_eq_true]
  intro hdigit
  delta Char.isAlpha Char.isUpper Char.isLower at h
  delta Char.isDigit at hdigit
  simp only [Bool.or_eq_true, Bool.and_eq_true, decide_eq_true_eq, ge_iff_le,
    UInt32.le_iff_toNat_le] at h hdigit
  change (65 ≤ c.toNat ∧ c.toNat ≤ 90) ∨ (97 ≤ c.toNat ∧ c.toNat ≤ 122) at h
  change 48 ≤ c.toNat ∧ c.toNat ≤ 57 at hdigit
  omega

theorem unsigned_of_isAlpha (hc : c.isAlpha = true) (cs : List Char) :
    unsigned (c :: cs) = c :: cs := by
  unfold unsigned
  split
  · next heq =>
    obtain ⟨rfl, -⟩ := List.cons.inj heq
    exact absurd hc (by decide)
  · next heq =>
    obtain ⟨rfl, -⟩ := List.cons.inj heq
    exact absurd hc (by decide)
  · rfl

theorem plain_of_isAlpha (htrim : Text.trim cs = c :: as) (hc : c.isAlpha = true) :
    plain cs = .text (String.ofList (Text.trim cs)) := by
  have hdigit := not_isDigit_of_isAlpha hc
  have hpoint : (c == '.') = false := by
    rw [beq_eq_false_iff_ne]
    rintro rfl
    exact absurd hc (by decide)
  have hdecimal : isDecimal (c :: as) = false := by
    rw [isDecimal, unsigned_of_isAlpha hc, List.takeWhile_cons_of_neg (by simp [hdigit, hpoint])]
    rfl
  have hinteger : integer? (c :: as) = none := by
    rw [integer?, unsigned_of_isAlpha hc]
    simp [isDigits, hdigit]
  rw [plain, htrim, if_neg (by simp [hdecimal]), hinteger]

theorem not_isSeparator_of_blank_or_isAlphanum (h : Text.isBlank c = true ∨ c.isAlphanum = true) :
    isSeparator c = false := by
  rw [← Bool.not_eq_true]
  intro hc
  simp only [isSeparator, Bool.or_eq_true, beq_iff_eq] at hc
  rcases hc with (((rfl | rfl) | rfl) | rfl) | rfl <;> exact absurd h (by decide)

theorem ofText_of_word (hchars : ∀ c ∈ text.toList, Text.isBlank c = true ∨ c.isAlphanum = true)
    (htrim : Text.trim text.toList = c :: cs) (hc : c.isAlpha = true ∧ c ≠ 't' ∧ c ≠ 'f') :
    ofText text = .text (String.ofList (Text.trim text.toList)) := by
  have hfirst : ∀ d rest, skipBlanks text.toList = d :: rest → Text.isBlank d = false → d = c := by
    intro d rest hskip hd
    have hhead := head?_trim_of_skipBlanks hskip hd
    rw [htrim] at hhead
    exact (Option.some.inj hhead).symm
  have hvalue (fuel : Nat) :
      value? (fuel + 1) text.toList = some (.text (String.ofList (Text.trim text.toList)), []) := by
    rw [value?]
    split
    case h_1 hskip => exact absurd (hfirst _ _ hskip (by decide)).symm hc.2.1
    case h_2 hskip => exact absurd (hfirst _ _ hskip (by decide)).symm hc.2.2
    case h_8 =>
      have hdrop : (skipBlanks text.toList).dropWhile (!isSeparator ·) = [] := by
        rw [List.dropWhile_eq_nil_iff]
        intro d hd
        rw [not_isSeparator_of_blank_or_isAlphanum (hchars d ((List.dropWhile_suffix _).mem hd))]
        rfl
      rw [Option.map_some, hdrop, takeWhile_of_dropWhile_eq_nil hdrop,
        plain_of_isAlpha ((trim_skipBlanks _).trans htrim) hc.1, trim_skipBlanks]
      rfl
    all_goals
      next hskip =>
        rw [← hfirst _ _ hskip (by decide)] at hc
        exact absurd hc.1 (by decide)
  unfold ofText
  rw [hvalue]

/-! ### No text is null -/

theorem plain_ne_null (cs : List Char) : plain cs ≠ .null := by
  unfold plain
  dsimp only
  split
  · nofun
  · split <;> nofun

theorem value?_ne_null {fuel : Nat} {node : Node} {rest : List Char}
    (h : value? fuel cs = some (node, rest)) :
    node ≠ .null := by
  cases fuel with
  | zero => cases h
  | succ fuel =>
    rw [value?] at h
    obtain ⟨⟨node', rest'⟩, hparsed, heq⟩ := Option.map_eq_some_iff.1 h
    obtain ⟨rfl, -⟩ := Prod.mk.inj heq
    split at hparsed
    case h_8 =>
      obtain ⟨rfl, -⟩ := Prod.mk.inj (Option.some.inj hparsed)
      exact plain_ne_null _
    case h_3 | h_4 | h_5 =>
      obtain ⟨r, -, hr⟩ := Option.map_eq_some_iff.1 hparsed
      cases hr
      nofun
    case h_7 => cases hparsed
    all_goals
      cases hparsed
      nofun

theorem ofText_ne_null (text : String) : ofText text ≠ .null := by
  unfold ofText
  split
  · next hvalue => exact value?_ne_null hvalue
  · nofun

end QueryMapping.Settings
