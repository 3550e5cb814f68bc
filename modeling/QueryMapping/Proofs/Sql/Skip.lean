import QueryMapping.Proofs.Sql.Scan
import QueryMapping.Proofs.Text.Utf8
import QueryMapping.Sql.Skip

/-! The readers of bytes stop where the lexemes end. -/

namespace QueryMapping.Sql

open Text (At byte bytes encode)
open Lexeme

theorem toNat_lt_of_isQuote {c : Char} (h : isQuote c = true) : c.toNat < 128 := by
  simp only [isQuote, Bool.or_eq_true, beq_iff_eq] at h
  rcases h with (rfl | rfl) | rfl <;> decide

theorem isQuoteByte_of_mem {c : Char} {b : UInt8} (hb : b ∈ String.utf8EncodeChar c) :
    isQuoteByte b = isQuote c := by
  simp only [isQuoteByte, isQuote, Text.beq_byte_of_mem (d := '\'') (by decide) hb,
    Text.beq_byte_of_mem (d := '"') (by decide) hb,
    Text.beq_byte_of_mem (d := '\x60') (by decide) hb]

theorem isQuoteByte_byte {c : Char} (hc : c.toNat < 128) : isQuoteByte (byte c) = isQuote c :=
  isQuoteByte_of_mem (by rw [Text.utf8EncodeChar_of_lt hc]; exact List.mem_cons_self)

theorem closingQuote_of_ne {bytes : Array UInt8} {quote b : UInt8} {i : Nat}
    (hb : bytes[i]? = some b) (hne : b ≠ quote) :
    closingQuote bytes quote i = closingQuote bytes quote (i + 1) := by
  obtain ⟨hi, rfl⟩ := Array.getElem?_eq_some_iff.1 hb
  rw [closingQuote, dif_pos hi, if_neg hne]

theorem closingQuote_pair {bytes : Array UInt8} {quote : UInt8} {i : Nat}
    (hb : bytes[i]? = some quote) (hd : bytes[i + 1]? = some quote) :
    closingQuote bytes quote i = closingQuote bytes quote (i + 2) := by
  obtain ⟨hi, hb⟩ := Array.getElem?_eq_some_iff.1 hb
  rw [closingQuote, dif_pos hi, if_pos hb, if_pos hd]

theorem closingQuote_close {bytes : Array UInt8} {quote : UInt8} {i : Nat}
    (hb : bytes[i]? = some quote) (hd : bytes[i + 1]? ≠ some quote) :
    closingQuote bytes quote i = i + 1 := by
  obtain ⟨hi, hb⟩ := Array.getElem?_eq_some_iff.1 hb
  rw [closingQuote, dif_pos hi, if_pos hb, if_neg hd]

variable {text : String} {i : Nat} {before after : List Char}

/-- Position `j` of the text is the one after a tail that follows the characters `before`. -/
def Lexeme.Tail.At (t : Tail) (text : String) (j : Nat) (before mark : List Char) : Prop :=
  Text.At text j (before ++ t.body ++ ending t.closed mark) t.rest

theorem Lexeme.Tail.at_push {t : Tail} {j : Nat} {mark : List Char} {c : Char} :
    (t.push c).At text j before mark ↔ t.At text j (before ++ [c]) mark := by
  simp [Tail.At]

theorem closingQuote_at {quote : Char} (hquote : quote.toNat < 128) (h : At text i before after) :
    (quotedTail quote after).At text (closingQuote (bytes text) (byte quote) i) before [quote] := by
  fun_induction quotedTail quote after generalizing i before with
  | case1 =>
    rw [closingQuote, dif_neg h.not_lt_of_nil, ← h.position_of_nil]
    simpa [Tail.At] using h
  | case2 =>
    have hnext := h.next_ascii hquote
    rw [closingQuote_close (h.getElem?_of_lt hquote)
      (mt (hnext.getElem?_eq_some_byte hquote).1 (by simp))]
    simpa [Tail.At] using hnext
  | case3 rest ih =>
    have hnext := h.next_ascii hquote
    rw [closingQuote_pair (h.getElem?_of_lt hquote) (hnext.getElem?_of_lt hquote),
      Tail.at_push, Tail.at_push]
    exact ih (hnext.next_ascii hquote)
  | case4 d rest hd =>
    have hnext := h.next_ascii hquote
    rw [closingQuote_close (h.getElem?_of_lt hquote)
      (mt (hnext.getElem?_eq_some_byte hquote).1 (by simpa using hd))]
    simpa [Tail.At] using hnext
  | case5 c cs hc ih =>
    -- The quote is no byte of a longer encoding, so the reader passes `c` as a whole.
    rw [h.across_char (fun j b => closingQuote_of_ne)
      fun b hb => Text.ne_byte_of_mem_utf8EncodeChar hquote hc hb, Tail.at_push]
    exact ih h.next

theorem searchWord_of_ne_head {w b : UInt8} {ws : List UInt8} {bytes : Array UInt8} {i : Nat}
    (hb : bytes[i]? = some b) (hne : b ≠ w) :
    Text.searchWord (w :: ws).toArray bytes i =
      Text.searchWord (w :: ws).toArray bytes (i + 1) := by
  obtain ⟨hi, rfl⟩ := Array.getElem?_eq_some_iff.1 hb
  refine Text.searchWord_of_ne hi fun heq => hne ?_
  have hhead := congrArg (fun a : Array UInt8 => a[0]?) heq
  simp only [Array.getElem?_extract, Nat.add_zero, hi, getElem?_pos] at hhead
  simpa using (Option.ite_none_right_eq_some.1 hhead).2

theorem searchWord_at {w : Char} {ws : List Char} (hword : ∀ c ∈ w :: ws, c.toNat < 128)
    (h : At text i before after) :
    (upTo (w :: ws) after).At text
      (Text.searchWord ((w :: ws).map byte).toArray (bytes text) i) before (w :: ws) := by
  fun_induction upTo (w :: ws) after generalizing i before with
  | case1 =>
    rw [Text.searchWord, dif_neg h.not_lt_of_nil, ← h.position_of_nil]
    simpa [Tail.At] using h
  | case2 c cs hpre =>
    obtain ⟨b, hb, -⟩ := h.exists_byte
    obtain ⟨rest, hrest⟩ := hpre
    rw [Text.searchWord_of_eq (Array.getElem?_eq_some_iff.1 hb).1
      ((h.extract_eq_word hword).2 ⟨rest, hrest⟩)]
    rw [← hrest] at h
    simpa [Tail.At, Text.encode_of_lt hword, ← hrest] using h.advance
  | case3 c cs hpre ih =>
    rw [Tail.at_push]
    by_cases hcw : c = w
    · subst hcw
      have hc := hword c List.mem_cons_self
      have hb := h.getElem?_of_lt hc
      rw [Text.searchWord_of_ne (Array.getElem?_eq_some_iff.1 hb).1
        (mt (h.extract_eq_word hword).1 hpre)]
      exact ih (h.next_ascii hc)
    · -- The word begins at no byte of `c`.
      rw [List.map_cons, h.across_char (fun j b => searchWord_of_ne_head)
        fun b hb => Text.ne_byte_of_mem_utf8EncodeChar (hword w List.mem_cons_self) hcw hb]
      exact ih h.next

theorem findWord_at {w : Char} {ws : List Char} (hword : ∀ c ∈ w :: ws, c.toNat < 128)
    (h : At text i before after) :
    ∃ j, Text.findWord ((w :: ws).map byte).toArray (bytes text) i = .ok j ∧
      (upTo (w :: ws) after).At text j before (w :: ws) := by
  refine ⟨_, ?_, searchWord_at hword h⟩
  rw [Text.findWord, if_pos h.le_size, if_neg (by simp)]

theorem head?_takeWhile_isNameChar (cs : List Char) :
    (cs.takeWhile Text.isNameChar).head?.any Char.isDigit = cs.head?.any Char.isDigit := by
  cases cs with
  | nil => rfl
  | cons c cs =>
    cases hc : Text.isNameChar c with
    | true => simp [hc]
    | false =>
      have hdigit : c.isDigit = false := by
        rw [← Bool.not_eq_true]
        intro hdigit
        rw [Text.isNameChar_of_isDigit hdigit] at hc
        cases hc
      simp [hc, hdigit]

theorem mayOpenTagAt_eq (h : At text i before ('$' :: after)) :
    mayOpenTagAt (bytes text) i =
      (mayOpenTag before.getLast? &&
        !(after.takeWhile Text.isNameChar).head?.any Char.isDigit) := by
  have hnext := h.next_ascii (by decide)
  have hbefore := h.any_getElem?_pred (p := fun b => Text.isNameByte b || b == byte '$')
    (q := fun c => Text.isNameChar c || c == '$') fun c b hb => by
      rw [Text.isNameByte_of_mem hb, Text.beq_byte_of_mem (by decide) hb]
  have hafter := hnext.any_getElem? (p := Text.isDigitByte) fun c b hb => Text.isDigitByte_of_mem hb
  rw [mayOpenTagAt, mayOpenTag, hbefore, hafter, head?_takeWhile_isNameChar]

theorem toNat_lt_of_mem_delimiter {tag : List Char} (htag : ∀ c ∈ tag, Text.isNameChar c = true) :
    ∀ c ∈ delimiter tag, c.toNat < 128 := by
  intro c hc
  rcases List.mem_cons.1 hc with rfl | hc
  · decide
  · rcases List.mem_append.1 hc with hc | hc
    · exact Text.toNat_lt_of_isNameChar (htag c hc)
    · rw [List.mem_singleton.1 hc]
      decide

theorem findByte_name (h : At text i before after) :
    ∃ stop, Text.findByte (fun b => !Text.isNameByte b) (bytes text) i = .ok stop ∧
      At text stop (before ++ after.takeWhile Text.isNameChar)
        (after.dropWhile Text.isNameChar) := by
  obtain ⟨stop, hstop, hat⟩ := h.findByte (p := fun b => !Text.isNameByte b)
    (q := fun c => !Text.isNameChar c) fun c b hb => by rw [Text.isNameByte_of_mem hb]
  simp only [Bool.not_not] at hat
  exact ⟨stop, hstop, hat⟩

theorem pastDollarBody_of_none (h : At text i before ('$' :: after))
    (htag : tag? before.getLast? after = none) : pastDollarBody (bytes text) i = .ok none := by
  unfold pastDollarBody
  rw [mayOpenTagAt_eq h]
  split
  · next hopen =>
    obtain ⟨close, hclose, hat⟩ := findByte_name (h.next_ascii (by decide))
    have hsign : (bytes text)[close]? ≠ some (byte '$') := by
      rw [Ne, hat.getElem?_eq_some_byte (by decide)]
      intro hsign
      simp [tag?, hopen, hsign] at htag
    rw [hclose]
    exact if_neg hsign
  · rfl

theorem pastDollarBody_of_isTag {tag : List Char} (hbefore : MayOpenTag before.getLast?)
    (htag : IsTag tag) (h : At text i before ('$' :: (tag ++ '$' :: after))) :
    ∃ j, pastDollarBody (bytes text) i = .ok (some j) ∧
      (upTo (delimiter tag) after).At text j (before ++ delimiter tag) (delimiter tag) := by
  have hsign : ∀ c ∈ ('$' :: after).head?, Text.isNameChar c = false := by
    simp [isNameChar_dollar]
  obtain ⟨close, hclose, hat⟩ := findByte_name (h.next_ascii (by decide))
  rw [takeWhile_append htag.isNameChar hsign, dropWhile_append htag.isNameChar hsign] at hat
  have hopen : mayOpenTagAt (bytes text) i = true := by
    simp [mayOpenTagAt_eq h, takeWhile_append htag.isNameChar hsign, mayOpenTag_iff.2 hbefore,
      (isTag_iff htag.isNameChar).1 htag]
  have hdelimiter := toNat_lt_of_mem_delimiter htag.isNameChar
  have hbody : At text (close + 1) (before ++ delimiter tag) after := by
    simpa [delimiter] using hat.next_ascii (by decide)
  have hstop : close + 1 = i + ((delimiter tag).map byte).toArray.size := by
    rw [hbody.position_eq, h.position_eq, Text.encode_append, List.length_append,
      Text.encode_of_lt hdelimiter, List.size_toArray]
  have hslice : Text.slice (bytes text) i (close + 1) = .ok ((delimiter tag).map byte).toArray := by
    rw [Text.slice, if_pos ⟨hstop ▸ Nat.le_add_right _ _, hbody.le_size⟩, hstop,
      (h.extract_eq_word hdelimiter).2 ⟨after, delimiter_append tag after⟩]
  obtain ⟨j, hj, hend⟩ := findWord_at hdelimiter hbody
  refine ⟨j, ?_, hend⟩
  unfold pastDollarBody
  rw [if_pos hopen, hclose]
  change (if (bytes text)[close]? = some (byte '$') then _ else _) = _
  rw [if_pos (hat.getElem?_of_lt (by decide)), hslice]
  change (Text.findWord _ _ _ >>= _) = _
  rw [show Text.findWord ((delimiter tag).map byte).toArray (bytes text) (close + 1) =
    .ok j from hj]
  rfl

def Ends (text : String) (before : List Char) (c : Char) (cs : List Char) (j : Nat) : Prop :=
  At text j (before ++ (first before.getLast? c cs).1.chars) (first before.getLast? c cs).2

theorem Ends.position_eq {l : Lexeme} {rest : List Char} {c : Char} {cs : List Char} {j : Nat}
    (hend : Ends text before c cs j) (hl : l.Fits before.getLast? rest)
    (hcs : l.chars ++ rest = c :: cs) (h : At text i before (l.chars ++ rest)) :
    i + (encode l.chars).length = j := by
  rw [Ends, hl.first_eq hcs] at hend
  exact h.advance.position_unique hend

theorem pastQuoted_ends {quote : Char} (hquote : isQuote quote = true)
    (h : At text i before (quote :: after)) :
    ∃ j, pastQuoted (bytes text) i = .ok j ∧ Ends text before quote after j := by
  have hlt := toNat_lt_of_isQuote hquote
  have hend := closingQuote_at hlt (h.next_ascii hlt)
  refine ⟨closingQuote (bytes text) (byte quote) (i + 1), ?_, ?_⟩
  · rw [pastQuoted, Text.readByte, h.getElem?_of_lt hlt]
    rfl
  · rw [Ends, first, if_pos hquote]
    simpa [Tail.At, chars] using hend

theorem pastLineComment_ends (h : At text i before ('-' :: '-' :: after)) :
    ∃ j, pastLineComment (bytes text) i = .ok j ∧ Ends text before '-' ('-' :: after) j := by
  obtain ⟨j, hj, hend⟩ := h.findByte (p := (· == byte '\n')) (q := (· == '\n')) fun c b hb =>
    Text.beq_byte_of_mem (by decide) hb
  refine ⟨j, hj, ?_⟩
  have hne : (fun c => !c == '\n') = fun c : Char => decide (c ≠ '\n') := by
    funext c
    by_cases hc : c = '\n' <;> simp [hc]
  rw [hne] at hend
  rw [Ends, first_dashes]
  simpa [chars] using hend

theorem pastBlockComment_ends (h : At text i before ('/' :: '*' :: after)) :
    ∃ j, pastBlockComment (bytes text) i = .ok j ∧ Ends text before '/' ('*' :: after) j := by
  have hbody := (h.next_ascii (by decide)).next_ascii (by decide)
  obtain ⟨j, hj, hend⟩ := @findWord_at _ _ _ _ '*' ['/'] (by simp) hbody
  refine ⟨j, hj, ?_⟩
  rw [Ends, first_slashStar]
  simpa [Tail.At, chars] using hend

theorem pastDollarBody_ends (h : At text i before ('$' :: after)) :
    ∃ found, pastDollarBody (bytes text) i = .ok found ∧
      Ends text before '$' after (found.getD (i + 1)) := by
  cases htag : tag? before.getLast? after with
  | none =>
    refine ⟨none, pastDollarBody_of_none h htag, ?_⟩
    rw [Ends, first_dollar, dollar, htag]
    exact h.next_ascii (by decide)
  | some tag =>
    obtain ⟨hbefore, hname, rest, rfl⟩ := tag?_eq_some_iff.1 htag
    obtain ⟨j, hj, hend⟩ := pastDollarBody_of_isTag hbefore hname h
    refine ⟨some j, hj, ?_⟩
    rw [Ends, first_dollar, dollar_of_isTag hbefore hname]
    simpa [Tail.At, chars] using hend

end QueryMapping.Sql
