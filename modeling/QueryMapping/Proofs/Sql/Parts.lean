import QueryMapping.Proofs.Sql.Skip
import QueryMapping.Sql.Parameter

/-! The parts of a statement are those that its lexemes give. -/

namespace QueryMapping.Sql

open Text (At byte bytes encode)
open Lexeme

variable {text : String} {i : Nat} {before after : List Char} {c : Char}

def Lexeme.parameterStep (stop : Nat) : Lexeme → ParameterStep
  | .parameter _ => .parameter stop
  | _ => .skip stop

theorem exists_parameterStep_colon (h : At text i before (':' :: after))
    (hi : i < (bytes text).size) :
    ∃ j, Sql.parameterStep (bytes text) i hi = .ok ((colon after).1.parameterStep j) ∧
      Ends text before ':' after j := by
  have hb : (bytes text)[i] = byte ':' :=
    (Array.getElem?_eq_some_iff.1 (h.getElem?_of_lt (by decide))).2
  have hnext := h.next_ascii (by decide)
  have hstart := hnext.any_getElem? (p := Text.isNameStartByte) fun c b hb =>
    Text.isNameStartByte_of_mem hb
  have hcolon := hnext.getElem?_eq_some_byte (d := ':') (by decide)
  unfold Sql.parameterStep
  simp only [hb, hcolon, hstart]
  rw [if_neg (by decide), if_neg fun h => absurd h.1 (by decide),
    if_neg fun h => absurd h.1 (by decide), if_neg (by decide)]
  cases after with
  | nil => exact ⟨i + 1, rfl, hnext⟩
  | cons d after =>
    by_cases hd : d = ':'
    · subst hd
      refine ⟨i + 2, rfl, ?_⟩
      simpa [Ends, first_colon, colon, chars] using hnext.next_ascii (by decide)
    rw [if_neg (by simpa using hd)]
    cases hname : Text.isNameStart d with
    | true =>
      obtain ⟨j, hj, hend⟩ := findByte_name hnext
      refine ⟨j, ?_, ?_⟩
      · rw [if_pos ⟨trivial, by simpa using hname⟩, hj, colon_name hname]
        rfl
      · rw [Ends, first_colon, colon_name hname]
        simpa [chars] using hend
    | false =>
      refine ⟨i + 1, ?_, ?_⟩
      · rw [if_neg (by simp [hname]), colon_other hd hname]
        rfl
      · rw [Ends, first_colon, colon_other hd hname]
        exact hnext

theorem exists_parameterStep (hc : c.toNat < 128) (h : At text i before (c :: after))
    (hi : i < (bytes text).size) :
    ∃ j, Sql.parameterStep (bytes text) i hi =
        .ok ((first before.getLast? c after).1.parameterStep j) ∧ Ends text before c after j := by
  by_cases hcolon : c = ':'
  · subst hcolon
    exact exists_parameterStep_colon h hi
  have hb : (bytes text)[i] = byte c := (Array.getElem?_eq_some_iff.1 (h.getElem?_of_lt hc)).2
  have hnext := h.next_ascii hc
  have hdash := hnext.getElem?_eq_some_byte (d := '-') (by decide)
  have hstar := hnext.getElem?_eq_some_byte (d := '*') (by decide)
  unfold Sql.parameterStep
  simp only [hb, isQuoteByte_byte hc, Text.byte_inj hc (d := '-') (by decide),
    Text.byte_inj hc (d := '/') (by decide), Text.byte_inj hc (d := '$') (by decide),
    Text.byte_inj hc (d := ':') (by decide), hdash, hstar]
  cases opening c after with
  | quote hquote =>
    obtain ⟨j, hj, hend⟩ := pastQuoted_ends hquote h
    refine ⟨j, ?_, hend⟩
    rw [if_pos hquote, hj, first_quote hquote]
    rfl
  | dashes =>
    obtain ⟨j, hj, hend⟩ := pastLineComment_ends h
    exact ⟨j, by rw [hj]; rfl, hend⟩
  | slashStar =>
    obtain ⟨j, hj, hend⟩ := pastBlockComment_ends h
    exact ⟨j, by rw [hj]; rfl, hend⟩
  | dollar =>
    obtain ⟨found, hj, hend⟩ := pastDollarBody_ends h
    refine ⟨found.getD (i + 1), ?_, hend⟩
    rw [hj, first_dollar, dollar]
    cases tag? before.getLast? after <;> rfl
  | colon => exact absurd rfl hcolon
  | semicolon => exact ⟨i + 1, rfl, hnext⟩
  | other hquote hdashes hslashStar hdollar hcolon hsemicolon =>
    refine ⟨i + 1, ?_, ?_⟩
    · rw [if_neg (by simp [hquote]), if_neg hdashes, if_neg hslashStar, if_neg hdollar,
        if_neg fun h => hcolon h.1, if_neg fun h => hcolon h.1,
        first_other hquote hdashes hslashStar hdollar hcolon hsemicolon]
      rfl
    · rw [Ends, first_other hquote hdashes hslashStar hdollar hcolon hsemicolon]
      exact hnext

theorem parameterStep_of_le {bytes : Array UInt8} {b : UInt8} (hb : bytes[i]? = some b)
    (hle : 128 ≤ b.toNat) (hi : i < bytes.size) :
    Sql.parameterStep bytes i hi = .ok (.skip (i + 1)) := by
  have hne : ∀ d : Char, d.toNat < 128 → b ≠ byte d := by
    rintro d hd rfl
    rw [Text.toNat_byte hd] at hle
    exact Nat.not_lt.2 hle hd
  have hb : bytes[i] = b := (Array.getElem?_eq_some_iff.1 hb).2
  simp [Sql.parameterStep, isQuoteByte, hb, hne]

theorem partsFrom_of_skip {sql : String} {bytes : Array UInt8} {start next : Nat}
    (hi : i < bytes.size) (hstep : Sql.parameterStep bytes i hi = .ok (.skip next)) :
    partsFrom sql bytes start i = partsFrom sql bytes start next := by
  rw [partsFrom, dif_pos hi]
  split <;> simp_all

theorem partsFrom_of_parameter {sql : String} {bytes : Array UInt8} {start stop : Nat}
    (hi : i < bytes.size) (hstep : Sql.parameterStep bytes i hi = .ok (.parameter stop)) :
    partsFrom sql bytes start i = do
      let text ← textPart sql start i
      let name ← Text.cut sql (i + 1) stop
      let rest ← partsFrom sql bytes stop stop
      return text ++ .parameter name :: rest := by
  rw [partsFrom, dif_pos hi]
  split <;> simp_all

variable {l : Lexeme} {rest : List Char}

theorem parameterStep_eq (hl : l.Fits before.getLast? rest) (h : At text i before (l.chars ++ rest))
    (hc : ∀ c ∈ l.chars.head?, c.toNat < 128) (hi : i < (bytes text).size) :
    Sql.parameterStep (bytes text) i hi =
      .ok (l.parameterStep (i + (encode l.chars).length)) := by
  obtain ⟨c, cs, hcs⟩ := List.exists_cons_of_ne_nil l.chars_ne_nil
  have happ : l.chars ++ rest = c :: (cs ++ rest) := by rw [hcs, List.cons_append]
  have hlt : c.toNat < 128 := hc c (by rw [hcs]; rfl)
  obtain ⟨j, hj, hend⟩ := exists_parameterStep hlt (happ ▸ h) hi
  rw [hj, hl.first_eq happ, hend.position_eq hl happ h]

theorem partsFrom_skip (hl : l.Fits before.getLast? rest) (hne : ∀ name, l ≠ .parameter name)
    (h : At text i before (l.chars ++ rest)) (start : Nat) :
    partsFrom text (bytes text) start i =
      partsFrom text (bytes text) start (i + (encode l.chars).length) := by
  obtain ⟨c, cs, hcs⟩ := List.exists_cons_of_ne_nil l.chars_ne_nil
  by_cases hc : c.toNat < 128
  · have hhead : ∀ d ∈ l.chars.head?, d.toNat < 128 := by simpa [hcs] using hc
    rw [hcs, List.cons_append] at h
    have hi := (Array.getElem?_eq_some_iff.1 (h.getElem?_of_lt hc)).1
    rw [← List.cons_append, ← hcs] at h
    refine partsFrom_of_skip hi ((parameterStep_eq hl h hhead hi).trans ?_)
    cases l with
    | parameter name => exact absurd rfl (hne name)
    | _ => rfl
  · have hc := Nat.not_lt.1 hc
    have happ : l.chars ++ rest = c :: (cs ++ rest) := by rw [hcs, List.cons_append]
    have hfirst := hl.first_eq happ
    rw [first_of_le hc] at hfirst
    obtain ⟨rfl, -⟩ := Prod.mk.inj hfirst
    refine h.across (fun j b hb hle => partsFrom_of_skip (Array.getElem?_eq_some_iff.1 hb).1
      (parameterStep_of_le hb hle _)) fun b hb => ?_
    exact Text.le_of_mem_utf8EncodeChar hc (by simpa [chars] using hb)

def textPartOf (cs : List Char) : List Part := if cs.isEmpty then [] else [.text (String.ofList cs)]

/-- The parts that lexemes give, after text that belongs to the next part. -/
def partsOf (pending : List Char) : List Lexeme → List Part
  | [] => textPartOf pending
  | .parameter name :: ls => textPartOf pending ++ .parameter (String.ofList name) :: partsOf [] ls
  | l :: ls => partsOf (pending ++ l.chars) ls

theorem textPart_at {between : List Char} (h : At text i before (between ++ after)) :
    textPart text i (i + (encode between).length) = .ok (textPartOf between) := by
  cases between with
  | nil =>
    rw [textPart, if_neg (by simp)]
    rfl
  | cons c between =>
    have hlt : i < i + (encode (c :: between)).length := by
      have := List.length_pos_iff.2 (String.utf8EncodeChar_ne_nil (c := c))
      rw [Text.encode_cons, List.length_append]
      omega
    rw [textPart, if_pos hlt, h.cut]
    rfl

theorem partsFrom_eq {sql : String} {start i : Nat} {before pending after : List Char}
    {ls : List Lexeme} (hls : Lexed (before ++ pending).getLast? after ls)
    (hstart : At sql start before (pending ++ after)) (hi : At sql i (before ++ pending) after) :
    partsFrom sql (bytes sql) start i = .ok (partsOf pending ls) := by
  -- `pending` is the text from `start` to `i`.
  generalize hprev : (before ++ pending).getLast? = prev at hls
  induction hls generalizing start i before pending with
  | nil =>
    have hpos := hstart.advance.position_unique hi
    rw [partsFrom, dif_neg hi.not_lt_of_nil, ← hi.position_of_nil, ← hpos,
      textPart_at hstart, partsOf]
  | @cons prev l rest ls hl hls ih =>
    subst hprev
    by_cases hname : ∃ name, l = .parameter name
    · obtain ⟨name, rfl⟩ := hname
      have hcolon : At sql i (before ++ pending) (':' :: (name ++ rest)) := hi
      have hlt := (Array.getElem?_eq_some_iff.1 (hcolon.getElem?_of_lt (by decide))).1
      have hpos := hstart.advance.position_unique hi
      have hstop : i + (encode (parameter name).chars).length = i + 1 + (encode name).length := by
        rw [chars, Text.encode_cons, List.length_append, ← Nat.add_assoc]
        rfl
      rw [partsFrom_of_parameter hlt (parameterStep_eq hl hi (by simp [chars]) hlt), hstop,
        (hcolon.next_ascii (by decide)).cut, ← hpos, textPart_at hstart, hpos, ← hstop,
        @ih _ _ (before ++ pending ++ (parameter name).chars) []]
      · rfl
      · exact hi.advance
      · simpa using hi.advance
      · rw [List.append_nil, getLast?_append_chars]
    · rw [partsFrom_skip hl (fun name heq => hname ⟨name, heq⟩) hi, partsOf]
      · refine @ih start _ before (pending ++ l.chars) ?_ ?_ ?_
        · rwa [List.append_assoc]
        · rw [← List.append_assoc]
          exact hi.advance
        · rw [← List.append_assoc, getLast?_append_chars]
      · exact fun name heq => hname ⟨name, heq⟩

theorem scanParts_eq (sql : String) : scanParts sql = .ok (partsOf [] (scan sql.toList)) :=
  @partsFrom_eq sql 0 0 [] [] sql.toList _ (lexed_scan sql.toList) (At.start sql)
    (At.start sql)

end QueryMapping.Sql
