import QueryMapping.Proofs.Sql.Scan

/-! What stands around a lexeme matters little: before it, only whether a dollar sign may open a
tag, and after it, only the text up to the first character that no lexeme looks ahead for. -/

namespace QueryMapping.Sql

open Lexeme

def joins (c : Char) : Bool :=
  Text.isNameChar c || isQuote c || c == '-' || c == '*' || c == '$' || c == ':'

inductive Alike : List Char → List Char → Prop
  | stop {text text' : List Char} (h : ∀ c ∈ text'.head?, joins c = false) : Alike text text'
  | cons {c : Char} {text text' : List Char} (h : Alike text text') : Alike (c :: text) (c :: text')

namespace Alike

variable {text text' : List Char}

theorem append_left (cs : List Char) (h : Alike text text') : Alike (cs ++ text) (cs ++ text') := by
  induction cs with
  | nil => exact h
  | cons c cs ih => exact .cons ih

theorem nil (text : List Char) : Alike text [] := .stop (by simp)

theorem refl (text : List Char) : Alike text text := by
  simpa using (nil []).append_left text

theorem of_isPrefix (h : text' <+: text) : Alike text text' := by
  obtain ⟨cs, rfl⟩ := h
  simpa using (nil cs).append_left text'

theorem head (h : Alike text text') : ∀ c ∈ text'.head?, joins c = false ∨ text.head? = some c := by
  cases h with
  | stop h => exact fun c hc => .inl (h c hc)
  | cons h => exact fun c hc => .inr hc

theorem head_of_joins (h : Alike text text') {c : Char} (hc : joins c = true)
    (hhead : text'.head? = some c) : text.head? = some c := by
  rcases h.head c hhead with h | h
  · rw [hc] at h
    cases h
  · exact h

theorem not_joins_head (h : Alike text text') (hnew : ∀ c ∈ text.head?, joins c = false) :
    ∀ c ∈ text'.head?, joins c = false := by
  intro c hc
  rcases h.head c hc with h | h
  · exact h
  · exact hnew c h

theorem exists_tag (h : Alike text text') {tag after : List Char}
    (htag : ∀ c ∈ tag, Text.isNameChar c = true) (htext : text' = tag ++ '$' :: after) :
    ∃ after', text = tag ++ '$' :: after' := by
  induction h generalizing tag with
  | @stop text text' h =>
    subst htext
    cases tag with
    | nil => exact absurd (h '$' rfl) (by decide)
    | cons c tag =>
      have hc := h c rfl
      simp [joins, htag c] at hc
  | @cons c text text' h ih =>
    cases tag with
    | nil =>
      obtain ⟨rfl, rfl⟩ := List.cons.inj htext
      exact ⟨text, rfl⟩
    | cons d tag =>
      obtain ⟨rfl, rfl⟩ := List.cons.inj htext
      obtain ⟨after', rfl⟩ := ih (fun c hc => htag c (List.mem_cons_of_mem _ hc)) rfl
      exact ⟨after', rfl⟩

end Alike

namespace Lexeme

def isOpen : Lexeme → Bool
  | .quoted _ _ closed | .dollarQuoted _ _ closed | .blockComment _ closed => !closed
  | _ => false

def isComment : Lexeme → Bool
  | .lineComment _ | .blockComment _ _ => true
  | _ => false

theorem joins_of_isQuote {c : Char} (h : isQuote c = true) : joins c = true := by simp [joins, h]

theorem joins_of_isNameChar {c : Char} (h : Text.isNameChar c = true) : joins c = true := by
  simp [joins, h]

variable {before before' : Option Char} {l : Lexeme} {rest rest' : List Char}

theorem IsPlain.congr {c : Char} (h : IsPlain before c rest)
    (hbefore : c = '$' → (MayOpenTag before ↔ MayOpenTag before')) (halike : Alike rest rest') :
    IsPlain before' c rest' where
  quote := h.quote
  semicolon := h.semicolon
  dash hc hhead := h.dash hc (halike.head_of_joins rfl hhead)
  slash hc hhead := h.slash hc (halike.head_of_joins rfl hhead)
  dollar hc hopen tag after htag hrest := by
    obtain ⟨after', hafter⟩ := halike.exists_tag htag.isNameChar hrest
    exact h.dollar hc ((hbefore hc).2 hopen) tag after' htag hafter
  colon hc d hd := by
    rcases halike.head d hd with hjoins | hhead
    · refine ⟨?_, ?_⟩
      · rintro rfl
        cases hjoins
      · rw [← Bool.not_eq_true]
        intro hstart
        rw [joins_of_isNameChar (Text.isNameChar_of_isNameStart hstart)] at hjoins
        cases hjoins
    · exact h.colon hc d hhead

theorem Fits.congr (h : Fits before l rest) (hcomment : l.isComment = false)
    (hopen : l.isOpen = true → rest' = [])
    (hbefore : l.chars.head? = some '$' → (MayOpenTag before ↔ MayOpenTag before'))
    (halike : Alike rest rest') : Fits before' l rest' := by
  cases h with
  | quoted hquote hbody hrest =>
    exact .quoted hquote hbody fun hhead =>
      hrest (halike.head_of_joins (joins_of_isQuote hquote) hhead)
  | openQuoted hquote hbody =>
    obtain rfl := hopen rfl
    exact .openQuoted hquote hbody
  | dollarQuoted htag hname hbody => exact .dollarQuoted ((hbefore rfl).1 htag) hname hbody
  | openDollarQuoted htag hname hbody =>
    obtain rfl := hopen rfl
    exact .openDollarQuoted ((hbefore rfl).1 htag) hname hbody
  | lineComment | blockComment | openBlockComment => cases hcomment
  | cast => exact .cast
  | parameter hhead hname hrest =>
    refine .parameter hhead hname fun c hc => ?_
    rw [← Bool.not_eq_true]
    intro hc'
    have hhead := halike.head_of_joins (joins_of_isNameChar hc') hc
    rw [hrest c hhead] at hc'
    cases hc'
  | semicolon => exact .semicolon
  | char hplain =>
    refine .char (hplain.congr (fun hc => hbefore ?_) halike)
    rw [hc]
    rfl

theorem Fits.rest_eq_nil (h : Fits before l rest) (hopen : l.isOpen = true) : rest = [] := by
  cases h with
  | openQuoted | openDollarQuoted | openBlockComment => rfl
  | _ => cases hopen

end Lexeme

/-- The lexemes `ls` are read one after another, after the character `before` and in front of the
text `after`. -/
def Reads (after : List Char) : Option Char → List Lexeme → Prop
  | _, [] => True
  | before, l :: ls =>
    l.Fits before (ls.flatMap chars ++ after) ∧ Reads after l.chars.getLast? ls

theorem lexed_iff_reads {before : Option Char} {text : List Char} {ls : List Lexeme} :
    Lexed before text ls ↔ Reads [] before ls ∧ ls.flatMap chars = text := by
  constructor
  · intro h
    refine ⟨?_, h.chars_eq⟩
    induction h with
    | nil => trivial
    | cons hl hls ih =>
      refine ⟨?_, ih⟩
      rwa [List.append_nil, hls.chars_eq]
  · rintro ⟨h, rfl⟩
    induction ls generalizing before with
    | nil => exact .nil
    | cons l ls ih =>
      obtain ⟨hl, hls⟩ := h
      rw [List.append_nil] at hl
      exact .cons hl (ih hls)

theorem Reads.scanFrom_eq {before : Option Char} {ls : List Lexeme} (h : Reads [] before ls) :
    scanFrom before (ls.flatMap chars) = ls := (lexed_iff_reads.2 ⟨h, rfl⟩).scanFrom_eq

theorem reads_scan (text : List Char) : Reads [] none (scan text) :=
  (lexed_iff_reads.1 (lexed_scan text)).1

theorem Reads.closed {before : Option Char} {after : List Char} {ls : List Lexeme}
    (h : Reads after before ls) (hafter : after ≠ []) : ∀ l ∈ ls, l.isOpen = false := by
  induction ls generalizing before with
  | nil => exact List.forall_mem_nil _
  | cons l ls ih =>
    refine List.forall_mem_cons.2 ⟨?_, ih h.2⟩
    rw [← Bool.not_eq_true]
    intro hopen
    exact hafter (List.append_eq_nil_iff.1 (h.1.rest_eq_nil hopen)).2

theorem reads_append_semicolon {after : List Char} {before : Option Char} {piece ls : List Lexeme} :
    Reads after before (piece ++ .semicolon :: ls) ↔
      Reads (';' :: (ls.flatMap chars ++ after)) before piece ∧ Reads after (some ';') ls := by
  induction piece generalizing before with
  | nil => exact ⟨fun h => ⟨trivial, h.2⟩, fun h => ⟨.semicolon, h.2⟩⟩
  | cons l piece ih =>
    rw [List.cons_append, Reads, Reads, ih, and_assoc]
    simp [chars]

theorem head?_flatMap_chars (l : Lexeme) (ls : List Lexeme) :
    ((l :: ls).flatMap chars).head? = l.chars.head? := by
  rw [List.flatMap_cons, List.head?_append, List.head?_eq_some_head l.chars_ne_nil, Option.some_or]

theorem eq_nil_of_flatMap_chars {ls : List Lexeme} (h : ls.flatMap chars = []) : ls = [] := by
  cases ls with
  | nil => rfl
  | cons l ls =>
    rw [List.flatMap_cons, List.append_eq_nil_iff] at h
    exact absurd h.1 l.chars_ne_nil

theorem mayOpenTag_none : MayOpenTag none := by simp [MayOpenTag]

theorem mayOpenTag_some {c : Char} : MayOpenTag (some c) ↔ Text.isNameChar c = false ∧ c ≠ '$' := by
  simp [MayOpenTag]

theorem Reads.congr {before before' : Option Char} {after after' : List Char} {ls : List Lexeme}
    (h : Reads after before ls) (hcomment : ∀ l ∈ ls, l.isComment = false)
    (hopen : after' ≠ [] → ∀ l ∈ ls, l.isOpen = false)
    (hbefore : (ls.flatMap chars).head? = some '$' → (MayOpenTag before ↔ MayOpenTag before'))
    (halike : Alike after after') : Reads after' before' ls := by
  induction ls generalizing before before' with
  | nil => trivial
  | cons l ls ih =>
    obtain ⟨hl, hls⟩ := h
    obtain ⟨hlcomment, hlscomment⟩ := List.forall_mem_cons.1 hcomment
    refine ⟨hl.congr hlcomment (fun hlopen => ?_) ?_ (halike.append_left _), ?_⟩
    · -- An open lexeme is the last one, and nothing comes after it in the other text either.
      by_cases hafter : after' = []
      · rw [(List.append_eq_nil_iff.1 (hl.rest_eq_nil hlopen)).1, hafter]
        rfl
      · rw [hopen hafter l List.mem_cons_self] at hlopen
        cases hlopen
    · rwa [head?_flatMap_chars] at hbefore
    · exact ih hls hlscomment (fun hafter => (List.forall_mem_cons.1 (hopen hafter)).2)
        fun _ => Iff.rfl

end QueryMapping.Sql
