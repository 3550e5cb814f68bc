import QueryMapping.Proofs.Sql.Context
import QueryMapping.Proofs.Sql.Piece
import QueryMapping.Proofs.Text.Blank

/-! A statement is read as the piece of the script that it was made of: neither the comments that
are left out nor the cuts and the trimming make or break a lexeme. -/

namespace QueryMapping.Sql

open Lexeme

namespace Lexeme

def survives : Lexeme → Bool
  | .quoted _ _ closed | .dollarQuoted _ _ closed => closed
  | .cast | .parameter _ => true
  | _ => false

def clean : Lexeme → List Lexeme
  | .lineComment _ => []
  | .blockComment _ _ => [.char ' ']
  | l => [l]

theorem flatMap_clean (l : Lexeme) : l.clean.flatMap chars = l.written := by
  cases l <;> simp [clean, written, chars]

def IsInner (l : Lexeme) : Prop := l.isComment = false ∧ l ≠ .semicolon

end Lexeme

/-- A statement has the lexemes `kept` where its script has the lexemes `ls`. -/
structure Keeps (ls kept : List Lexeme) : Prop where
  survivors : kept.filter survives = ls.filter survives
  inner : ∀ l ∈ kept, l.IsInner
  closed : (∀ l ∈ ls, l.isOpen = false) → ∀ l ∈ kept, l.isOpen = false

theorem Keeps.trans {ls kept kept' : List Lexeme} (h : Keeps ls kept) (h' : Keeps kept kept') :
    Keeps ls kept' :=
  ⟨h'.survivors.trans h.survivors, h'.inner, fun hls => h'.closed (h.closed hls)⟩

variable {before before' : Option Char} {after : List Char} {ls : List Lexeme} {l : Lexeme}

theorem Keeps.append {as as' bs bs' : List Lexeme} (ha : Keeps as as') (hb : Keeps bs bs') :
    Keeps (as ++ bs) (as' ++ bs') := by
  refine ⟨?_, ?_, fun hclosed => ?_⟩
  · rw [List.filter_append, List.filter_append, ha.survivors, hb.survivors]
  · exact List.forall_mem_append.2 ⟨ha.inner, hb.inner⟩
  · obtain ⟨has, hbs⟩ := List.forall_mem_append.1 hclosed
    exact List.forall_mem_append.2 ⟨ha.closed has, hb.closed hbs⟩

theorem Keeps.refl (h : ∀ l ∈ ls, l.IsInner) : Keeps ls ls := ⟨rfl, h, id⟩

theorem Keeps.nil : Keeps [] [] := ⟨rfl, List.forall_mem_nil _, fun h => h⟩

theorem keeps_clean_singleton (hl : l ≠ .semicolon) : Keeps [l] l.clean := by
  cases l with
  | semicolon => exact absurd rfl hl
  | lineComment | blockComment =>
    refine ⟨?_, ?_, ?_⟩ <;> simp [clean, survives, IsInner, isOpen, isComment]
  | _ =>
    refine ⟨rfl, ?_, id⟩
    simp [clean, IsInner, isComment]

theorem keeps_clean (h : .semicolon ∉ ls) : Keeps ls (ls.flatMap clean) := by
  induction ls with
  | nil => exact .nil
  | cons l ls ih =>
    obtain ⟨hl, hls⟩ := List.ne_and_not_mem_of_not_mem_cons h
    exact (keeps_clean_singleton (Ne.symm hl)).append (ih hls)

theorem flatMap_flatMap_clean (ls : List Lexeme) :
    (ls.flatMap clean).flatMap chars = ls.flatMap written := by
  rw [List.flatMap_assoc]
  exact congrArg ls.flatMap (funext flatMap_clean)

theorem flatMap_written (h : ∀ l ∈ ls, l.isComment = false) :
    ls.flatMap written = ls.flatMap chars := by
  refine List.flatMap_congr fun l hl => ?_
  have hcomment := h l hl
  cases l with
  | lineComment | blockComment => cases hcomment
  | _ => rfl

theorem isPlain_of_isBlank {c : Char} (hc : Text.isBlank c = true) (rest : List Char) :
    IsPlain before c rest where
  quote := by
    simp only [isQuote, Bool.or_eq_false_iff, beq_eq_false_iff_ne]
    exact ⟨⟨Text.ne_of_isBlank hc (by decide), Text.ne_of_isBlank hc (by decide)⟩,
      Text.ne_of_isBlank hc (by decide)⟩
  semicolon := Text.ne_of_isBlank hc (by decide)
  dash h := absurd h (Text.ne_of_isBlank hc (by decide))
  slash h := absurd h (Text.ne_of_isBlank hc (by decide))
  dollar h := absurd h (Text.ne_of_isBlank hc (by decide))
  colon h := absurd h (Text.ne_of_isBlank hc (by decide))

theorem mayOpenTag_of_isBlank {c : Char} (hc : Text.isBlank c = true) : MayOpenTag (some c) :=
  mayOpenTag_some.2 ⟨Text.isNameChar_of_isBlank hc, Text.ne_of_isBlank hc (by decide)⟩

theorem alike_written (h : Reads after before ls) :
    Alike (ls.flatMap chars ++ after) (ls.flatMap written) := by
  induction ls generalizing before with
  | nil => exact .nil _
  | cons l ls ih =>
    obtain ⟨hl, hls⟩ := h
    have hrest := ih hls
    rw [List.flatMap_cons, List.flatMap_cons, List.append_assoc]
    cases l with
    | lineComment body =>
      -- Only a newline or the end can follow what was left out, so nothing new is joined.
      cases hl with
      | lineComment _ hnewline =>
        refine .stop (hrest.not_joins_head fun c hc => ?_)
        rw [hnewline c hc]
        rfl
    | blockComment body closed =>
      refine .stop fun c hc => ?_
      obtain rfl : ' ' = c := by simpa [written] using hc
      decide
    | _ => exact hrest.append_left _

theorem reads_clean (h : Reads after before ls)
    (hbefore : (ls.flatMap chars).head? = some '$' → (MayOpenTag before ↔ MayOpenTag before')) :
    Reads [] before' (ls.flatMap clean) := by
  induction ls generalizing before before' with
  | nil => trivial
  | cons l ls ih =>
    obtain ⟨hl, hls⟩ := h
    rw [head?_flatMap_chars] at hbefore
    have hsame : l.isComment = false →
        l.Fits before' ((ls.flatMap clean).flatMap chars ++ []) := by
      intro hcomment
      refine hl.congr hcomment (fun hopen => ?_) hbefore ?_
      · obtain ⟨hnil, -⟩ := List.append_eq_nil_iff.1 (hl.rest_eq_nil hopen)
        rw [eq_nil_of_flatMap_chars hnil]
        rfl
      · rw [List.append_nil, flatMap_flatMap_clean]
        exact alike_written hls
    cases l with
    | lineComment body =>
      -- The character before the comment now stands before the newline, which opens no tag.
      refine ih hls fun hdollar => ?_
      cases hl with
      | lineComment _ hnewline =>
        exact absurd (hnewline '$' (by simp [hdollar])) (by decide)
    | blockComment body closed =>
      refine ⟨.char (isPlain_of_isBlank (by decide) _), ih hls fun hdollar => ?_⟩
      -- A tag may open after the space as it may after the slash that closed the comment.
      cases closed with
      | true =>
        have hlast : (blockComment body true).chars.getLast? = some '/' := by
          rw [chars, ending_true, List.getLast?_append]
          rfl
        rw [hlast]
        exact iff_of_true (mayOpenTag_some.2 (by decide)) (mayOpenTag_of_isBlank (by decide))
      | false =>
        rw [(List.append_eq_nil_iff.1 (hl.rest_eq_nil rfl)).1] at hdollar
        cases hdollar
    | _ => exact ⟨hsame rfl, ih hls fun _ => Iff.rfl⟩

def Lexeme.isGap : Lexeme → Bool
  | .char c => Text.isBlank c
  | _ => false

theorem eq_char_of_isGap (h : l.isGap = true) : ∃ c, l = .char c ∧ Text.isBlank c = true := by
  cases l with
  | char c => exact ⟨c, rfl, h⟩
  | _ => cases h

theorem keeps_gap (h : l.isGap = true) : Keeps [l] [] := by
  obtain ⟨c, rfl, -⟩ := eq_char_of_isGap h
  exact ⟨rfl, List.forall_mem_nil _, fun _ => List.forall_mem_nil _⟩

theorem not_isBlank_of_isQuote {c : Char} (h : isQuote c = true) : Text.isBlank c = false := by
  simp only [isQuote, Bool.or_eq_true, beq_iff_eq] at h
  rcases h with (rfl | rfl) | rfl <;> decide

theorem not_isBlank_head {rest : List Char} (hl : l.Fits before rest) (hgap : l.isGap = false) :
    ∃ c cs, l.chars = c :: cs ∧ Text.isBlank c = false := by
  cases hl with
  | quoted hquote | openQuoted hquote => exact ⟨_, _, rfl, not_isBlank_of_isQuote hquote⟩
  | char => exact ⟨_, _, rfl, hgap⟩
  | _ => exact ⟨_, _, rfl, by decide⟩

theorem exists_reads_trimStart (h : Reads [] before ls) (hinner : ∀ l ∈ ls, l.IsInner)
    (hbefore : MayOpenTag before) :
    ∃ kept, Reads [] none kept ∧ kept.flatMap chars = Text.trimStart (ls.flatMap chars) ∧
      Keeps ls kept := by
  induction ls generalizing before with
  | nil => exact ⟨[], trivial, rfl, .nil⟩
  | cons l ls ih =>
    obtain ⟨hlinner, hlsinner⟩ := List.forall_mem_cons.1 hinner
    rw [List.flatMap_cons]
    cases hgap : l.isGap with
    | true =>
      obtain ⟨c, rfl, hc⟩ := eq_char_of_isGap hgap
      obtain ⟨kept, hreads, hchars, hkeeps⟩ := ih h.2 hlsinner (mayOpenTag_of_isBlank hc)
      refine ⟨kept, hreads, ?_, (keeps_gap hgap).append hkeeps⟩
      rw [chars, List.cons_append, Text.trimStart_cons_of_blank hc, hchars]
      rfl
    | false =>
      obtain ⟨c, cs, hcs, hc⟩ := not_isBlank_head h.1 hgap
      refine ⟨l :: ls, h.congr (fun m hm => (hinner m hm).1) (fun hne => absurd rfl hne)
        (fun _ => iff_of_true hbefore mayOpenTag_none) (.refl _), ?_, .refl hinner⟩
      rw [List.flatMap_cons, hcs, List.cons_append, Text.trimStart_cons_of_not_blank hc]

theorem Lexeme.Doubled.trimEnd {quote : Char} {body : List Char} (h : Doubled quote body)
    (hquote : Text.isBlank quote = false) : Doubled quote (Text.trimEnd body) := by
  induction h with
  | nil => exact .nil
  | @other c cs hc _ ih =>
    cases hblank : Text.isBlank c with
    | false =>
      rw [Text.trimEnd_cons_of_not_blank hblank]
      exact .other hc ih
    | true =>
      by_cases hcs : Text.trimEnd cs = []
      · rw [← List.singleton_append, Text.trimEnd_append_of_nil hcs, Text.trimEnd_singleton hblank]
        exact .nil
      · rw [← List.singleton_append, Text.trimEnd_append_of_ne_nil hcs]
        exact .other hc ih
  | pair _ ih =>
    rw [Text.trimEnd_cons_of_not_blank hquote, Text.trimEnd_cons_of_not_blank hquote]
    exact .pair ih

theorem trimEnd_delimiter_append (tag cs : List Char) :
    Text.trimEnd (delimiter tag ++ cs) = delimiter tag ++ Text.trimEnd cs := by
  by_cases hcs : Text.trimEnd cs = []
  · rw [Text.trimEnd_append_of_nil hcs, hcs, List.append_nil]
    exact Text.trimEnd_concat (by decide)
  · exact Text.trimEnd_append_of_ne_nil hcs

theorem not_isBlank_last {rest : List Char} (hl : l.Fits before rest) (hinner : l.IsInner)
    (hopen : l.isOpen = false) (hgap : l.isGap = false) :
    ∃ cs c, l.chars = cs ++ [c] ∧ Text.isBlank c = false := by
  cases hl with
  | @quoted quote body _ hquote =>
    exact ⟨quote :: body, quote, rfl, not_isBlank_of_isQuote hquote⟩
  | @dollarQuoted tag body =>
    refine ⟨delimiter tag ++ body ++ '$' :: tag, '$', ?_, by decide⟩
    simp [chars, delimiter]
  | cast => exact ⟨[':'], ':', rfl, by decide⟩
  | @parameter name _ hhead hname =>
    rcases List.eq_nil_or_concat name with rfl | ⟨cs, c, rfl⟩
    · obtain ⟨c, hc, -⟩ := hhead
      cases hc
    · exact ⟨':' :: cs, c, by simp [chars], Text.isBlank_of_isNameChar (hname c (by simp))⟩
  | semicolon => exact absurd rfl hinner.2
  | char => exact ⟨[], _, rfl, hgap⟩
  | lineComment | blockComment => cases hinner.1
  | _ => cases hopen

theorem not_survives_of_isOpen (h : l.isOpen = true) : l.survives = false := by
  cases l with
  | quoted _ _ closed | dollarQuoted _ _ closed => simpa [isOpen, survives] using h
  | blockComment => rfl
  | _ => cases h

theorem keeps_of_isOpen {l' : Lexeme} (h : l.isOpen = true) (h' : l'.isOpen = true)
    (hinner : l'.IsInner) : Keeps [l] [l'] := by
  refine ⟨?_, by simpa using hinner, fun hclosed => ?_⟩
  · simp [not_survives_of_isOpen h, not_survives_of_isOpen h']
  · rw [hclosed l List.mem_cons_self] at h
    cases h

theorem exists_reads_trimEnd_singleton {rest : List Char} (hl : l.Fits before rest)
    (hinner : l.IsInner) :
    ∃ kept, Reads [] before kept ∧ kept.flatMap chars = Text.trimEnd l.chars ∧
      Keeps [l] kept := by
  cases hgap : l.isGap with
  | true =>
    obtain ⟨c, rfl, hc⟩ := eq_char_of_isGap hgap
    exact ⟨[], trivial, (Text.trimEnd_singleton hc).symm, keeps_gap hgap⟩
  | false =>
    cases hopen : l.isOpen with
    | false =>
      obtain ⟨cs, c, hcs, hc⟩ := not_isBlank_last hl hinner hopen hgap
      refine ⟨[l], ⟨hl.congr hinner.1 (fun h => ?_) (fun _ => Iff.rfl) (.nil _), trivial⟩, ?_,
        .refl (by simpa using hinner)⟩
      · rw [hopen] at h
        cases h
      · rw [hcs, Text.trimEnd_concat hc, ← hcs]
        simp
    | true =>
      cases hl with
      | @openQuoted quote body hquote hbody =>
        have hblank := not_isBlank_of_isQuote hquote
        refine ⟨[.quoted quote (Text.trimEnd body) false],
          ⟨.openQuoted hquote (hbody.trimEnd hblank), trivial⟩, ?_, ?_⟩
        · simp [chars, Text.trimEnd_cons_of_not_blank hblank]
        · exact keeps_of_isOpen rfl rfl ⟨rfl, Lexeme.noConfusion⟩
      | @openDollarQuoted tag body htag hname hbody =>
        have hstart := Text.trimEnd_isPrefix body
        refine ⟨[.dollarQuoted tag (Text.trimEnd body) false],
          ⟨.openDollarQuoted htag hname fun hin => hbody (hin.trans hstart.isInfix), trivial⟩,
          ?_, ?_⟩
        · simp [chars, trimEnd_delimiter_append]
        · exact keeps_of_isOpen rfl rfl ⟨rfl, Lexeme.noConfusion⟩
      | openBlockComment => cases hinner.1
      | _ => cases hopen

theorem exists_reads_trimEnd (h : Reads [] before ls) (hinner : ∀ l ∈ ls, l.IsInner) :
    ∃ kept, Reads [] before kept ∧ kept.flatMap chars = Text.trimEnd (ls.flatMap chars) ∧
      Keeps ls kept := by
  induction ls generalizing before with
  | nil => exact ⟨[], trivial, rfl, .nil⟩
  | cons l ls ih =>
    obtain ⟨hl, hls⟩ := h
    obtain ⟨hlinner, hlsinner⟩ := List.forall_mem_cons.1 hinner
    obtain ⟨kept, hreads, hchars, hkeeps⟩ := ih hls hlsinner
    rw [List.flatMap_cons]
    -- Whether anything after the first lexeme is left decides where the text now ends.
    by_cases hnil : Text.trimEnd (ls.flatMap chars) = []
    · obtain ⟨kept', hreads', hchars', hkeeps'⟩ := exists_reads_trimEnd_singleton hl hlinner
      rw [eq_nil_of_flatMap_chars (hchars.trans hnil)] at hkeeps
      refine ⟨kept', hreads', ?_, ?_⟩
      · rw [hchars', Text.trimEnd_append_of_nil hnil]
      · simpa using hkeeps'.append hkeeps
    · refine ⟨l :: kept,
        ⟨hl.congr hlinner.1 (fun hopen => ?_) (fun _ => Iff.rfl) ?_, hreads⟩, ?_, ?_⟩
      · rw [(List.append_eq_nil_iff.1 (hl.rest_eq_nil hopen)).1] at hnil
        exact absurd rfl hnil
      · rw [List.append_nil, List.append_nil, hchars]
        exact .of_isPrefix (Text.trimEnd_isPrefix _)
      · rw [List.flatMap_cons, hchars, Text.trimEnd_append_of_ne_nil hnil]
      · have hself : Keeps [l] [l] := .refl (by simpa using hlinner)
        exact hself.append hkeeps

/-- The lexemes of a statement are what the lexemes of its piece become. -/
theorem keeps_scan_trim (h : Reads after before ls) (hbefore : MayOpenTag before)
    (hpiece : .semicolon ∉ ls) : Keeps ls (scan (Text.trim (ls.flatMap written))) := by
  have hclean := keeps_clean hpiece
  have hreads := reads_clean h fun _ => Iff.rfl
  obtain ⟨started, hstarted, hstart, hkept⟩ := exists_reads_trimStart hreads hclean.inner hbefore
  obtain ⟨kept, hended, hend, hkept'⟩ := exists_reads_trimEnd hstarted hkept.inner
  rw [Text.trim, ← flatMap_flatMap_clean, ← hstart, ← hend, scan, hended.scanFrom_eq]
  exact (hclean.trans hkept).trans hkept'

end QueryMapping.Sql
