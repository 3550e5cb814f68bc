import QueryMapping.Proofs.Sql.Tail

/-! Every text has exactly one list of lexemes, and `scan` computes it. -/

namespace QueryMapping.Sql

namespace Lexeme

def mayOpenTag (before : Option Char) : Bool :=
  !before.any fun c => Text.isNameChar c || c == '$'

theorem mayOpenTag_iff {before : Option Char} : mayOpenTag before = true ↔ MayOpenTag before := by
  cases before <;> simp [mayOpenTag, MayOpenTag]

theorem isTag_iff {name : List Char} (hname : ∀ c ∈ name, Text.isNameChar c = true) :
    IsTag name ↔ name.head?.any Char.isDigit = false := by
  refine ⟨fun h => ?_, fun h => ⟨hname, ?_⟩⟩
  · cases name with
    | nil => rfl
    | cons c name => exact h.head c rfl
  · cases name with
    | nil => simp
    | cons c name => simpa using h

theorem isNameChar_dollar : Text.isNameChar '$' = false := by decide

def tag? (before : Option Char) (afterSign : List Char) : Option (List Char) :=
  let name := afterSign.takeWhile Text.isNameChar
  if mayOpenTag before && !name.head?.any Char.isDigit &&
      (afterSign.dropWhile Text.isNameChar).head? == some '$' then some name
  else none

theorem tag?_eq_some_iff {before : Option Char} {cs name : List Char} :
    tag? before cs = some name ↔
      MayOpenTag before ∧ IsTag name ∧ ∃ rest, cs = name ++ '$' :: rest := by
  have hsplit := List.takeWhile_append_dropWhile (p := Text.isNameChar) (l := cs)
  have hall : ∀ c ∈ cs.takeWhile Text.isNameChar, Text.isNameChar c = true :=
    List.all_eq_true.1 List.all_takeWhile
  constructor
  · intro h
    simp only [tag?, Option.ite_none_right_eq_some, Bool.and_eq_true, Bool.not_eq_true', beq_iff_eq,
      Option.some.injEq] at h
    obtain ⟨⟨⟨hbefore, hdigit⟩, hsign⟩, rfl⟩ := h
    refine ⟨mayOpenTag_iff.1 hbefore, (isTag_iff hall).2 hdigit, ?_⟩
    obtain ⟨rest, hrest⟩ := List.head?_eq_some_iff.1 hsign
    exact ⟨rest, by rw [← hrest, hsplit]⟩
  · rintro ⟨hbefore, htag, rest, rfl⟩
    have hsign : ∀ c ∈ ('$' :: rest).head?, Text.isNameChar c = false := by
      simp [isNameChar_dollar]
    simp [tag?, takeWhile_append htag.isNameChar hsign, dropWhile_append htag.isNameChar hsign,
      mayOpenTag_iff.2 hbefore, (isTag_iff htag.isNameChar).1 htag]

theorem drop_tag (name rest : List Char) : (name ++ '$' :: rest).drop (name.length + 1) = rest := by
  simp [List.drop_append]

theorem delimiter_append (tag cs : List Char) :
    delimiter tag ++ cs = '$' :: (tag ++ '$' :: cs) := by
  simp [delimiter]

theorem delimiter_ne_nil (tag : List Char) : delimiter tag ≠ [] := by simp [delimiter]

def dollar (before : Option Char) (afterSign : List Char) : Lexeme × List Char :=
  match tag? before afterSign with
  | none => (.char '$', afterSign)
  | some name =>
    let t := upTo (delimiter name) (afterSign.drop (name.length + 1))
    (.dollarQuoted name t.body t.closed, t.rest)

theorem dollar_of_isTag {before : Option Char} {tag : List Char} (hbefore : MayOpenTag before)
    (htag : IsTag tag) (cs : List Char) :
    dollar before (tag ++ '$' :: cs) = (.dollarQuoted tag (upTo (delimiter tag) cs).body
      (upTo (delimiter tag) cs).closed, (upTo (delimiter tag) cs).rest) := by
  rw [dollar, tag?_eq_some_iff.2 ⟨hbefore, htag, cs, rfl⟩]
  simp only [drop_tag]

theorem dollar_append (before : Option Char) (cs : List Char) :
    (dollar before cs).1.chars ++ (dollar before cs).2 = '$' :: cs := by
  unfold dollar
  split
  · rfl
  · next name h =>
    obtain ⟨-, -, rest, rfl⟩ := tag?_eq_some_iff.1 h
    have hrest := upTo_append (delimiter name) rest
    rw [List.append_assoc] at hrest
    simp only [chars, drop_tag, List.append_assoc, hrest]
    simp [delimiter]

theorem isPlain_dollar {before : Option Char} {rest : List Char}
    (h : MayOpenTag before → ∀ tag after, IsTag tag → rest ≠ tag ++ '$' :: after) :
    IsPlain before '$' rest where
  quote := rfl
  semicolon := by decide
  dash h := absurd h (by decide)
  slash h := absurd h (by decide)
  dollar _ := h
  colon h := absurd h (by decide)

theorem dollar_fits (before : Option Char) (cs : List Char) :
    Fits before (dollar before cs).1 (dollar before cs).2 := by
  unfold dollar
  split
  · next h =>
    refine .char (isPlain_dollar ?_)
    rintro hbefore tag after htag rfl
    rw [tag?_eq_some_iff.2 ⟨hbefore, htag, after, rfl⟩] at h
    cases h
  · next name h =>
    obtain ⟨hbefore, htag, -⟩ := tag?_eq_some_iff.1 h
    exact upTo_fits (delimiter_ne_nil name) (fun _ _ => .dollarQuoted hbefore htag)
      (fun _ => .openDollarQuoted hbefore htag)

def colon : List Char → Lexeme × List Char
  | [] => (.char ':', [])
  | c :: rest =>
    if c = ':' then (.cast, rest)
    else if Text.isNameStart c then
      (.parameter ((c :: rest).takeWhile Text.isNameChar), (c :: rest).dropWhile Text.isNameChar)
    else (.char ':', c :: rest)

theorem colon_name {c : Char} (hc : Text.isNameStart c = true) (cs : List Char) :
    colon (c :: cs) = (.parameter ((c :: cs).takeWhile Text.isNameChar),
      (c :: cs).dropWhile Text.isNameChar) := by
  have hne : c ≠ ':' := by
    rintro rfl
    cases hc
  rw [colon, if_neg hne, if_pos hc]

theorem colon_other {c : Char} (hne : c ≠ ':') (hc : Text.isNameStart c = false) (cs : List Char) :
    colon (c :: cs) = (.char ':', c :: cs) := by
  rw [colon, if_neg hne, if_neg (by simp [hc])]

theorem colon_append (cs : List Char) : (colon cs).1.chars ++ (colon cs).2 = ':' :: cs := by
  fun_cases colon cs <;> simp_all [chars, List.takeWhile_append_dropWhile]

theorem isPlain_colon {before : Option Char} {rest : List Char}
    (h : ∀ d ∈ rest.head?, d ≠ ':' ∧ Text.isNameStart d = false) : IsPlain before ':' rest where
  quote := rfl
  semicolon := by decide
  dash h := absurd h (by decide)
  slash h := absurd h (by decide)
  dollar h := absurd h (by decide)
  colon _ := h

theorem colon_fits (before : Option Char) (cs : List Char) :
    Fits before (colon cs).1 (colon cs).2 := by
  fun_cases colon cs with
  | case1 => exact .char (isPlain_colon (by simp))
  | case2 => exact .cast
  | case3 c rest hc hstart =>
    have hname := Text.isNameChar_of_isNameStart hstart
    refine .parameter ⟨c, ?_, hstart⟩ (List.all_eq_true.1 List.all_takeWhile) ?_
    · simp [hname]
    · exact fun d hd => of_head?_dropWhile hd
  | case4 c rest hc hstart =>
    refine .char (isPlain_colon ?_)
    simpa using And.intro hc hstart

/-- The lexeme that a text begins with, given the character before the text, and what follows it. -/
def first (before : Option Char) (c : Char) (rest : List Char) : Lexeme × List Char :=
  if isQuote c then
    let t := quotedTail c rest
    (.quoted c t.body t.closed, t.rest)
  else if c = '-' ∧ rest.head? = some '-' then
    (.lineComment (rest.tail.takeWhile (· ≠ '\n')), rest.tail.dropWhile (· ≠ '\n'))
  else if c = '/' ∧ rest.head? = some '*' then
    let t := upTo ['*', '/'] rest.tail
    (.blockComment t.body t.closed, t.rest)
  else if c = '$' then dollar before rest
  else if c = ':' then colon rest
  else if c = ';' then (.semicolon, rest)
  else (.char c, rest)

inductive Opening : Char → List Char → Prop
  | quote {c : Char} {cs : List Char} (hc : isQuote c = true) : Opening c cs
  | dashes {cs : List Char} : Opening '-' ('-' :: cs)
  | slashStar {cs : List Char} : Opening '/' ('*' :: cs)
  | dollar {cs : List Char} : Opening '$' cs
  | colon {cs : List Char} : Opening ':' cs
  | semicolon {cs : List Char} : Opening ';' cs
  | other {c : Char} {cs : List Char} (hquote : isQuote c = false)
      (hdashes : ¬ (c = '-' ∧ cs.head? = some '-')) (hslashStar : ¬ (c = '/' ∧ cs.head? = some '*'))
      (hdollar : c ≠ '$') (hcolon : c ≠ ':') (hsemicolon : c ≠ ';') : Opening c cs

theorem opening (c : Char) (cs : List Char) : Opening c cs := by
  cases hquote : isQuote c with
  | true => exact .quote hquote
  | false =>
    by_cases hdashes : c = '-' ∧ cs.head? = some '-'
    · obtain ⟨rfl, hhead⟩ := hdashes
      obtain ⟨cs, rfl⟩ := List.head?_eq_some_iff.1 hhead
      exact .dashes
    by_cases hslashStar : c = '/' ∧ cs.head? = some '*'
    · obtain ⟨rfl, hhead⟩ := hslashStar
      obtain ⟨cs, rfl⟩ := List.head?_eq_some_iff.1 hhead
      exact .slashStar
    by_cases hdollar : c = '$'
    · exact hdollar ▸ .dollar
    by_cases hcolon : c = ':'
    · exact hcolon ▸ .colon
    by_cases hsemicolon : c = ';'
    · exact hsemicolon ▸ .semicolon
    exact .other hquote hdashes hslashStar hdollar hcolon hsemicolon

theorem first_quote {c : Char} (hc : isQuote c = true) (before : Option Char) (cs : List Char) :
    first before c cs = (.quoted c (quotedTail c cs).body (quotedTail c cs).closed,
      (quotedTail c cs).rest) := if_pos hc

theorem first_dashes (before : Option Char) (cs : List Char) : first before '-' ('-' :: cs) =
    (.lineComment (cs.takeWhile (· ≠ '\n')), cs.dropWhile (· ≠ '\n')) := rfl

theorem first_slashStar (before : Option Char) (cs : List Char) : first before '/' ('*' :: cs) =
    (.blockComment (upTo ['*', '/'] cs).body (upTo ['*', '/'] cs).closed,
      (upTo ['*', '/'] cs).rest) := rfl

theorem first_dollar (before : Option Char) (cs : List Char) :
    first before '$' cs = dollar before cs := rfl

theorem first_colon (before : Option Char) (cs : List Char) : first before ':' cs = colon cs := rfl

theorem first_other {c : Char} {cs : List Char} (hquote : isQuote c = false)
    (hdashes : ¬ (c = '-' ∧ cs.head? = some '-')) (hslashStar : ¬ (c = '/' ∧ cs.head? = some '*'))
    (hdollar : c ≠ '$') (hcolon : c ≠ ':') (hsemicolon : c ≠ ';') (before : Option Char) :
    first before c cs = (.char c, cs) := by
  rw [first, if_neg (by simp [hquote]), if_neg hdashes, if_neg hslashStar, if_neg hdollar,
    if_neg hcolon, if_neg hsemicolon]

theorem first_of_le {c : Char} (hc : 128 ≤ c.toNat) (before : Option Char) (cs : List Char) :
    first before c cs = (.char c, cs) := by
  have hne : ∀ d : Char, d.toNat < 128 → c ≠ d := by
    rintro d hd rfl
    exact Nat.not_lt.2 hc hd
  exact first_other (by simp [isQuote, hne]) (fun h => hne '-' (by decide) h.1)
    (fun h => hne '/' (by decide) h.1) (hne '$' (by decide)) (hne ':' (by decide))
    (hne ';' (by decide)) before

theorem first_append (before : Option Char) (c : Char) (rest : List Char) :
    (first before c rest).1.chars ++ (first before c rest).2 = c :: rest := by
  cases opening c rest with
  | quote hc => simpa [first_quote hc, chars] using quotedTail_append c rest
  | dashes => simp [first_dashes, chars, List.takeWhile_append_dropWhile]
  | @slashStar cs => simpa [first_slashStar, chars] using upTo_append ['*', '/'] cs
  | dollar => rw [first_dollar, dollar_append]
  | colon => rw [first_colon, colon_append]
  | semicolon => rfl
  | other hquote hdashes hslashStar hdollar hcolon hsemicolon =>
    rw [first_other hquote hdashes hslashStar hdollar hcolon hsemicolon]
    rfl

theorem first_fits (before : Option Char) (c : Char) (rest : List Char) :
    Fits before (first before c rest).1 (first before c rest).2 := by
  cases opening c rest with
  | quote hc =>
    rw [first_quote hc]
    exact quotedTail_fits before hc rest
  | dashes =>
    rw [first_dashes]
    refine .lineComment (fun hmem => ?_) (fun d hd => ?_)
    · simpa using List.all_eq_true.1 List.all_takeWhile _ hmem
    · simpa using of_head?_dropWhile hd
  | slashStar =>
    rw [first_slashStar]
    exact upTo_fits (by decide) (fun _ _ => .blockComment) (fun _ => .openBlockComment)
  | dollar => exact dollar_fits before rest
  | colon => exact colon_fits before rest
  | semicolon => exact .semicolon
  | other hquote hdashes hslashStar hdollar hcolon hsemicolon =>
    rw [first_other hquote hdashes hslashStar hdollar hcolon hsemicolon]
    exact .char ⟨hquote, hsemicolon, fun h h' => hdashes ⟨h, h'⟩, fun h h' => hslashStar ⟨h, h'⟩,
      fun h => absurd h hdollar, fun h => absurd h hcolon⟩

theorem IsPlain.first_eq {before : Option Char} {c : Char} {rest : List Char}
    (h : IsPlain before c rest) : first before c rest = (.char c, rest) := by
  unfold first
  rw [if_neg (by simp [h.quote]), if_neg fun hc => h.dash hc.1 hc.2,
    if_neg fun hc => h.slash hc.1 hc.2]
  split
  · next hc =>
    subst hc
    have htag : tag? before rest = none := by
      rw [Option.eq_none_iff_forall_ne_some]
      intro name hname
      obtain ⟨hbefore, htag, after, hrest⟩ := tag?_eq_some_iff.1 hname
      exact h.dollar rfl hbefore name after htag hrest
    rw [Lexeme.dollar, htag]
  · split
    · next hc =>
      subst hc
      cases rest with
      | nil => rfl
      | cons d rest =>
        have hd := h.colon rfl d rfl
        exact colon_other hd.1 hd.2 rest
    · rw [if_neg h.semicolon]

theorem Fits.first_eq {before : Option Char} {l : Lexeme} {rest cs : List Char} {c : Char}
    (h : Fits before l rest) (hcs : l.chars ++ rest = c :: cs) :
    first before c cs = (l, rest) := by
  -- The first characters of a lexeme choose the reader, and what its rule asks of the body and of
  -- `rest` stops the reader where the body ends.
  cases h with
  | quoted hquote hbody hrest =>
    obtain ⟨rfl, rfl⟩ : _ ∧ _ := by simpa [chars] using hcs
    rw [first, if_pos hquote, hbody.quotedTail hrest]
  | openQuoted hquote hbody =>
    obtain ⟨rfl, rfl⟩ : _ ∧ _ := by simpa [chars] using hcs
    rw [first, if_pos hquote, hbody.quotedTail_open]
  | @dollarQuoted tag body _ hbefore htag hbody =>
    rw [chars, ending_true, List.append_assoc, List.append_assoc, delimiter_append] at hcs
    obtain ⟨rfl, rfl⟩ := List.cons.inj hcs
    rw [first_dollar, dollar_of_isTag hbefore htag, ← List.append_assoc,
      upTo_of_not_infix (delimiter_ne_nil tag) rest hbody]
  | openDollarQuoted hbefore htag hbody =>
    rw [chars, ending_false, List.append_nil, List.append_nil, delimiter_append] at hcs
    obtain ⟨rfl, rfl⟩ := List.cons.inj hcs
    rw [first_dollar, dollar_of_isTag hbefore htag, upTo_of_not_infix_open hbody]
  | @lineComment body _ hbody hrest =>
    obtain ⟨rfl, rfl⟩ : _ ∧ _ := by simpa [chars] using hcs
    have hbody' : ∀ c ∈ body, decide (c ≠ '\n') = true :=
      fun c hc => decide_eq_true fun h => hbody (h ▸ hc)
    have hrest' : ∀ c ∈ rest.head?, decide (c ≠ '\n') = false :=
      fun c hc => by simp [hrest c hc]
    rw [first_dashes, takeWhile_append hbody' hrest', dropWhile_append hbody' hrest']
  | @blockComment body _ hbody =>
    rw [chars, ending_true, List.cons_append, List.cons_append] at hcs
    obtain ⟨rfl, rfl⟩ := List.cons.inj hcs
    rw [List.cons_append, List.cons_append, first_slashStar,
      upTo_of_not_infix (by decide) rest hbody]
  | openBlockComment hbody =>
    rw [chars, ending_false, List.append_nil, List.append_nil] at hcs
    obtain ⟨rfl, rfl⟩ := List.cons.inj hcs
    rw [first_slashStar, upTo_of_not_infix_open hbody]
  | cast =>
    obtain ⟨rfl, rfl⟩ : _ ∧ _ := by simpa [chars] using hcs
    rfl
  | @parameter name _ hhead hname hrest =>
    obtain ⟨rfl, rfl⟩ : _ ∧ _ := by simpa [chars] using hcs
    obtain ⟨d, hd, hstart⟩ := hhead
    obtain ⟨name, rfl⟩ := List.head?_eq_some_iff.1 hd
    rw [first_colon, List.cons_append, colon_name hstart, ← List.cons_append,
      takeWhile_append hname hrest, dropWhile_append hname hrest]
  | semicolon =>
    obtain ⟨rfl, rfl⟩ : _ ∧ _ := by simpa [chars] using hcs
    rfl
  | char hc =>
    obtain ⟨rfl, rfl⟩ : _ ∧ _ := by simpa [chars] using hcs
    exact hc.first_eq

theorem first_rest_length (before : Option Char) (c : Char) (rest : List Char) :
    (first before c rest).2.length < (c :: rest).length := by
  have h := congrArg List.length (first_append before c rest)
  have hpos := List.length_pos_iff.2 (first before c rest).1.chars_ne_nil
  rw [List.length_append] at h
  omega

end Lexeme

def scanFrom (before : Option Char) : List Char → List Lexeme
  | [] => []
  | c :: cs =>
    (Lexeme.first before c cs).1 ::
      scanFrom (Lexeme.first before c cs).1.chars.getLast? (Lexeme.first before c cs).2
termination_by cs => cs.length
decreasing_by exact Lexeme.first_rest_length before c cs

def scan (text : List Char) : List Lexeme := scanFrom none text

theorem lexed_scanFrom (before : Option Char) (text : List Char) :
    Lexed before text (scanFrom before text) := by
  fun_induction scanFrom before text with
  | case1 => exact .nil
  | case2 before c cs ih =>
    have h := Lexed.cons (Lexeme.first_fits before c cs) ih
    rwa [Lexeme.first_append] at h

theorem lexed_scan (text : List Char) : Lexed none text (scan text) := lexed_scanFrom none text

theorem Lexed.scanFrom_eq {before : Option Char} {text : List Char} {ls : List Lexeme}
    (h : Lexed before text ls) : scanFrom before text = ls := by
  induction h with
  | nil => exact scanFrom.eq_1 _
  | @cons before l rest ls hl hls ih =>
    -- `scanFrom` goes by characters, so the text has to be split again at its first.
    cases htext : l.chars ++ rest with
    | nil => exact absurd (List.append_eq_nil_iff.1 htext).1 l.chars_ne_nil
    | cons c cs => rw [scanFrom, hl.first_eq htext, ih]

theorem lexed_iff {before : Option Char} {text : List Char} {ls : List Lexeme} :
    Lexed before text ls ↔ scanFrom before text = ls :=
  ⟨Lexed.scanFrom_eq, fun h => h ▸ lexed_scanFrom before text⟩

example : scan "x::y = :::z -- :w".toList =
    [.char 'x', .cast, .char 'y', .char ' ', .char '=', .char ' ', .cast,
      .parameter ['z'], .char ' ', .lineComment [' ', ':', 'w']] := by cbv

example : scan "$a$ ; $a$;a$$ 'b''".toList =
    [.dollarQuoted ['a'] [' ', ';', ' '] true, .semicolon, .char 'a', .char '$',
      .char '$', .char ' ', .quoted '\'' ['b', '\'', '\''] false] := by cbv

end QueryMapping.Sql
