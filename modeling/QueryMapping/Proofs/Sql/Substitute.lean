import QueryMapping.Proofs.Sql.Context
import QueryMapping.Proofs.Sql.Render

/-! A rendered statement, scanned again. Its lexemes are those of the statement with the characters
of placeholders in the place of the parameters, unless a placeholder makes a dollar tag of the text
beside it. -/

namespace QueryMapping

theorem Engine.exists_placeholder_eq_cons (e : Engine) (index : Nat) :
    ∃ sign cs, (e.placeholder index).toList = sign :: cs ∧
      (sign = '$' ∧ e = .postgres ∨ sign = '?' ∧ e ≠ .postgres) := by
  by_cases he : e = .postgres
  · subst he
    exact ⟨'$', _, toList_placeholder_postgres index, .inl ⟨rfl, rfl⟩⟩
  · exact ⟨'?', _, toList_placeholder_of_ne he index, .inr ⟨rfl, he⟩⟩

namespace Sql

open Lexeme

def substituted (e : Engine) (index : Nat) : List Lexeme → List Lexeme
  | [] => []
  | .parameter _ :: ls => (e.placeholder index).toList.map .char ++ substituted e (index + 1) ls
  | l :: ls => l :: substituted e index ls

/-- A placeholder makes a dollar tag of the text beside it. -/
inductive MakesTag : Engine → List Lexeme → Prop
  /-- The sign of a placeholder closes the tag in front of it. -/
  | closed {front back : List Lexeme} {tag name : List Char}
      (hbefore : MayOpenTag (front.flatMap chars).getLast?) (htag : IsTag tag) :
    MakesTag .postgres (front ++ .char '$' :: (tag.map .char ++ .parameter name :: back))
  /-- A dollar sign that opens no tag after a name does so after a question mark. -/
  | opened {e : Engine} {front back : List Lexeme} {tag name : List Char} (he : e ≠ .postgres)
      (htag : IsTag tag) :
    MakesTag e (front ++ .parameter name :: .char '$' :: (tag.map .char ++ .char '$' :: back))

variable {e : Engine} {index : Nat} {before before' : Option Char} {after : List Char}
  {l : Lexeme} {ls : List Lexeme} {c : Char}

theorem flatMap_chars_map_char (cs : List Char) : (cs.map Lexeme.char).flatMap chars = cs := by
  induction cs with
  | nil => rfl
  | cons c cs ih => exact congrArg (c :: ·) ih

theorem Lexeme.parameter_or_ne (l : Lexeme) :
    (∃ name, l = .parameter name) ∨ ∀ name, l ≠ .parameter name := by
  cases l with
  | parameter name => exact .inl ⟨name, rfl⟩
  | _ =>
    right
    rintro name ⟨⟩

theorem substituted_of_ne (h : ∀ name, l ≠ .parameter name) (ls : List Lexeme) :
    substituted e index (l :: ls) = l :: substituted e index ls := by
  cases l with
  | parameter name => exact absurd rfl (h name)
  | _ => rfl

theorem substituted_map_char (cs : List Char) (ls : List Lexeme) :
    substituted e index (cs.map .char ++ ls) = cs.map .char ++ substituted e index ls := by
  induction cs with
  | nil => rfl
  | cons c cs ih => exact congrArg (Lexeme.char c :: ·) ih

theorem exists_substituted_append (e : Engine) (index : Nat) (front back : List Lexeme) :
    ∃ index', substituted e index (front ++ back) =
      substituted e index front ++ substituted e index' back := by
  fun_induction substituted e index front with
  | case1 index => exact ⟨index, rfl⟩
  | case2 index name ls ih =>
    obtain ⟨index', h⟩ := ih
    exact ⟨index', by rw [List.cons_append, substituted, h, List.append_assoc]⟩
  | case3 index l ls hl ih =>
    obtain ⟨index', h⟩ := ih
    exact ⟨index', by rw [List.cons_append, substituted_of_ne hl, h, List.cons_append]⟩

theorem flatMap_chars_substituted (e : Engine) (index : Nat) (ls : List Lexeme) :
    (substituted e index ls).flatMap chars =
      leading ls ++ ((segments ls).zipIdx index).flatMap (Segment.rendered e) := by
  fun_induction substituted e index ls with
  | case1 => rfl
  | case2 index name ls ih =>
    rw [List.flatMap_append, flatMap_chars_map_char, ih]
    simp [leading, segments, Segment.rendered]
  | case3 index l ls hl ih =>
    rw [List.flatMap_cons, ih, leading, segments, List.append_assoc] <;> exact hl

theorem toList_render_eq_substituted (sql : String) (e : Engine) :
    ((NamedSql.parse sql).render e).toList =
      (substituted e 1 (scan sql.toList)).flatMap chars := by
  rw [toList_render, flatMap_chars_substituted]

theorem reads_append {as bs : List Lexeme} :
    Reads after before (as ++ bs) ↔
      Reads (bs.flatMap chars ++ after) before as ∧
        Reads after ((as.flatMap chars).getLast?.or before) bs := by
  induction as generalizing before with
  | nil => exact ⟨fun h => ⟨trivial, h⟩, fun h => h.2⟩
  | cons l as ih =>
    rw [List.cons_append, Reads, Reads, ih, and_assoc, List.flatMap_append, List.append_assoc,
      List.flatMap_cons, List.getLast?_append, Option.or_assoc,
      List.getLast?_eq_some_getLast l.chars_ne_nil, Option.some_or]

namespace Lexeme

theorem isPlain_of_isNameChar (hc : Text.isNameChar c = true) (rest : List Char) :
    IsPlain before c rest := by
  have hne : ∀ d, Text.isNameChar d = false → c ≠ d := by
    rintro d hd rfl
    rw [hc] at hd
    cases hd
  refine ⟨?_, hne ';' (by decide), fun h => absurd h (hne '-' (by decide)),
    fun h => absurd h (hne '/' (by decide)), fun h => absurd h (hne '$' (by decide)),
    fun h => absurd h (hne ':' (by decide))⟩
  simp [isQuote, hne '\'' (by decide), hne '"' (by decide), hne '\x60' (by decide)]

theorem isPlain_question (rest : List Char) : IsPlain before '?' rest where
  quote := rfl
  semicolon := by decide
  dash h := absurd h (by decide)
  slash h := absurd h (by decide)
  dollar h := absurd h (by decide)
  colon h := absurd h (by decide)

theorem not_mayOpenTag_of_isNameChar (hc : Text.isNameChar c = true) : ¬ MayOpenTag (some c) := by
  simp [mayOpenTag_some, hc]

theorem Fits.eq_char (hl : l.Fits before after) (hhead : l.chars.head? = some c)
    (hc : Text.isNameChar c = true ∨ (c = '$' ∧ ¬ MayOpenTag before)) : l = .char c := by
  have hquote : isQuote c = false := by
    rcases hc with hc | ⟨rfl, -⟩
    · exact (@isPlain_of_isNameChar none c hc []).quote
    · rfl
  have hne : ∀ d, Text.isNameChar d = false → d ≠ '$' → c ≠ d := by
    rintro d hd hdollar rfl
    rcases hc with hc | ⟨hc, -⟩
    · rw [hd] at hc
      cases hc
    · exact hdollar hc
  cases hl with
  | quoted h | openQuoted h =>
    obtain rfl := Option.some.inj hhead
    rw [h] at hquote
    cases hquote
  | dollarQuoted hbefore | openDollarQuoted hbefore =>
    obtain rfl := Option.some.inj hhead
    rcases hc with hc | ⟨-, hc⟩
    · cases hc
    · exact absurd hbefore hc
  | char => exact congrArg Lexeme.char (Option.some.inj hhead)
  | _ => exact absurd (Option.some.inj hhead).symm (hne _ (by decide) (by decide))

end Lexeme

theorem isNameChar_of_mem_toDigits (hc : c ∈ Nat.toDigits 10 index) : Text.isNameChar c = true :=
  Text.isNameChar_of_isDigit (Nat.isDigit_of_mem_toDigits (by decide) (by decide) hc)

theorem reads_map_char {cs : List Char} (h : ∀ c ∈ cs, Text.isNameChar c = true) :
    Reads after before (cs.map .char) := by
  induction cs generalizing before with
  | nil => trivial
  | cons c cs ih =>
    obtain ⟨hc, hcs⟩ := List.forall_mem_cons.1 h
    exact ⟨.char (isPlain_of_isNameChar hc _), ih hcs⟩

theorem isPlain_dollar_toDigits (rest : List Char) :
    IsPlain before '$' (Nat.toDigits 10 index ++ rest) := by
  refine isPlain_dollar fun _ tag after htag heq => ?_
  obtain ⟨c, digits, hdigits⟩ :=
    List.exists_cons_of_ne_nil (Nat.toDigits_ne_nil (n := index) (b := 10))
  have hc : c.isDigit = true :=
    Nat.isDigit_of_mem_toDigits (by decide) (by decide) (hdigits ▸ List.mem_cons_self)
  rw [hdigits] at heq
  cases tag with
  | nil =>
    obtain rfl := (List.cons.inj heq).1
    cases hc
  | cons d tag =>
    obtain rfl := (List.cons.inj heq).1
    rw [htag.head c rfl] at hc
    cases hc

theorem reads_placeholder (e : Engine) (index : Nat) :
    Reads after before ((e.placeholder index).toList.map .char) := by
  by_cases he : e = .postgres
  · subst he
    rw [Engine.toList_placeholder_postgres, List.map_cons]
    refine ⟨.char ?_, reads_map_char fun c hc => isNameChar_of_mem_toDigits hc⟩
    rw [flatMap_chars_map_char]
    exact isPlain_dollar_toDigits after
  · rw [Engine.toList_placeholder_of_ne he]
    exact ⟨.char (isPlain_question _), trivial⟩

theorem getLast?_placeholder (e : Engine) (index : Nat) :
    ∃ c, (e.placeholder index).toList.getLast? = some c ∧
      (MayOpenTag (some c) ↔ e ≠ .postgres) := by
  by_cases he : e = .postgres
  · subst he
    have hne := Nat.toDigits_ne_nil (n := index) (b := 10)
    refine ⟨(Nat.toDigits 10 index).getLast hne, ?_, ?_⟩
    · rw [Engine.toList_placeholder_postgres, List.getLast?_cons_of_ne_nil hne,
        List.getLast?_eq_some_getLast hne]
    · exact iff_of_false
        (not_mayOpenTag_of_isNameChar (isNameChar_of_mem_toDigits (List.getLast_mem hne))) (by simp)
  · rw [Engine.toList_placeholder_of_ne he]
    exact ⟨'?', rfl, iff_of_true (mayOpenTag_some.2 (by decide)) he⟩

theorem Lexeme.Fits.isNameChar_getLast? {name rest : List Char}
    (h : (Lexeme.parameter name).Fits before rest) :
    (Lexeme.parameter name).chars.getLast?.any Text.isNameChar = true := by
  cases h with
  | parameter hhead hname _ =>
    obtain ⟨c, hc, -⟩ := hhead
    have hne : name ≠ [] := by
      rintro rfl
      cases hc
    rw [chars, List.getLast?_cons_of_ne_nil hne, List.getLast?_eq_some_getLast hne, Option.any_some]
    exact hname _ (List.getLast_mem hne)

theorem Lexeme.Fits.not_mayOpenTag_name {name rest : List Char}
    (h : (Lexeme.parameter name).Fits before rest) :
    ¬ MayOpenTag (Lexeme.parameter name).chars.getLast? := by
  obtain ⟨c, hc, hname⟩ := (Option.any_eq_true _ _).1 h.isNameChar_getLast?
  rw [hc]
  exact not_mayOpenTag_of_isNameChar hname

section Rescan

variable {front : List Lexeme}

theorem head?_substituted (h : Reads after before ls) :
    ∀ c ∈ ((substituted e index ls).flatMap chars).head?,
      (ls.flatMap chars).head? = some c ∨
        ((ls.flatMap chars).head? = some ':' ∧ (c = '$' ∨ c = '?')) := by
  intro c hc
  cases ls with
  | nil => cases hc
  | cons l ls =>
    rcases l.parameter_or_ne with ⟨name, rfl⟩ | hname
    · refine .inr ⟨rfl, ?_⟩
      obtain ⟨sign, cs, hcs, hsign⟩ := e.exists_placeholder_eq_cons index
      rw [substituted, List.flatMap_append, flatMap_chars_map_char, hcs] at hc
      obtain rfl := Option.some.inj hc
      exact hsign.imp And.left And.left
    · rw [substituted_of_ne hname, head?_flatMap_chars] at hc
      exact .inl (by rw [head?_flatMap_chars]; exact hc)

theorem eq_of_substituted_eq_tag {tag rest : List Char} (h : Reads after before ls)
    (hbefore : ¬ MayOpenTag before) (htag : ∀ c ∈ tag, Text.isNameChar c = true)
    (heq : (substituted e index ls).flatMap chars = tag ++ '$' :: rest) :
    (∃ back, ls = tag.map .char ++ .char '$' :: back) ∨
      (e = .postgres ∧ ∃ name back, ls = tag.map .char ++ .parameter name :: back) := by
  induction ls generalizing before tag with
  | nil => cases tag <;> cases heq
  | cons l ls ih =>
    obtain ⟨hl, hls⟩ := h
    rcases l.parameter_or_ne with ⟨name, rfl⟩ | hname
    · -- A placeholder begins with no name, so its sign is the one after the tag.
      obtain ⟨sign, cs, hcs, hsign⟩ := e.exists_placeholder_eq_cons index
      rw [substituted, List.flatMap_append, flatMap_chars_map_char, hcs] at heq
      cases tag with
      | nil =>
        obtain rfl := (List.cons.inj heq).1
        rcases hsign with ⟨-, he⟩ | ⟨h, -⟩
        · exact .inr ⟨he, name, ls, rfl⟩
        · exact absurd h (by decide)
      | cons c tag =>
        obtain rfl := (List.cons.inj heq).1
        have hname := htag sign List.mem_cons_self
        rcases hsign with ⟨rfl, -⟩ | ⟨rfl, -⟩ <;> cases hname
    · rw [substituted_of_ne hname, List.flatMap_cons] at heq
      have hhead : l.chars.head? = (tag ++ '$' :: rest).head? := by
        rw [← heq, List.head?_append, List.head?_eq_some_head l.chars_ne_nil, Option.some_or]
      cases tag with
      | nil =>
        obtain rfl := hl.eq_char hhead (.inr ⟨rfl, hbefore⟩)
        exact .inl ⟨ls, rfl⟩
      | cons c tag =>
        obtain ⟨hc, htag⟩ := List.forall_mem_cons.1 htag
        obtain rfl := hl.eq_char hhead (.inl hc)
        rcases ih hls (not_mayOpenTag_of_isNameChar hc) htag (List.cons.inj heq).2 with
          ⟨back, rfl⟩ | ⟨he, name, back, rfl⟩
        · exact .inl ⟨back, rfl⟩
        · exact .inr ⟨he, name, back, rfl⟩

theorem Lexeme.Fits.substituted (hl : l.Fits before (ls.flatMap chars))
    (hls : Reads [] l.chars.getLast? ls)
    (hname : ∀ name, l ≠ .parameter name) (hbefore : MayOpenTag before → MayOpenTag before')
    (hdollar : l = .char '$' → MayOpenTag before' → ∀ tag after, IsTag tag →
      (Sql.substituted e index ls).flatMap chars ≠ tag ++ '$' :: after) :
    l.Fits before' ((Sql.substituted e index ls).flatMap chars) := by
  have hhead := @head?_substituted e index _ _ _ hls
  have hold : ∀ {c}, c ≠ '$' → c ≠ '?' →
    ((Sql.substituted e index ls).flatMap chars).head? = some c →
      (ls.flatMap chars).head? = some c := by
    intro c hsign hmark hc
    rcases hhead c hc with h | ⟨-, h | h⟩
    · exact h
    · exact absurd h hsign
    · exact absurd h hmark
  have hnil : ls.flatMap chars = [] → (Sql.substituted e index ls).flatMap chars = [] := by
    intro h
    rw [eq_nil_of_flatMap_chars h]
    rfl
  generalize (Sql.substituted e index ls).flatMap chars = rest' at *
  generalize ls.flatMap chars = rest at *
  cases hl with
  | quoted hquote hbody hrest =>
    refine .quoted hquote hbody fun h => hrest (hold ?_ ?_ h)
    · rintro rfl
      cases hquote
    · rintro rfl
      cases hquote
  | openQuoted hquote hbody =>
    rw [hnil rfl]
    exact .openQuoted hquote hbody
  | dollarQuoted hopen htag hbody => exact .dollarQuoted (hbefore hopen) htag hbody
  | openDollarQuoted hopen htag hbody =>
    rw [hnil rfl]
    exact .openDollarQuoted (hbefore hopen) htag hbody
  | lineComment hbody hrest =>
    refine .lineComment hbody fun c hc => ?_
    rcases hhead c hc with h | ⟨h, -⟩
    · exact hrest c h
    · exact absurd (hrest ':' h) (by decide)
  | blockComment hbody => exact .blockComment hbody
  | openBlockComment hbody =>
    rw [hnil rfl]
    exact .openBlockComment hbody
  | cast => exact .cast
  | parameter => exact absurd rfl (hname _)
  | semicolon => exact .semicolon
  | char hplain =>
    refine .char ⟨hplain.quote, hplain.semicolon,
      fun hc h => hplain.dash hc (hold (by decide) (by decide) h),
      fun hc h => hplain.slash hc (hold (by decide) (by decide) h), ?_, fun hc d hd => ?_⟩
    · rintro rfl
      exact hdollar rfl
    · rcases hhead d hd with h | ⟨h, -⟩
      · exact hplain.colon hc d h
      · exact absurd rfl (hplain.colon hc ':' h).1

theorem reads_substituted (h : Reads [] (front.flatMap chars).getLast? ls)
    (hmakes : ¬ MakesTag e (front ++ ls))
    (hbefore : MayOpenTag (front.flatMap chars).getLast? → MayOpenTag before')
    (hafter : MayOpenTag before' → MayOpenTag (front.flatMap chars).getLast? ∨
      (e ≠ .postgres ∧ ∃ front' name, front = front' ++ [.parameter name])) :
    Reads [] before' (substituted e index ls) := by
  -- The character before the rest is another one after a placeholder than after the parameter, so
  -- the induction is for all that let tags open in the same way, or that are question marks.
  induction ls generalizing front before' index with
  | nil => trivial
  | cons l ls ih =>
    obtain ⟨hl, hls⟩ := h
    rw [List.append_nil] at hl
    have ih : ∀ {before''} {index' : Nat}, (MayOpenTag l.chars.getLast? → MayOpenTag before'') →
        (MayOpenTag before'' → MayOpenTag l.chars.getLast? ∨
          (e ≠ .postgres ∧ ∃ name, l = .parameter name)) →
        Reads [] before'' (substituted e index' ls) := by
      intro before'' index' hopens hopened
      have hlast : ((front ++ [l]).flatMap chars).getLast? = l.chars.getLast? := by
        rw [List.flatMap_append, List.flatMap_singleton, getLast?_append_chars]
      refine @ih index' before'' (front ++ [l]) (by rwa [hlast]) (by rwa [List.append_assoc])
        (by rwa [hlast]) fun h => ?_
      rw [hlast]
      refine (hopened h).imp_right fun ⟨he, name, hl⟩ => ⟨he, front, name, ?_⟩
      rw [hl]
    rcases l.parameter_or_ne with ⟨name, rfl⟩ | hname
    · obtain ⟨c, hc, hopens⟩ := getLast?_placeholder e index
      rw [substituted, reads_append, flatMap_chars_map_char, hc, Option.some_or]
      exact ⟨reads_placeholder e index, ih (fun h => absurd h hl.not_mayOpenTag_name)
        fun h => .inr ⟨hopens.1 h, name, rfl⟩⟩
    · rw [substituted_of_ne hname]
      refine ⟨?_, ih id .inl⟩
      rw [List.append_nil]
      refine hl.substituted hls hname hbefore ?_
      rintro rfl hopen tag after htag heq
      -- The sign would open a tag that the statement has, or that a placeholder closes.
      rcases eq_of_substituted_eq_tag hls (by simp [chars, mayOpenTag_some])
        htag.isNameChar heq with
        ⟨back, rfl⟩ | ⟨rfl, name, back, rfl⟩
      · rcases hafter hopen with hopen | ⟨he, front', name, rfl⟩
        · cases hl with
          | char hplain =>
            refine hplain.dollar rfl hopen tag (back.flatMap chars) htag ?_
            rw [List.flatMap_append, flatMap_chars_map_char]
            rfl
        · refine hmakes ?_
          rw [List.append_assoc]
          exact .opened he htag
      · rcases hafter hopen with hopen | ⟨he, -⟩
        · exact hmakes (.closed hopen htag)
        · exact he rfl

theorem getLast?_substituted (h : ∀ front' name, front ≠ front' ++ [.parameter name]) :
    ((substituted e index front).flatMap chars).getLast? = (front.flatMap chars).getLast? := by
  rcases List.eq_nil_or_concat front with rfl | ⟨front, l, rfl⟩
  · rfl
  · rw [List.concat_eq_append] at *
    have hname : ∀ name, l ≠ .parameter name := by
      rintro name rfl
      exact h front name rfl
    obtain ⟨index', happ⟩ := exists_substituted_append e index front [l]
    rw [happ, substituted_of_ne hname, substituted, List.flatMap_append, List.flatMap_append,
      List.flatMap_singleton, getLast?_append_chars, getLast?_append_chars]

theorem not_reads_substituted (h : Reads [] none ls) (hmakes : MakesTag e ls) :
    ¬ Reads [] none (substituted e index ls) := by
  intro hreads
  cases hmakes with
  | @closed front back tag name hbefore htag =>
    obtain ⟨index', happ⟩ := exists_substituted_append .postgres index front
      (.char '$' :: (tag.map .char ++ .parameter name :: back))
    rw [happ, substituted_of_ne (by simp), substituted_map_char, substituted,
      reads_append] at hreads
    -- A lexeme in front after which a tag may open is no parameter, and so it is still there.
    have hfront : ∀ front' name, front ≠ front' ++ [.parameter name] := by
      rintro front' name rfl
      rw [List.flatMap_append, List.flatMap_singleton, getLast?_append_chars] at hbefore
      rw [List.append_assoc, reads_append] at h
      exact h.2.1.not_mayOpenTag_name hbefore
    cases hreads.2.1 with
    | char hplain =>
      rw [getLast?_substituted hfront, Option.or_none] at hplain
      refine hplain.dollar rfl hbefore tag (Nat.toDigits 10 index' ++
        (substituted .postgres (index' + 1) back).flatMap chars) htag ?_
      simp [flatMap_chars_map_char, Engine.toList_placeholder_postgres, chars]
  | @opened _ front back tag name he htag =>
    obtain ⟨index', happ⟩ := exists_substituted_append e index front
      (.parameter name :: .char '$' :: (tag.map .char ++ .char '$' :: back))
    rw [happ, substituted, substituted_of_ne (by simp), substituted_map_char,
      substituted_of_ne (by simp), reads_append, reads_append, flatMap_chars_map_char,
      Engine.toList_placeholder_of_ne he] at hreads
    cases hreads.2.2.1 with
    | char hplain =>
      refine hplain.dollar rfl (mayOpenTag_some.2 (by decide)) tag
        ((substituted e (index' + 1) back).flatMap chars) htag ?_
      simp [flatMap_chars_map_char, chars]

/-- The scan of a rendered statement finds the lexemes with placeholders unless one of these makes a
tag. -/
theorem scan_render_eq_iff (sql : String) (e : Engine) :
    scan ((NamedSql.parse sql).render e).toList = substituted e 1 (scan sql.toList) ↔
      ¬ MakesTag e (scan sql.toList) := by
  rw [toList_render_eq_substituted]
  constructor
  · intro h hmakes
    have hreads : Reads [] none (substituted e 1 (scan sql.toList)) := h ▸ reads_scan _
    exact not_reads_substituted (reads_scan sql.toList) hmakes hreads
  · intro hmakes
    exact (@reads_substituted e 1 none _ [] (reads_scan sql.toList) hmakes id .inl).scanFrom_eq

end Rescan

namespace Lexeme

def encloses : Lexeme → Bool
  | .quoted .. | .dollarQuoted .. | .lineComment _ | .blockComment .. => true
  | .cast | .parameter _ | .semicolon | .char _ => false

end Lexeme

theorem filter_encloses_map_char (cs : List Char) : (cs.map Lexeme.char).filter encloses = [] := by
  induction cs with
  | nil => rfl
  | cons c cs ih => exact ih

theorem filter_encloses_substituted (e : Engine) (index : Nat) (ls : List Lexeme) :
    (substituted e index ls).filter encloses = ls.filter encloses := by
  fun_induction substituted e index ls with
  | case1 => rfl
  | case2 index name ls ih =>
    rw [List.filter_append, filter_encloses_map_char, List.nil_append, ih]
    rfl
  | case3 index l ls hl ih => rw [List.filter_cons, ih, List.filter_cons]

theorem filterMap_name?_substituted (e : Engine) (index : Nat) (ls : List Lexeme) :
    (substituted e index ls).filterMap name? = [] := by
  fun_induction substituted e index ls with
  | case1 => rfl
  | case2 index name ls ih =>
    rw [List.filterMap_append, ih, List.append_nil, List.filterMap_map, List.filterMap_eq_nil_iff]
    exact fun c _ => rfl
  | case3 index l ls hl ih =>
    rw [List.filterMap_cons_none (name?_of_ne hl), ih]

end Sql

namespace NamedSql

open Sql Lexeme

/-- The lexemes of a rendered statement are its own with placeholders just if no placeholder makes a
dollar tag. Then no parameter is left, and what is quoted or a comment stays so. -/
theorem render_rescanned (sql : String) (e : Engine) :
    ∃ ls ls', (∀ other, Lexed none sql.toList other ↔ other = ls) ∧
      (∀ other, Lexed none ((parse sql).render e).toList other ↔ other = ls') ∧
      (ls' = substituted e 1 ls ↔ ¬ MakesTag e ls) ∧
      (¬ MakesTag e ls →
        (parse ((parse sql).render e)).names = [] ∧ ls'.filter encloses = ls.filter encloses) := by
  have hscan := scan_render_eq_iff sql e
  refine ⟨scan sql.toList, _, fun _ => lexed_iff.trans eq_comm, fun _ => lexed_iff.trans eq_comm,
    hscan, fun hmakes => ⟨?_, ?_⟩⟩
  · rw [names_parse, hscan.2 hmakes, filterMap_name?_substituted]
  · exact (congrArg (List.filter encloses) (hscan.2 hmakes)).trans
      (filter_encloses_substituted e 1 _)

/-- In the place of a parameter a question mark lets the dollar signs after it open a body, so that
another one becomes a parameter; and a number's dollar sign closes the tag in front of it. -/
theorem placeholder_makes_tag :
    (parse ":a$$ :b $$ :c $$").render .mysql = "?$$ ? $$ :c $$" ∧
      (parse "?$$ ? $$ :c $$").names = ["c"] ∧
      (parse "$t:a").render .postgres = "$t$1" ∧
      (scan "$t:a".toList).filter encloses = [] ∧
      (scan "$t$1".toList).filter encloses = [.dollarQuoted ['t'] ['1'] false] := by
  refine ⟨?_, ?_, ?_, by decide +kernel, by decide +kernel⟩
  · rw [← String.toList_inj, toList_render_eq_substituted]
    decide +kernel
  · rw [names_parse]
    decide +kernel
  · rw [← String.toList_inj, toList_render_eq_substituted]
    decide +kernel

end NamedSql

end QueryMapping
