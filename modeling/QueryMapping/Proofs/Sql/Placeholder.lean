import Mathlib.Data.List.Count
import QueryMapping.Proofs.Sql.Substitute

/-! The placeholders that an engine finds in a rendered statement, outside what is quoted or a
comment: those that the statement has itself, and one for each parameter that does not stand in a
name. -/

namespace QueryMapping

def Engine.numbered (e : Engine) (index : Nat) : Option Nat :=
  match e with
  | .postgres => some index
  | .mysql | .sqlite => none

namespace Sql

open Lexeme

namespace Lexeme

def number? (before : Option Char) (after : List Char) : Option Nat :=
  let digits := after.takeWhile Char.isDigit
  if before.any Text.isNameChar || digits.isEmpty then none else some (Nat.ofDigitChars 10 digits 0)

/-- The number of the placeholder that a lexeme is, or none for a question mark. -/
def placeholder? (e : Engine) (before : Option Char) (after : List Char) :
    Lexeme → Option (Option Nat)
  | .char c =>
    match e with
    | .postgres => if c = '$' then (number? before after).map some else none
    | .mysql | .sqlite => if c = '?' then some none else none
  | _ => none

end Lexeme

def placeholdersFrom (e : Engine) : Option Char → List Lexeme → List (Option Nat)
  | _, [] => []
  | before, l :: ls =>
    (l.placeholder? e before (ls.flatMap chars)).toList ++ placeholdersFrom e l.chars.getLast? ls

def placeholders (e : Engine) (text : List Char) : List (Option Nat) :=
  placeholdersFrom e none (scan text)

def standingFrom (e : Engine) : Option Char → Nat → List Lexeme → List Nat
  | _, _, [] => []
  | before, index, .parameter name :: ls =>
    (if e = .postgres ∧ before.any Text.isNameChar then [] else [index]) ++
      standingFrom e (Lexeme.parameter name).chars.getLast? (index + 1) ls
  | _, index, l :: ls => standingFrom e l.chars.getLast? index ls

/-- No character of a name stands right before the parameter of some number. To an engine that does
not number placeholders it is all one. -/
def Stands (e : Engine) (ls : List Lexeme) (index : Nat) : Prop :=
  ∃ front name back, ls = front ++ .parameter name :: back ∧
    index = 1 + (front.filterMap name?).length ∧
    (e = .postgres → (front.flatMap chars).getLast?.any Text.isNameChar = false)

variable {e : Engine} {index : Nat} {before before' : Option Char} {l : Lexeme} {ls : List Lexeme}

theorem placeholder?_postgres (before : Option Char) (after : List Char) :
    (Lexeme.char '$').placeholder? .postgres before after = (number? before after).map some := rfl

theorem placeholder?_of_ne {c : Char} (hc : c ≠ '$') (before : Option Char) (after : List Char) :
    (Lexeme.char c).placeholder? .postgres before after = none := if_neg hc

theorem placeholder?_congr (he : e ≠ .postgres) (before before' : Option Char)
    (after after' : List Char) :
    l.placeholder? e before after = l.placeholder? e before' after' := by
  cases e with
  | postgres => exact absurd rfl he
  | mysql | sqlite => cases l <;> rfl

theorem placeholdersFrom_map_char {cs : List Char} (h : ∀ c ∈ cs, Text.isNameChar c = true)
    (ls : List Lexeme) :
    placeholdersFrom .postgres before (cs.map .char ++ ls) =
      placeholdersFrom .postgres (cs.getLast?.or before) ls := by
  induction cs generalizing before with
  | nil => rfl
  | cons c cs ih =>
    obtain ⟨hc, hcs⟩ := List.forall_mem_cons.1 h
    have hne : c ≠ '$' := by
      rintro rfl
      cases hc
    rw [List.map_cons, List.cons_append, placeholdersFrom, placeholder?_of_ne hne, ih hcs,
      List.getLast?_cons]
    cases cs.getLast? <;> rfl

theorem takeWhile_isDigit_substituted (h : Reads [] before ls) :
    ((substituted e index ls).flatMap chars).takeWhile Char.isDigit =
      (ls.flatMap chars).takeWhile Char.isDigit := by
  induction ls generalizing before with
  | nil => rfl
  | cons l ls ih =>
    obtain ⟨hl, hls⟩ := h
    rcases l.parameter_or_ne with ⟨name, rfl⟩ | hname
    · obtain ⟨sign, cs, hcs, hsign⟩ := e.exists_placeholder_eq_cons index
      rw [substituted, List.flatMap_append, flatMap_chars_map_char, hcs]
      rcases hsign with ⟨rfl, -⟩ | ⟨rfl, -⟩ <;> rfl
    · rw [substituted_of_ne hname, List.flatMap_cons, List.flatMap_cons]
      obtain ⟨c, cs, hcs⟩ := List.exists_cons_of_ne_nil l.chars_ne_nil
      cases hc : c.isDigit with
      | true =>
        -- A digit is a lexeme of its own.
        obtain rfl := hl.eq_char (by rw [hcs]; rfl) (.inl (Text.isNameChar_of_isDigit hc))
        rw [chars, List.singleton_append, List.singleton_append, List.takeWhile_cons_of_pos hc,
          List.takeWhile_cons_of_pos hc, ih hls]
      | false => simp [hcs, hc]

theorem number?_toDigits {after : List Char} (hbefore : before.any Text.isNameChar = false)
    (hafter : ∀ c ∈ after.head?, c.isDigit = false) :
    number? before (Nat.toDigits 10 index ++ after) = some index := by
  have hdigits : ∀ c ∈ Nat.toDigits 10 index, c.isDigit = true :=
    fun c hc => Nat.isDigit_of_mem_toDigits (by decide) (by decide) hc
  rw [number?, takeWhile_append hdigits hafter]
  simp [hbefore, Nat.toDigits_ne_nil, Nat.ofDigitChars_ten_toDigits]

theorem placeholder?_substituted (h : Reads [] l.chars.getLast? ls)
    (hbefore : e = .postgres → before.any Text.isNameChar = before'.any Text.isNameChar) :
    l.placeholder? e before' ((substituted e index ls).flatMap chars) =
      l.placeholder? e before (ls.flatMap chars) := by
  by_cases he : e = .postgres
  · subst he
    cases l with
    | char c =>
      by_cases hc : c = '$'
      · subst hc
        rw [placeholder?_postgres, placeholder?_postgres, number?, number?,
          takeWhile_isDigit_substituted h, hbefore rfl]
      · rw [placeholder?_of_ne hc, placeholder?_of_ne hc]
    | _ => rfl
  · exact placeholder?_congr he _ _ _ _

theorem exists_placeholdersFrom_append (index : Nat)
    (hls : ∀ c ∈ (ls.flatMap chars).head?, c.isDigit = false)
    (hbefore : e = .postgres → before.any Text.isNameChar = before'.any Text.isNameChar) :
    ∃ last : Option Char, (e = .postgres → last.any Text.isNameChar = true) ∧
      placeholdersFrom e before' ((e.placeholder index).toList.map .char ++ ls) =
        (if e = .postgres ∧ before.any Text.isNameChar then [] else [index]).map e.numbered ++
          placeholdersFrom e last ls := by
  by_cases he : e = .postgres
  · subst he
    have hlast := Nat.toDigits_ne_nil (n := index) (b := 10)
    have hdigits : ∀ c ∈ Nat.toDigits 10 index, Text.isNameChar c = true :=
      fun c hc => isNameChar_of_mem_toDigits hc
    refine ⟨(Nat.toDigits 10 index).getLast?, fun _ => ?_, ?_⟩
    · rw [List.getLast?_eq_some_getLast hlast, Option.any_some]
      exact hdigits _ (List.getLast_mem hlast)
    · rw [Engine.toList_placeholder_postgres, List.map_cons, List.cons_append, placeholdersFrom,
        placeholdersFrom_map_char hdigits, List.flatMap_append, flatMap_chars_map_char,
        placeholder?_postgres, List.getLast?_eq_some_getLast hlast, Option.some_or]
      cases hname : before'.any Text.isNameChar with
      | true => simp [number?, hname, hbefore rfl]
      | false =>
        rw [number?_toDigits hname hls]
        simp [hname, hbefore rfl, Engine.numbered]
  · refine ⟨some '?', fun h => absurd h he, ?_⟩
    rw [Engine.toList_placeholder_of_ne he]
    cases e with
    | postgres => exact absurd rfl he
    | mysql | sqlite => rfl

theorem not_isDigit_head?_substituted {name : List Char}
    (hl : (Lexeme.parameter name).Fits before (ls.flatMap chars)) (hls : Reads [] before' ls) :
    ∀ c ∈ ((substituted e index ls).flatMap chars).head?, c.isDigit = false := by
  intro c hc
  rcases head?_substituted hls c hc with h | ⟨-, rfl | rfl⟩
  · cases hl with
    | parameter _ _ hrest =>
      have hrest := hrest c h
      rw [← Bool.not_eq_true]
      intro hc
      rw [Text.isNameChar_of_isDigit hc] at hrest
      cases hrest
  · rfl
  · rfl

theorem placeholdersFrom_substituted (h : Reads [] before ls)
    (hbefore : e = .postgres → before.any Text.isNameChar = before'.any Text.isNameChar) :
    (placeholdersFrom e before' (substituted e index ls)).Perm
      (placeholdersFrom e before ls ++ (standingFrom e before index ls).map e.numbered) := by
  -- A number ends in a character of a name, as the parameter does whose place it takes.
  induction ls generalizing before before' index with
  | nil => exact .nil
  | cons l ls ih =>
    obtain ⟨hl, hls⟩ := h
    rw [List.append_nil] at hl
    rcases l.parameter_or_ne with ⟨name, rfl⟩ | hname
    · obtain ⟨last, hlast, heq⟩ :=
        exists_placeholdersFrom_append index (not_isDigit_head?_substituted hl hls) hbefore
      have hopen := hl.isNameChar_getLast?
      rw [substituted, heq, standingFrom, List.map_append]
      refine .trans (.append_left _ ?_) (List.perm_append_comm_assoc _ _ _)
      exact ih hls fun he => hopen.trans (hlast he).symm
    · rw [substituted_of_ne hname, placeholdersFrom, placeholder?_substituted hls hbefore,
        placeholdersFrom, standingFrom, List.append_assoc]
      · exact (ih hls fun _ => rfl).append_left _
      · exact hname

theorem standingFrom_of_ne (h : ∀ name, l ≠ .parameter name) (ls : List Lexeme) :
    standingFrom e before index (l :: ls) = standingFrom e l.chars.getLast? index ls := by
  cases l with
  | parameter name => exact absurd rfl (h name)
  | _ => rfl

theorem length_filterMap_name?_parameter (name : List Char) (ls : List Lexeme) :
    ((Lexeme.parameter name :: ls).filterMap name?).length = (ls.filterMap name?).length + 1 := rfl

theorem getLast?_flatMap_cons (l : Lexeme) (front : List Lexeme) (before : Option Char) :
    ((l :: front).flatMap chars).getLast?.or before =
      (front.flatMap chars).getLast?.or l.chars.getLast? := by
  rw [List.flatMap_cons, List.getLast?_append, Option.or_assoc,
    List.getLast?_eq_some_getLast l.chars_ne_nil, Option.some_or]

theorem mem_standingFrom {i : Nat} :
    i ∈ standingFrom e before index ls ↔
      ∃ front name back, ls = front ++ .parameter name :: back ∧
        i = index + (front.filterMap name?).length ∧
        (e = .postgres →
          ((front.flatMap chars).getLast?.or before).any Text.isNameChar = false) := by
  induction ls generalizing before index with
  | nil => simp [standingFrom]
  | cons l ls ih =>
    rcases l.parameter_or_ne with ⟨name, rfl⟩ | hname
    · have hhere : i ∈ (if e = .postgres ∧ before.any Text.isNameChar then [] else [index]) ↔
          i = index ∧ (e = .postgres → before.any Text.isNameChar = false) := by
        split
        · next h => simp [h.1, h.2]
        · next h => simpa using fun _ => h
      rw [standingFrom, List.mem_append, hhere, ih]
      constructor
      · rintro (⟨rfl, h⟩ | ⟨front, name', back, rfl, rfl, h⟩)
        · exact ⟨[], name, ls, rfl, rfl, h⟩
        · refine ⟨.parameter name :: front, name', back, rfl, ?_, fun he => ?_⟩
          · rw [length_filterMap_name?_parameter]
            omega
          · rw [getLast?_flatMap_cons]
            exact h he
      · rintro ⟨front, name', back, heq, rfl, h⟩
        cases front with
        | nil => exact .inl ⟨rfl, h⟩
        | cons l front =>
          obtain ⟨rfl, rfl⟩ := List.cons.inj heq
          simp only [getLast?_flatMap_cons] at h
          refine .inr ⟨front, name', back, rfl, ?_, h⟩
          rw [length_filterMap_name?_parameter]
          omega
    · rw [standingFrom_of_ne hname, ih]
      constructor
      · rintro ⟨front, name', back, rfl, rfl, h⟩
        refine ⟨l :: front, name', back, rfl, ?_, fun he => ?_⟩
        · rw [List.filterMap_cons_none (name?_of_ne hname)]
        · rw [getLast?_flatMap_cons]
          exact h he
      · rintro ⟨front, name', back, heq, rfl, h⟩
        cases front with
        | nil => exact absurd (List.cons.inj heq).1 (hname _)
        | cons l front =>
          obtain ⟨rfl, rfl⟩ := List.cons.inj heq
          simp only [getLast?_flatMap_cons] at h
          exact ⟨front, name', back, rfl, by rw [List.filterMap_cons_none (name?_of_ne hname)], h⟩

theorem mem_standingFrom_none {i : Nat} : i ∈ standingFrom e none 1 ls ↔ Stands e ls i := by
  simp only [mem_standingFrom, Stands, Option.or_none]

theorem standingFrom_sublist :
    (standingFrom e before index ls).Sublist (List.range' index (ls.filterMap name?).length) := by
  induction ls generalizing before index with
  | nil => exact .slnil
  | cons l ls ih =>
    rcases l.parameter_or_ne with ⟨name, rfl⟩ | hname
    · rw [standingFrom, length_filterMap_name?_parameter, List.range'_succ]
      split
      · exact ih.cons _
      · exact ih.cons_cons _
    · rw [standingFrom_of_ne hname, List.filterMap_cons_none (name?_of_ne hname)]
      exact ih

end Sql

namespace NamedSql

open Sql Lexeme

theorem length_values {s : NamedSql} {params : Params} {values : List Value} (h : s.names ≠ [])
    (hvalues : s.values params = .ok values) : values.length = s.names.length := by
  rw [values_of_ne_nil h, mapM_eq_ok_iff] at hvalues
  exact hvalues.length_eq.symm

theorem count_map_some_range' (n i : Nat) :
    ((List.range' 1 n).map some).count (some i) = if 1 ≤ i ∧ i ≤ n then 1 else 0 := by
  rw [List.count_map_of_injective _ some (fun _ _ => Option.some.inj),
    List.Nodup.count List.nodup_range']
  exact if_congr (by rw [List.mem_range'_1]; omega) rfl rfl

/-- Unless a placeholder makes a dollar tag, an engine finds the placeholders that the statement has
itself and one for each parameter that does not stand in a name, with its number. Those are as many
as the values if the statement has none itself and all its parameters stand apart from names. -/
theorem placeholders_of_render (sql : String) (e : Engine)
    (hparams : (parse sql).hasParameters = true) (hmakes : ¬ MakesTag e (scan sql.toList)) :
    let found := placeholders e ((parse sql).render e).toList
    let own := placeholders e sql.toList
    ∃ numbers : List Nat, numbers.Sublist (List.range' 1 (parse sql).names.length) ∧
      (∀ i, i ∈ numbers ↔ Stands e (scan sql.toList) i) ∧
      found.Perm (own ++ numbers.map e.numbered) ∧
      ∀ params values, (parse sql).values params = .ok values →
        values.length = (parse sql).names.length ∧
        (own = [] → (∀ i, 1 ≤ i → i ≤ values.length → Stands e (scan sql.toList) i) →
          found.length = values.length ∧
            (e = .postgres → ∀ i,
              found.count (some i) = if 1 ≤ i ∧ i ≤ values.length then 1 else 0)) := by
  intro found own
  have hsublist := @standingFrom_sublist e 1 none (scan sql.toList)
  have hfound : found.Perm (own ++ (standingFrom e none 1 (scan sql.toList)).map e.numbered) := by
    simp only [found, own, placeholders, (scan_render_eq_iff sql e).2 hmakes]
    exact placeholdersFrom_substituted (reads_scan sql.toList) fun _ => rfl
  rw [← names_parse] at hsublist
  refine ⟨_, hsublist, fun _ => mem_standingFrom_none, hfound, fun params values hvalues => ?_⟩
  have hlength := length_values (hasParameters_iff.1 hparams) hvalues
  refine ⟨hlength, fun hown hstands => ?_⟩
  -- All numbers are among those of the parameters that stand apart, so these are all there are.
  have hsubset : List.range' 1 values.length ⊆ standingFrom e none 1 (scan sql.toList) := by
    intro i hi
    have := List.mem_range'_1.1 hi
    exact mem_standingFrom_none.2 (hstands i (by omega) (by omega))
  rw [← hlength] at hsublist
  have hall := hsublist.eq_of_length_le (List.subperm_of_subset List.nodup_range' hsubset).length_le
  rw [hown, List.nil_append, hall] at hfound
  refine ⟨by rw [hfound.length_eq, List.length_map, List.length_range'], ?_⟩
  rintro rfl i
  rw [hfound.count_eq]
  exact count_map_some_range' values.length i

theorem placeholders_of_render_quoted :
    (parse "'$1', :a, :b -- $7").hasParameters = true ∧
      ¬ MakesTag .postgres (scan "'$1', :a, :b -- $7".toList) ∧
      (placeholders .postgres ((parse "'$1', :a, :b -- $7").render .postgres).toList).length = 2 ∧
      ∀ i, (placeholders .postgres ((parse "'$1', :a, :b -- $7").render .postgres).toList).count
        (some i) = if 1 ≤ i ∧ i ≤ 2 then 1 else 0 := by
  have hnames : (parse "'$1', :a, :b -- $7").names = ["a", "b"] := by
    rw [names_parse]
    decide +kernel
  have hparams : (parse "'$1', :a, :b -- $7").hasParameters = true :=
    hasParameters_iff.2 (by rw [hnames]; decide)
  have hmakes : ¬ MakesTag .postgres (scan "'$1', :a, :b -- $7".toList) := by
    rw [← scan_render_eq_iff, toList_render_eq_substituted]
    decide +kernel
  have hstanding : standingFrom .postgres none 1 (scan "'$1', :a, :b -- $7".toList) = [1, 2] := by
    decide +kernel
  have hvalues : (parse "'$1', :a, :b -- $7").values
      ((Params.empty.bind "a" (.int 5)).bind "b" (.int 6)) = .ok [.int 5, .int 6] := by
    rw [values_of_ne_nil (hasParameters_iff.1 hparams), hnames]
    rfl
  obtain ⟨-, -, -, -, h⟩ := placeholders_of_render "'$1', :a, :b -- $7" .postgres hparams hmakes
  obtain ⟨-, h⟩ := h _ _ hvalues
  obtain ⟨hlength, hcount⟩ := h (by decide +kernel) fun i hlow hhigh => by
    rw [← mem_standingFrom_none, hstanding]
    have : i ≤ 2 := hhigh
    simp only [List.mem_cons, List.not_mem_nil, or_false]
    omega
  exact ⟨hparams, hmakes, hlength, hcount rfl⟩

/-- A statement's own placeholders are not looked at: a parameter can get the number of one of them,
and there are more placeholders than values. After a name a dollar sign is no placeholder, and
neither is what a dollar tag encloses, so that there are fewer. -/
theorem own_placeholder_shared :
    (parse "$1, :a").values (Params.empty.bind "a" (.int 5)) = .ok [.int 5] ∧
      placeholders .postgres ((parse "$1, :a").render .postgres).toList = [some 1, some 1] ∧
      (parse "?, :a").values (Params.empty.bind "a" (.int 5)) = .ok [.int 5] ∧
      placeholders .mysql ((parse "?, :a").render .mysql).toList = [none, none] ∧
      (parse ":a:a").values (Params.empty.bind "a" (.int 5)) = .ok [.int 5, .int 5] ∧
      placeholders .postgres ((parse ":a:a").render .postgres).toList = [some 1] ∧
      (parse "$:a").values (Params.empty.bind "a" (.int 5)) = .ok [.int 5] ∧
      placeholders .postgres ((parse "$:a").render .postgres).toList = [] ∧
      (parse ":a$$:a$$").values (Params.empty.bind "a" (.int 5)) = .ok [.int 5, .int 5] ∧
      placeholders .mysql ((parse ":a$$:a$$").render .mysql).toList = [none] := by
  have hnames : (parse "$1, :a").names = ["a"] ∧ (parse "?, :a").names = ["a"] ∧
      (parse ":a:a").names = ["a", "a"] ∧ (parse "$:a").names = ["a"] ∧
      (parse ":a$$:a$$").names = ["a", "a"] := by
    simp only [names_parse]
    refine ⟨?_, ?_, ?_, ?_, ?_⟩ <;> decide +kernel
  simp only [values_of_ne_nil, hnames, toList_render_eq_substituted, ne_eq, List.cons_ne_nil,
    not_false_eq_true]
  refine ⟨rfl, ?_, rfl, ?_, rfl, ?_, rfl, ?_, rfl, ?_⟩ <;> decide +kernel

end NamedSql

end QueryMapping
