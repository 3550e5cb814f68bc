import Mathlib.Data.List.Chain
import QueryMapping.Proofs.Sql.Parts

/-! What a statement is cut into: the parts are the text, and the parameters are the colons that a
reader of the lexemes takes for one. -/

namespace QueryMapping.Sql

open Lexeme

/-- `x` occurs in a list, and what is written before it is `before`. -/
def OccursAfter {α : Type} (written : α → List Char) (before : List Char) (x : α) (xs : List α) :
    Prop := ∃ front back, xs = front ++ x :: back ∧ front.flatMap written = before

section OccursAfter

variable {α : Type} {written : α → List Char} {before : List Char} {x y : α} {xs : List α}

theorem not_occursAfter_nil : ¬ OccursAfter written before x [] := by
  rintro ⟨front, back, h, -⟩
  simp at h

theorem occursAfter_cons : OccursAfter written before x (y :: xs) ↔
    (y = x ∧ before = []) ∨
      ∃ before', before = written y ++ before' ∧ OccursAfter written before' x xs := by
  constructor
  · rintro ⟨front, back, h, rfl⟩
    cases front with
    | nil => exact .inl ⟨(List.cons.inj h).1, rfl⟩
    | cons z front =>
      obtain ⟨rfl, rfl⟩ := List.cons.inj h
      exact .inr ⟨_, rfl, front, back, rfl, rfl⟩
  · rintro (⟨rfl, rfl⟩ | ⟨_, rfl, front, back, rfl, rfl⟩)
    · exact ⟨[], xs, rfl, rfl⟩
    · exact ⟨y :: front, back, rfl, rfl⟩

end OccursAfter

def Part.source : Part → List Char
  | .text t => t.toList
  | .parameter name => ':' :: name.toList

def Part.isText : Part → Bool
  | .text _ => true
  | .parameter _ => false

theorem flatMap_textPartOf (cs : List Char) : (textPartOf cs).flatMap Part.source = cs := by
  cases cs <;> simp [textPartOf, Part.source]

theorem flatMap_partsOf (pending : List Char) (ls : List Lexeme) :
    (partsOf pending ls).flatMap Part.source = pending ++ ls.flatMap chars := by
  fun_induction partsOf pending ls with
  | case1 => simp [flatMap_textPartOf]
  | case2 pending name ls ih =>
    rw [List.flatMap_append, flatMap_textPartOf, List.flatMap_cons, ih, List.nil_append,
      List.flatMap_cons, Part.source, String.toList_ofList, chars]
  | case3 pending l ls hl ih => rw [ih, List.flatMap_cons, List.append_assoc]

theorem ne_empty_of_mem_textPartOf {cs : List Char} {text : String}
    (h : .text text ∈ textPartOf cs) : text ≠ "" := by
  unfold textPartOf at h
  split at h
  · cases h
  · next hcs =>
    obtain rfl : text = String.ofList cs := by simpa using h
    simpa [String.ofList_eq_empty_iff] using hcs

theorem ne_empty_of_mem_partsOf {pending : List Char} {ls : List Lexeme} {text : String}
    (h : .text text ∈ partsOf pending ls) : text ≠ "" := by
  fun_induction partsOf pending ls with
  | case1 => exact ne_empty_of_mem_textPartOf h
  | case2 pending name ls ih =>
    rcases List.mem_append.1 h with h | h
    · exact ne_empty_of_mem_textPartOf h
    · exact ih (by simpa using h)
  | case3 pending l ls hl ih => exact ih h

def Apart (p q : Part) : Prop := p.isText = false ∨ q.isText = false

theorem isChain_textPartOf (cs : List Char) : (textPartOf cs).IsChain Apart := by
  unfold textPartOf
  split <;> simp

theorem isChain_partsOf (pending : List Char) (ls : List Lexeme) :
    (partsOf pending ls).IsChain Apart := by
  fun_induction partsOf pending ls with
  | case1 pending => exact isChain_textPartOf pending
  | case2 pending name ls ih =>
    refine List.isChain_append.2 ⟨isChain_textPartOf pending, List.isChain_cons.2 ⟨?_, ih⟩, ?_⟩
    · exact fun q _ => .inl rfl
    · rintro p - q hq
      obtain rfl : .parameter (String.ofList name) = q := by simpa using hq
      exact .inr rfl
  | case3 pending l ls hl ih => exact ih

theorem occursAfter_textPartOf {before cs : List Char} {name : String} {parts : List Part} :
    OccursAfter Part.source before (.parameter name) (textPartOf cs ++ parts) ↔
      ∃ before', before = cs ++ before' ∧
        OccursAfter Part.source before' (.parameter name) parts := by
  cases cs with
  | nil => simp [textPartOf]
  | cons c cs =>
    rw [textPartOf, if_neg (by simp), List.cons_append, List.nil_append, occursAfter_cons]
    simp [Part.source]

theorem occursAfter_partsOf {before pending : List Char} {name : String} {ls : List Lexeme} :
    OccursAfter Part.source before (.parameter name) (partsOf pending ls) ↔
      ∃ before', before = pending ++ before' ∧
        OccursAfter chars before' (.parameter name.toList) ls := by
  fun_induction partsOf pending ls generalizing before with
  | case1 pending =>
    rw [← List.append_nil (textPartOf pending), occursAfter_textPartOf]
    simp only [not_occursAfter_nil, and_false, exists_false]
  | case2 pending other ls ih =>
    have hother : Part.parameter (String.ofList other) = .parameter name ↔
        Lexeme.parameter other = .parameter name.toList := by
      rw [Part.parameter.injEq, Lexeme.parameter.injEq, ← String.toList_inj, String.toList_ofList]
    simp only [occursAfter_textPartOf, occursAfter_cons, ih, hother, List.nil_append, Part.source,
      String.toList_ofList, chars, exists_eq_left']
  | case3 pending l ls hl ih =>
    simp only [ih, occursAfter_cons, List.append_assoc]
    constructor
    · rintro ⟨before', rfl, h⟩
      exact ⟨_, rfl, .inr ⟨before', rfl, h⟩⟩
    · rintro ⟨_, rfl, ⟨heq, -⟩ | ⟨before', rfl, h⟩⟩
      · exact absurd heq (hl _)
      · exact ⟨before', rfl, h⟩

def lexemeAt : List Lexeme → Nat → Option Lexeme
  | [], _ => none
  | l :: ls, k => if k < l.chars.length then some l else lexemeAt ls (k - l.chars.length)

theorem lexemeAt_cons_length (l : Lexeme) (ls : List Lexeme) (cs : List Char) :
    lexemeAt (l :: ls) (l.chars ++ cs).length = lexemeAt ls cs.length := by
  rw [lexemeAt, List.length_append, if_neg (Nat.not_lt.2 (Nat.le_add_right _ _)),
    Nat.add_sub_cancel_left]

/-- The lexemes inside which a colon names no parameter. -/
def Lexeme.hides : Lexeme → Bool
  | .quoted .. | .dollarQuoted .. | .lineComment _ | .blockComment .. | .cast => true
  | .parameter _ | .semicolon | .char _ => false

/-- A colon with the text `before` in front of it that none of the lexemes hides, and the name that
follows it. -/
structure Names (ls : List Lexeme) (before name after : List Char) : Prop where
  hides : ∀ l ∈ lexemeAt ls before.length, l.hides = false
  head : ∃ c ∈ after.head?, Text.isNameStart c = true
  name_eq : name = after.takeWhile Text.isNameChar

/-- A colon that a lexeme does not hide opens a parameter or is a character of its own. -/
theorem eq_nil_of_not_hides {prev : Option Char} {l : Lexeme} {rest front back : List Char}
    (hl : l.Fits prev rest) (hides : l.hides = false) (hcolon : l.chars = front ++ ':' :: back) :
    front = [] ∧ (l = .parameter back ∨ l = .char ':') := by
  cases hl with
  | parameter _ hname _ =>
    cases front with
    | nil =>
      obtain ⟨-, rfl⟩ := List.cons.inj hcolon
      exact ⟨rfl, .inl rfl⟩
    | cons c front =>
      obtain ⟨rfl, rfl⟩ := List.cons.inj hcolon
      exact absurd (hname ':' (by simp)) (by decide)
  | semicolon => cases front <;> simp [chars] at hcolon
  | char hc =>
    cases front with
    | nil =>
      obtain ⟨rfl, -⟩ := List.cons.inj hcolon
      exact ⟨rfl, .inr rfl⟩
    | cons c front => simp [chars] at hcolon
  | _ => cases hides

theorem occursAfter_iff_names {prev : Option Char} {text : List Char} {ls : List Lexeme}
    (hls : Lexed prev text ls) {before name : List Char} :
    OccursAfter chars before (.parameter name) ls ↔
      ∃ after, text = before ++ ':' :: after ∧ Names ls before name after := by
  induction hls generalizing before with
  | nil => simp [not_occursAfter_nil]
  | @cons prev l rest ls hl hls ih =>
    rw [occursAfter_cons]
    constructor
    · rintro (⟨rfl, rfl⟩ | ⟨before, rfl, h⟩)
      · cases hl with
        | parameter hhead hname hrest =>
          obtain ⟨c, hc, hstart⟩ := hhead
          refine ⟨name ++ rest, rfl, ?_, ⟨c, ?_, hstart⟩, (takeWhile_append hname hrest).symm⟩
          · simp [lexemeAt, chars, hides]
          · rw [List.head?_append, hc, Option.some_or, Option.mem_some]
      · obtain ⟨after, rfl, hnames⟩ := ih.1 h
        refine ⟨after, by rw [List.append_assoc], ⟨?_, hnames.head, hnames.name_eq⟩⟩
        rw [lexemeAt_cons_length]
        exact hnames.hides
    · rintro ⟨after, htext, hnames⟩
      -- The colon stands after the first lexeme or inside it.
      have hinner : ∀ front, before = l.chars ++ front → rest = front ++ ':' :: after →
          OccursAfter chars front (.parameter name) ls := by
        rintro front rfl rfl
        refine ih.2 ⟨after, rfl, ⟨?_, hnames.head, hnames.name_eq⟩⟩
        have hhides := hnames.hides
        rwa [lexemeAt_cons_length] at hhides
      rcases List.append_eq_append_iff.1 htext with ⟨front, hbefore, hrest⟩ | ⟨back, hchars, hafter⟩
      · exact .inr ⟨front, hbefore, hinner front hbefore hrest⟩
      · cases back with
        | nil =>
          have hbefore : before = l.chars ++ [] := by simpa using hchars.symm
          exact .inr ⟨[], hbefore, hinner [] hbefore hafter.symm⟩
        | cons c back =>
          obtain ⟨rfl, rfl⟩ := List.cons.inj hafter
          have hat : lexemeAt (l :: ls) before.length = some l := by
            rw [lexemeAt, if_pos (by simp [hchars])]
          -- Then it is the first character of that lexeme, and a name after it excludes a plain
          -- colon.
          obtain ⟨rfl, rfl | rfl⟩ := eq_nil_of_not_hides hl (hnames.hides l hat) hchars
          · cases hl with
            | parameter _ hname hrest =>
              have heq := hnames.name_eq.trans (takeWhile_append hname hrest)
              exact .inl ⟨congrArg Lexeme.parameter heq.symm, rfl⟩
          · obtain ⟨c, hc, hstart⟩ := hnames.head
            obtain rfl : back = [] := by simpa [chars] using hchars.symm
            cases hl with
            | char hplain =>
              rw [(hplain.colon rfl c hc).2] at hstart
              cases hstart

theorem parts_parse (sql : String) : (NamedSql.parse sql).parts = partsOf [] (scan sql.toList) := by
  rw [NamedSql.parse, scanParts_eq]
  rfl

def Lexeme.name? : Lexeme → Option String
  | .parameter name => some (String.ofList name)
  | _ => none

theorem Lexeme.name?_of_ne {l : Lexeme} (h : ∀ name, l ≠ .parameter name) : l.name? = none := by
  cases l with
  | parameter name => exact absurd rfl (h name)
  | _ => rfl

theorem filterMap_nameOf?_textPartOf (cs : List Char) :
    (textPartOf cs).filterMap NamedSql.nameOf? = [] := by
  cases cs <;> rfl

theorem filterMap_nameOf?_partsOf (pending : List Char) (ls : List Lexeme) :
    (partsOf pending ls).filterMap NamedSql.nameOf? = ls.filterMap name? := by
  fun_induction partsOf pending ls with
  | case1 pending => exact filterMap_nameOf?_textPartOf pending
  | case2 pending name ls ih =>
    rw [List.filterMap_append, filterMap_nameOf?_textPartOf, List.nil_append]
    exact congrArg (String.ofList name :: ·) ih
  | case3 pending l ls hl ih =>
    rw [ih, List.filterMap_cons_none (name?_of_ne hl)]

theorem names_parse (sql : String) :
    (NamedSql.parse sql).names = (scan sql.toList).filterMap name? := by
  rw [NamedSql.names, parts_parse, filterMap_nameOf?_partsOf]

/-- The scan of a statement for its parts does not fail and loses nothing. The parameters are the
colons that the statement's only list of lexemes does not hide and a name follows, each with the
longest name. -/
theorem parse_exact (sql : String) :
    scanParts sql = .ok (NamedSql.parse sql).parts ∧
      String.ofList ((NamedSql.parse sql).parts.flatMap Part.source) = sql ∧
      (∀ text, .text text ∈ (NamedSql.parse sql).parts → text ≠ "") ∧
      (NamedSql.parse sql).parts.IsChain Apart ∧
      ∃ ls, (∀ ls', Lexed none sql.toList ls' ↔ ls' = ls) ∧ ∀ before name,
        OccursAfter Part.source before (.parameter name) (NamedSql.parse sql).parts ↔
          ∃ after, sql.toList = before ++ ':' :: after ∧ Names ls before name.toList after := by
  rw [parts_parse]
  have hlexed := lexed_scan sql.toList
  refine ⟨scanParts_eq sql, ?_, fun _ => ne_empty_of_mem_partsOf, isChain_partsOf _ _, ?_⟩
  · rw [flatMap_partsOf, List.nil_append, hlexed.chars_eq, String.ofList_toList]
  · refine ⟨scan sql.toList, fun ls' => lexed_iff.trans eq_comm, fun before name => ?_⟩
    rw [occursAfter_partsOf, ← occursAfter_iff_names hlexed]
    simp only [List.nil_append, exists_eq_left']

end QueryMapping.Sql
