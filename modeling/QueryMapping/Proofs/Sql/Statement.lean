import QueryMapping.Proofs.Sql.Parameter
import QueryMapping.Proofs.Sql.Rescan

/-! What the splitting of a script preserves: its text between quotes and tags, its parameters, and
its statements, which splitting them again gives back. -/

namespace QueryMapping.Sql

open Lexeme

variable {before : Option Char} {after : List Char} {ls : List Lexeme} {s : String}

/-- A text that splitting gives back as its only statement. -/
structure IsStatement (s : String) : Prop where
  trim_eq : Text.trim s.toList = s.toList
  ne_nil : s.toList ≠ []
  inner : ∀ l ∈ scan s.toList, l.IsInner

theorem mem_finished {cs : List Char} :
    s ∈ finished (String.ofList cs) ↔ s.toList = Text.trim cs ∧ Text.trim cs ≠ [] := by
  rw [finished, String.toList_ofList]
  cases h : Text.trim cs with
  | nil => simp
  | cons c cs => simp [← String.toList_inj]

theorem keeps_of_mem_finished (h : Reads after before ls) (hbefore : MayOpenTag before)
    (hpiece : .semicolon ∉ ls) (hs : s ∈ finished (String.ofList (ls.flatMap written))) :
    Keeps ls (scan s.toList) := by
  rw [(mem_finished.1 hs).1]
  exact keeps_scan_trim h hbefore hpiece

theorem isStatement_of_mem_finished (h : Reads after before ls) (hbefore : MayOpenTag before)
    (hpiece : .semicolon ∉ ls) (hs : s ∈ finished (String.ofList (ls.flatMap written))) :
    IsStatement s := by
  obtain ⟨heq, hne⟩ := mem_finished.1 hs
  refine ⟨?_, ?_, (keeps_of_mem_finished h hbefore hpiece hs).inner⟩
  · rw [heq, Text.trim_idem]
  · rwa [heq]

theorem mayOpenTag_semicolon : MayOpenTag (some ';') := mayOpenTag_some.2 (by decide)

theorem isStatement_of_mem (h : Reads [] before ls) (hbefore : MayOpenTag before)
    (hs : s ∈ statementsOf ls) : IsStatement s := by
  induction ls using pieces_induction Lexeme.semicolon generalizing before with
  | last piece hpiece =>
    rw [statementsOf_piece hpiece] at hs
    exact isStatement_of_mem_finished h hbefore hpiece hs
  | next piece ls hpiece ih =>
    obtain ⟨hreads, hls⟩ := reads_append_semicolon.1 h
    rw [statementsOf_append hpiece] at hs
    rcases List.mem_append.1 hs with hs | hs
    · exact isStatement_of_mem_finished hreads hbefore hpiece hs
    · exact ih hls mayOpenTag_semicolon hs

theorem closed_of_mem_dropLast (h : Reads [] before ls) (hbefore : MayOpenTag before)
    (hs : s ∈ (statementsOf ls).dropLast) : ∀ l ∈ scan s.toList, l.isOpen = false := by
  induction ls using pieces_induction Lexeme.semicolon generalizing before with
  | last piece hpiece =>
    rw [statementsOf_piece hpiece, finished] at hs
    split at hs <;> cases hs
  | next piece ls hpiece ih =>
    obtain ⟨hreads, hls⟩ := reads_append_semicolon.1 h
    -- A piece in front of a semicolon has no lexeme that runs to the end of the script.
    have hfirst : ∀ s ∈ finished (String.ofList (piece.flatMap written)),
        ∀ l ∈ scan s.toList, l.isOpen = false := fun s hs =>
      (keeps_of_mem_finished hreads hbefore hpiece hs).closed (hreads.closed (by simp))
    rw [statementsOf_append hpiece] at hs
    by_cases hnil : statementsOf ls = []
    · rw [hnil, List.append_nil] at hs
      exact hfirst s ((List.dropLast_sublist _).mem hs)
    · rw [List.dropLast_append_of_ne_nil hnil] at hs
      rcases List.mem_append.1 hs with hs | hs
      · exact hfirst s hs
      · exact ih hls mayOpenTag_semicolon hs

theorem IsStatement.finished_eq (h : IsStatement s) :
    finished (String.ofList ((scan s.toList).flatMap written)) = [s] := by
  rw [flatMap_written fun l hl => (h.inner l hl).1, (lexed_scan s.toList).chars_eq, finished,
    String.toList_ofList, h.trim_eq, String.ofList_toList]
  exact if_neg (by simpa using h.ne_nil)

theorem IsStatement.semicolon_not_mem (h : IsStatement s) : .semicolon ∉ scan s.toList :=
  fun hmem => (h.inner _ hmem).2 rfl

theorem IsStatement.statementsOf_eq (h : IsStatement s) : statementsOf (scan s.toList) = [s] := by
  rw [statementsOf_piece h.semicolon_not_mem, h.finished_eq]

theorem IsStatement.reads (h : IsStatement s) (hbefore : MayOpenTag before)
    (hafter : ∀ c ∈ after.head?, joins c = false)
    (hclosed : after ≠ [] → ∀ l ∈ scan s.toList, l.isOpen = false) :
    Reads after before (scan s.toList) :=
  (reads_scan s.toList).congr (fun l hl => (h.inner l hl).1) hclosed
    (fun _ => iff_of_true mayOpenTag_none hbefore) (.stop hafter)

theorem statementsOf_cons_of_isBlank {c : Char} (hc : Text.isBlank c = true) (ls : List Lexeme) :
    statementsOf (.char c :: ls) = statementsOf ls := by
  have hfinished : ∀ cs, finished (String.ofList (c :: cs)) = finished (String.ofList cs) := by
    intro cs
    rw [finished_ofList, finished_ofList, Text.trim_cons_of_blank hc]
  induction ls using pieces_induction Lexeme.semicolon with
  | last piece hpiece =>
    rw [statementsOf_piece hpiece, statementsOf_piece (by simpa using hpiece)]
    exact hfinished _
  | next piece ls hpiece ih =>
    rw [← List.cons_append, statementsOf_append hpiece, statementsOf_append (by simpa using hpiece)]
    exact congrArg (· ++ statementsOf ls) (hfinished _)

/-- Statements of which only the last can lack an end are the statements of the script that they are
put together to. -/
theorem statementsOf_intercalate {ss : List String} (hss : ∀ s ∈ ss, IsStatement s)
    (hclosed : ∀ s ∈ ss.dropLast, ∀ l ∈ scan s.toList, l.isOpen = false)
    (hbefore : MayOpenTag before) :
    statementsOf (scanFrom before (";\n".intercalate ss).toList) = ss := by
  induction ss generalizing before with
  | nil =>
    rw [String.intercalate_nil, String.toList_empty, scanFrom, statementsOf_piece List.not_mem_nil]
    rfl
  | cons s ss ih =>
    obtain ⟨hs, hrest⟩ := List.forall_mem_cons.1 hss
    have htext := (lexed_scan s.toList).chars_eq
    cases ss with
    | nil =>
      have hreads := hs.reads hbefore (by simp) fun hne => absurd rfl hne
      rw [String.intercalate_singleton, ← htext, hreads.scanFrom_eq, hs.statementsOf_eq]
    | cons t ss =>
      -- The first statement's lexemes, a semicolon, a newline, and what the others are read as.
      have hgap : Text.isBlank '\n' = true := by decide
      have hlast : ∀ s ∈ (t :: ss).dropLast, ∀ l ∈ scan s.toList, l.isOpen = false := fun s hs =>
        hclosed s (List.mem_cons_of_mem _ hs)
      have hjoined := ih hrest hlast (mayOpenTag_of_isBlank hgap)
      have hls :=
        lexed_iff_reads.1 (lexed_scanFrom (some '\n') (";\n".intercalate (t :: ss)).toList)
      generalize scanFrom (some '\n') (";\n".intercalate (t :: ss)).toList = ls at hjoined hls
      have hreads : Reads [] before (scan s.toList ++ .semicolon :: .char '\n' :: ls) := by
        refine reads_append_semicolon.2 ⟨hs.reads hbefore (fun c hc => ?_) fun _ => ?_,
          .char (isPlain_of_isBlank hgap _), hls.1⟩
        · obtain rfl : ';' = c := by simpa using hc
          decide
        · exact hclosed s List.mem_cons_self
      have hchars : (scan s.toList ++ .semicolon :: .char '\n' :: ls).flatMap chars =
          (";\n".intercalate (s :: t :: ss)).toList := by
        rw [String.intercalate_cons_cons, String.toList_append, String.toList_append, ← hls.2,
          List.flatMap_append, htext, List.append_assoc]
        rfl
      rw [← hchars, hreads.scanFrom_eq, statementsOf_append hs.semicolon_not_mem, hs.finished_eq,
        statementsOf_cons_of_isBlank hgap, hjoined]
      rfl

theorem survivors_finished (h : Reads after before ls) (hbefore : MayOpenTag before)
    (hpiece : .semicolon ∉ ls) :
    (finished (String.ofList (ls.flatMap written))).flatMap
      (fun s => (scan s.toList).filter survives) = ls.filter survives := by
  rw [← (keeps_scan_trim h hbefore hpiece).survivors, finished, String.toList_ofList]
  cases Text.trim (ls.flatMap written) with
  | nil => rw [scan, scanFrom]; rfl
  | cons c cs => simp

theorem survivors_statementsOf (h : Reads [] before ls) (hbefore : MayOpenTag before) :
    (statementsOf ls).flatMap (fun s => (scan s.toList).filter survives) = ls.filter survives := by
  induction ls using pieces_induction Lexeme.semicolon generalizing before with
  | last piece hpiece => rw [statementsOf_piece hpiece, survivors_finished h hbefore hpiece]
  | next piece ls hpiece ih =>
    obtain ⟨hreads, hls⟩ := reads_append_semicolon.1 h
    rw [statementsOf_append hpiece, List.flatMap_append,
      survivors_finished hreads hbefore hpiece, ih hls mayOpenTag_semicolon, List.filter_append]
    rfl

theorem filterMap_filter_survives {β : Type} {f : Lexeme → Option β}
    (hf : ∀ l, l.survives = false → f l = none) (ls : List Lexeme) :
    (ls.filter survives).filterMap f = ls.filterMap f := by
  rw [List.filterMap_filter]
  refine List.filterMap_congr fun l _ => ?_
  cases hl : l.survives with
  | true => rfl
  | false => exact (hf l hl).symm

theorem filterMap_statements {β : Type} {f : Lexeme → Option β}
    (hf : ∀ l, l.survives = false → f l = none) (script : String) :
    (statements script).flatMap (fun s => (scan s.toList).filterMap f) =
      (scan script.toList).filterMap f := by
  have hsurvivors := survivors_statementsOf (reads_scan script.toList) mayOpenTag_none
  rw [← filterMap_filter_survives hf, ← hsurvivors, List.filterMap_flatMap, statements_eq]
  simp only [filterMap_filter_survives hf]

def Lexeme.enclosed? : Lexeme → Option (List Char)
  | .quoted quote body true => some (Lexeme.quoted quote body true).chars
  | .dollarQuoted tag body true => some (Lexeme.dollarQuoted tag body true).chars
  | _ => none

theorem enclosed?_of_not_survives (l : Lexeme) (h : l.survives = false) : l.enclosed? = none := by
  cases l with
  | quoted _ _ closed | dollarQuoted _ _ closed =>
    obtain rfl : closed = false := h
    rfl
  | _ => rfl

theorem name?_of_not_survives (l : Lexeme) (h : l.survives = false) : l.name? = none := by
  cases l with
  | parameter => cases h
  | _ => rfl

/-- The scan of a script for its statements does not fail and gives the pieces of the script's only
list of lexemes. Read again, the statements have what the script encloses in quotes or tags,
unchanged, once and in order. -/
theorem statements_eq_pieces (script : String) :
    scanStatements script = .ok (statements script) ∧
      ∃ ls, (∀ ls', Lexed none script.toList ls' ↔ ls' = ls) ∧
        statements script = statementsOf ls ∧
        ∃ pieces,
        List.Forall₂ (fun s piece => Lexed none s.toList piece) (statements script) pieces ∧
          pieces.flatten.filterMap enclosed? = ls.filterMap enclosed? := by
  refine ⟨?_, scan script.toList, fun ls' => lexed_iff.trans eq_comm, statements_eq script,
    (statements script).map fun s => scan s.toList, ?_, ?_⟩
  · rw [statements_eq, scanStatements_eq_statementsOf]
  · exact List.forall₂_map_right_iff.2 (List.forall₂_same.2 fun s _ => lexed_scan s.toList)
  · rw [List.filterMap_flatten, List.map_map]
    exact filterMap_statements enclosed?_of_not_survives script

/-- The parameters of a script are those of its statements in order. -/
theorem names_parse_script (script : String) :
    (NamedSql.parse script).names =
      (statements script).flatMap fun s => (NamedSql.parse s).names := by
  simp only [names_parse]
  exact (filterMap_statements name?_of_not_survives script).symm

/-- A statement has neither comments nor semicolons outside quotes and tags, and is its only
statement; a script's statements are the statements of the script that they are put together to. -/
theorem statements_stable (script : String) :
    (∀ s ∈ statements script, statements s = [s] ∧
        ∀ ls, Lexed none s.toList ls → ∀ l ∈ ls, l.isComment = false ∧ l ≠ .semicolon) ∧
      statements (";\n".intercalate (statements script)) = statements script := by
  have hreads := reads_scan script.toList
  rw [statements_eq script]
  have hss : ∀ s ∈ statementsOf (scan script.toList), IsStatement s := fun s =>
    isStatement_of_mem hreads mayOpenTag_none
  refine ⟨fun s hs => ⟨?_, fun ls hls => ?_⟩, ?_⟩
  · rw [statements_eq, (hss s hs).statementsOf_eq]
  · rw [← lexed_iff.1 hls]
    exact (hss s hs).inner
  · rw [statements_eq, scan]
    exact statementsOf_intercalate hss (fun s => closed_of_mem_dropLast hreads mayOpenTag_none)
      mayOpenTag_none

end QueryMapping.Sql
