import QueryMapping.Proofs.Sql.Rescan
import QueryMapping.Proofs.Text.Fold

/-! The first keyword of a statement, in its script and in the statement that is made of it. -/

namespace QueryMapping

namespace Text

variable {cs : List Char}

theorem takeWhile_isNameChar_trimEnd (cs : List Char) :
    (trimEnd cs).takeWhile isNameChar = cs.takeWhile isNameChar := by
  induction cs with
  | nil => rfl
  | cons c cs ih =>
    cases hc : isBlank c with
    | false =>
      rw [trimEnd_cons_of_not_blank hc, List.takeWhile_cons, List.takeWhile_cons, ih]
    | true =>
      -- Whatever is left begins with the blank, so that no name begins here.
      have hname := isNameChar_of_isBlank hc
      have hstart := trimEnd_isPrefix (c :: cs)
      rw [List.takeWhile_cons_of_neg (by simp [hname])]
      cases hrest : trimEnd (c :: cs) with
      | nil => rfl
      | cons d ds =>
        rw [hrest, List.cons_prefix_cons] at hstart
        rw [hstart.1, List.takeWhile_cons_of_neg (by simp [hname])]

theorem trimStart_trim (cs : List Char) : trimStart (trim cs) = trim cs := by
  induction cs with
  | nil => rfl
  | cons c cs ih =>
    cases hc : isBlank c with
    | true => rwa [trim_cons_of_blank hc]
    | false => rw [trim_cons_of_not_blank hc, trimStart_cons_of_not_blank hc]

theorem trimEnd_cons_ne_nil {c : Char} (hc : isBlank c = false) : trimEnd (c :: cs) ≠ [] := by
  rw [trimEnd_cons_of_not_blank hc]
  exact List.cons_ne_nil _ _

end Text

namespace Sql

open Lexeme

def Lexeme.isSpace (l : Lexeme) : Bool := l.isComment || l.isGap

def keyword (piece : List Lexeme) : List Char :=
  ((piece.dropWhile isSpace).flatMap chars).takeWhile Text.isNameChar

def pieces (script : String) : List (List Lexeme) :=
  ((scan script.toList).splitOn .semicolon).filter fun piece => !piece.all isSpace

def statementText (piece : List Lexeme) : String :=
  String.ofList (Text.trim (piece.flatMap written))

variable {before : Option Char} {after : List Char} {ls : List Lexeme} {l : Lexeme}
    {s script : String}

theorem written_of_not_isComment (h : l.isComment = false) : l.written = l.chars := by
  cases l with
  | lineComment | blockComment => cases h
  | _ => rfl

theorem Reads.dropWhile (h : Reads after before ls) (p : Lexeme → Bool) :
    ∃ before', Reads after before' (ls.dropWhile p) := by
  induction ls generalizing before with
  | nil => exact ⟨before, h⟩
  | cons l ls ih =>
    cases hl : p l with
    | true =>
      rw [List.dropWhile_cons_of_pos hl]
      exact ih h.2
    | false =>
      rw [List.dropWhile_cons_of_neg (by simp [hl])]
      exact ⟨before, h⟩

theorem not_isBlank_written {rest : List Char} (hl : l.Fits before rest)
    (hspace : l.isSpace = false) :
    ∃ c cs, l.written = c :: cs ∧ Text.isBlank c = false := by
  obtain ⟨hcomment, hgap⟩ := Bool.or_eq_false_iff.1 hspace
  rw [written_of_not_isComment hcomment]
  exact not_isBlank_head hl hgap

theorem trimStart_written (h : Reads after before ls) :
    Text.trimStart (ls.flatMap written) = (ls.dropWhile isSpace).flatMap written := by
  induction ls generalizing before with
  | nil => rfl
  | cons l ls ih =>
    rw [List.flatMap_cons]
    cases hspace : l.isSpace with
    | false =>
      obtain ⟨c, cs, hcs, hc⟩ := not_isBlank_written h.1 hspace
      rw [List.dropWhile_cons_of_neg (by simp [hspace]), List.flatMap_cons, hcs, List.cons_append,
        Text.trimStart_cons_of_not_blank hc]
    | true =>
      rw [List.dropWhile_cons_of_pos hspace, ← ih h.2]
      cases l with
      | lineComment => rfl
      | blockComment => exact Text.trimStart_cons_of_blank (by decide)
      | char c => exact Text.trimStart_cons_of_blank hspace
      | _ => cases hspace

theorem trim_written_eq_nil_iff (h : Reads after before ls) :
    Text.trim (ls.flatMap written) = [] ↔ ls.all isSpace = true := by
  rw [Text.trim, trimStart_written h, List.all_eq_true, ← List.dropWhile_eq_nil_iff]
  obtain ⟨before', hreads⟩ := h.dropWhile isSpace
  cases hrest : ls.dropWhile isSpace with
  | nil => exact iff_of_true rfl rfl
  | cons l rest =>
    have hl : l.isSpace = false := by
      have hhead := List.head?_dropWhile_not isSpace ls
      rwa [hrest] at hhead
    rw [hrest] at hreads
    obtain ⟨c, cs, hcs, hc⟩ := not_isBlank_written hreads.1 hl
    refine iff_of_false ?_ (List.cons_ne_nil _ _)
    rw [List.flatMap_cons, hcs]
    exact Text.trimEnd_cons_ne_nil hc

theorem takeWhile_written (h : Reads after before ls) :
    (ls.flatMap written).takeWhile Text.isNameChar =
      (ls.flatMap chars).takeWhile Text.isNameChar := by
  induction ls generalizing before with
  | nil => rfl
  | cons l ls ih =>
    obtain ⟨hl, hls⟩ := h
    have hrest := ih hls
    rw [List.flatMap_cons, List.flatMap_cons]
    cases l with
    | lineComment body =>
      -- A newline or the end follows the comment, so that nothing is joined to what stands before
      -- it.
      have hnone : (ls.flatMap chars).takeWhile Text.isNameChar = [] := by
        cases hl with
        | lineComment _ hnewline =>
          cases htext : ls.flatMap chars with
          | nil => rfl
          | cons c cs =>
            obtain rfl : c = '\n' := hnewline c (by simp [htext])
            rfl
      exact (hrest.trans hnone).trans rfl
    | blockComment => rfl
    | _ =>
      dsimp only [written]
      rw [List.takeWhile_append, List.takeWhile_append, hrest]

theorem keyword_statementText (h : Reads after before ls) :
    (statementText ls).toList.takeWhile Text.isNameChar = keyword ls := by
  obtain ⟨before', hreads⟩ := h.dropWhile isSpace
  rw [statementText, String.toList_ofList, Text.trim, trimStart_written h,
    Text.takeWhile_isNameChar_trimEnd, takeWhile_written hreads, keyword]

theorem exists_reads_of_mem_splitOn {piece : List Lexeme} (h : Reads after before ls)
    (hpiece : piece ∈ ls.splitOn .semicolon) : ∃ before' after', Reads after' before' piece := by
  induction ls using pieces_induction Lexeme.semicolon generalizing before with
  | last ls hls =>
    rw [List.splitOn_eq_singleton hls, List.mem_singleton] at hpiece
    exact ⟨before, after, hpiece ▸ h⟩
  | next first rest hfirst ih =>
    obtain ⟨hreads, hrest⟩ := reads_append_semicolon.1 h
    rw [List.splitOn_append_cons_self_of_not_mem hfirst] at hpiece
    rcases List.mem_cons.1 hpiece with rfl | hpiece
    · exact ⟨_, _, hreads⟩
    · exact ih hrest hpiece

theorem exists_reads_of_mem_pieces {piece : List Lexeme} (h : piece ∈ pieces script) :
    ∃ before' after', Reads after' before' piece :=
  exists_reads_of_mem_splitOn (reads_scan script.toList) (List.mem_filter.1 h).1

theorem statements_eq_map_pieces (script : String) :
    statements script = (pieces script).map statementText := by
  rw [statements_eq, statementsOf, List.filter_map, List.map_map, pieces]
  refine congrArg (List.map statementText) (List.filter_congr fun piece hpiece => ?_)
  obtain ⟨before', after', hreads⟩ := exists_reads_of_mem_splitOn (reads_scan script.toList) hpiece
  rw [Bool.eq_iff_iff]
  simp [trim_written_eq_nil_iff hreads]

theorem isDrop_statementText {piece : List Lexeme} (h : piece ∈ pieces script) :
    isDrop (statementText piece) = true ↔ "drop".toList <+: (keyword piece).map Char.toLower := by
  obtain ⟨before', after', hreads⟩ := exists_reads_of_mem_pieces h
  have htrimmed : Text.trimStart (statementText piece).toList = (statementText piece).toList := by
    rw [statementText, String.toList_ofList, Text.trimStart_trim]
  have hword : ∀ c ∈ "drop".toList, Text.isNameChar c = true := List.all_eq_true.1 rfl
  rw [← keyword_statementText hreads, Text.prefix_fold_takeWhile_iff hword, isDrop,
    htrimmed, beq_iff_eq, List.prefix_iff_eq_take, List.map_take]
  exact eq_comm

end Sql

end QueryMapping
