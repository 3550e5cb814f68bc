import QueryMapping.Proofs.Pieces
import QueryMapping.Proofs.Sql.Split

/-! The statements of a script are the pieces of its lexemes between semicolons. -/

namespace QueryMapping.Sql

open Lexeme

def statementsOf (ls : List Lexeme) : List String :=
  let pieces := (ls.splitOn .semicolon).map fun piece => Text.trim (piece.flatMap written)
  (pieces.filter fun piece => !piece.isEmpty).map String.ofList

section Pieces

variable {piece ls : List Lexeme}

theorem finished_ofList (cs : List Char) :
    finished (String.ofList cs) =
      (([Text.trim cs]).filter fun piece => !piece.isEmpty).map String.ofList := by
  rw [finished, String.toList_ofList]
  cases h : Text.trim cs <;> rfl

theorem statementsOf_piece (h : .semicolon ∉ piece) :
    statementsOf piece = finished (String.ofList (piece.flatMap written)) := by
  rw [statementsOf, List.splitOn_eq_singleton h, finished_ofList]
  rfl

theorem statementsOf_append (h : .semicolon ∉ piece) :
    statementsOf (piece ++ .semicolon :: ls) =
      finished (String.ofList (piece.flatMap written)) ++ statementsOf ls := by
  rw [statementsOf, List.splitOn_append_cons_self_of_not_mem h, finished_ofList]
  simp only [List.map_cons, List.filter_cons, statementsOf]
  split <;> rfl

theorem statementsAfter_append (h : .semicolon ∉ piece) (pending : List Char) :
    statementsAfter pending (piece ++ ls) =
      statementsAfter (pending ++ piece.flatMap written) ls := by
  induction piece generalizing pending with
  | nil => rw [List.nil_append, List.flatMap_nil, List.append_nil]
  | cons l piece ih =>
    obtain ⟨hl, hpiece⟩ := List.ne_and_not_mem_of_not_mem_cons h
    rw [List.cons_append, statementsAfter, ih hpiece, List.flatMap_cons, List.append_assoc]
    exact fun heq => hl heq.symm

end Pieces

theorem statementsAfter_nil_eq (ls : List Lexeme) : statementsAfter [] ls = statementsOf ls := by
  induction ls using pieces_induction Lexeme.semicolon with
  | last piece h =>
    rw [statementsOf_piece h, ← List.append_nil piece, statementsAfter_append h, List.append_nil]
    rfl
  | next piece ls h ih =>
    rw [statementsOf_append h, statementsAfter_append h, statementsAfter, ih]
    rfl

theorem scanStatements_eq_statementsOf (script : String) :
    scanStatements script = .ok (statementsOf (scan script.toList)) := by
  rw [scanStatements_eq, statementsAfter_nil_eq]

theorem statements_eq (script : String) :
    statements script = statementsOf (scan script.toList) := by
  rw [statements, scanStatements_eq_statementsOf]
  rfl

end QueryMapping.Sql
