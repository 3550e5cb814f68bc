import QueryMapping.Proofs.Database.Populate
import QueryMapping.Proofs.Sql.Keyword

/-! Populating where only the failures of statements that drop something are passed over. Which
failures these are is said by the scripts' own text: by the first keyword of each statement. -/

namespace QueryMapping

namespace Populator

variable {σ : Type} {p : Populator} {b : Backend σ} {s : σ} {piece : List Sql.Lexeme}
    {pieces : List (List Sql.Lexeme)}

def piecesOf (scripts : List Script) : List (List Sql.Lexeme) :=
  scripts.flatMap fun script => Sql.pieces script.text

/-- The first keyword is DROP, or it is longer and begins with it. -/
def BeginsWithDrop (piece : List Sql.Lexeme) : Prop :=
  "drop".toList <+: (Sql.keyword piece).map Char.toLower

def OnlyDropsFail (pieces : List (List Sql.Lexeme)) (trials : List Trial) : Prop :=
  List.Forall₂ (fun piece t => t.failed → BeginsWithDrop piece) pieces trials

theorem statements_eq_map_piecesOf (scripts : List Script) :
    (scripts.flatMap fun script => Sql.statements script.text) =
      (piecesOf scripts).map Sql.statementText := by
  rw [piecesOf, List.map_flatMap]
  exact List.flatMap_congr fun script _ => Sql.statements_eq_map_pieces script.text

theorem tolerates_statementText (hdrops : p.ignoreFailedDrops = true)
    (hcontinue : p.continueOnError = false) (h : piece ∈ piecesOf p.scripts) :
    p.tolerates (Sql.statementText piece) = true ↔ BeginsWithDrop piece := by
  obtain ⟨script, -, hpiece⟩ := List.mem_flatMap.1 h
  rw [tolerates, hdrops, hcontinue, Bool.false_or, Bool.true_and]
  exact Sql.isDrop_statementText hpiece

theorem passes_trials_iff
    (h : ∀ piece ∈ pieces, p.tolerates (Sql.statementText piece) = true ↔ BeginsWithDrop piece) :
    (∀ t ∈ b.trials s (pieces.map Sql.statementText), p.passes t) ↔
      OnlyDropsFail pieces (b.trials s (pieces.map Sql.statementText)) := by
  induction pieces generalizing s with
  | nil => exact iff_of_true (List.forall_mem_nil _) .nil
  | cons piece pieces ih =>
    obtain ⟨hpiece, hpieces⟩ := List.forall_mem_cons.1 h
    rw [List.map_cons, Backend.trials, List.forall_mem_cons, OnlyDropsFail,
      List.forall₂_cons, ih hpieces, passes_iff, hpiece]
    rfl

/-- Failures are passed over where the first keyword of the failing statement, behind white space
and comments of its script, begins with DROP. Any other failure ends the run. -/
theorem populate_drops (p : Populator) (hdrops : p.ignoreFailedDrops = true)
    (hcontinue : p.continueOnError = false) (b : Backend σ) (s : σ) :
    let trials := b.trials s ((piecesOf p.scripts).map Sql.statementText)
    ((∃ report, (p.populate b s).1 = .ok report) ↔ OnlyDropsFail (piecesOf p.scripts) trials) ∧
      (∀ report, (p.populate b s).1 = .ok report →
        report = ⟨trials.countP Trial.succeeded, trials.countP Trial.failed⟩) ∧
      ∀ e, (p.populate b s).1 = .error e → ∃ before script rest earlier piece later cause,
        p.scripts = before ++ script :: rest ∧ Sql.pieces script.text = earlier ++ piece :: later ∧
          let done := (piecesOf before ++ earlier).map Sql.statementText
          OnlyDropsFail (piecesOf before ++ earlier) (b.trials s done) ∧
            (b.runText (b.after s done) (Sql.statementText piece)).1 = .error cause ∧
            ¬ BeginsWithDrop piece ∧
            e = .script (earlier.length + 1) (Sql.statementText piece) cause ∧
            (p.populate b s).2 = b.after s (done ++ [Sql.statementText piece]) := by
  intro trials
  have htolerates := fun piece h => @tolerates_statementText p piece hdrops hcontinue h
  have hstatements : p.statements = (piecesOf p.scripts).map Sql.statementText :=
    statements_eq_map_piecesOf p.scripts
  have hpasses := @passes_trials_iff σ p b s _ htolerates
  by_cases h : ∀ t ∈ b.trials s p.statements, p.passes t
  · rw [populate_of_passes h, hstatements]
    rw [hstatements] at h
    refine ⟨iff_of_true ⟨_, rfl⟩ (hpasses.1 h), ?_, fun e he => by cases he⟩
    intro report hreport
    rw [← Except.ok.inj hreport, counted]
    exact congrArg₂ PopulateReport.mk (Nat.zero_add _) (Nat.zero_add _)
  · obtain ⟨before, script, rest, earlier, statement, later, cause, hscripts, hscript, hdone,
        hfails, hp, hrun, -⟩ :=
      populate_of_not_passes h
    rw [hstatements, hpasses] at h
    -- The statements before the one that ends the run are made of the pieces before its own.
    rw [Sql.statements_eq_map_pieces, List.map_eq_append_iff] at hscript
    obtain ⟨earlier, others, hpieces, rfl, hothers⟩ := hscript
    obtain ⟨piece, later, rfl, rfl, rfl⟩ := List.map_eq_cons_iff.1 hothers
    have hsplit :
        piecesOf p.scripts = (piecesOf before ++ earlier) ++ piece :: (later ++ piecesOf rest) := by
      rw [hscripts, piecesOf, List.flatMap_append, List.flatMap_cons, hpieces, List.append_assoc,
        List.append_assoc]
      rfl
    rw [statements_eq_map_piecesOf, ← List.map_append] at hdone hfails hrun
    rw [passes_trials_iff fun piece h =>
      htolerates piece (hsplit ▸ List.mem_append_left _ h)] at hdone
    have hpiece := htolerates piece (hsplit ▸ List.mem_append_right _ (.head _))
    rw [hrun]
    refine ⟨iff_of_false ?_ h, ?_, ?_⟩
    · rintro ⟨report, hreport⟩
      cases hreport
    · intro report hreport
      cases hreport
    · intro e he
      obtain rfl := Except.error.inj he
      refine ⟨before, script, rest, earlier, piece, later, cause, hscripts, hpieces, hdone,
        hfails, ?_, ?_, rfl⟩
      · rw [← hpiece, hp]
        exact Bool.false_ne_true
      · rw [List.length_map]

def refusing : Backend Unit :=
  ⟨.sqlite, fun s _ _ => (.error ⟨"refused"⟩, s), fun s _ => (.error ⟨"refused"⟩, s)⟩

theorem populate_drops_commented :
    let p : Populator :=
      ⟨[⟨"a", "-- old\n/* t */drop TABLE t; CREATE TABLE t (i INT)"⟩], true, false⟩
    let statements := ["drop TABLE t", "CREATE TABLE t (i INT)"]
    p.ignoreFailedDrops = true ∧ p.continueOnError = false ∧
      (p.populate refusing ()).1 = .error (.script 2 "CREATE TABLE t (i INT)" ⟨"refused"⟩) ∧
      ¬ OnlyDropsFail (piecesOf p.scripts) (refusing.trials () statements) := by
  intro p statements
  have hrun : (p.populate refusing ()).1 =
      .error (.script 2 "CREATE TABLE t (i INT)" ⟨"refused"⟩) := by decide +kernel
  have hstatements : (piecesOf p.scripts).map Sql.statementText = statements := by decide +kernel
  obtain ⟨hok, -, -⟩ := populate_drops p rfl rfl refusing ()
  rw [hstatements] at hok
  refine ⟨rfl, rfl, hrun, fun h => ?_⟩
  obtain ⟨report, hreport⟩ := hok.2 h
  rw [hrun] at hreport
  cases hreport

/-- The failure of a statement is passed over whose first keyword is a longer word than DROP. -/
theorem longer_word_is_passed_over :
    let p : Populator := ⟨[⟨"a", "DROPPED TABLE t"⟩], true, false⟩
    (piecesOf p.scripts).map Sql.keyword = ["DROPPED".toList] ∧
      p.populate refusing () = (.ok ⟨0, 1⟩, ()) := by
  decide +kernel

end Populator

end QueryMapping
