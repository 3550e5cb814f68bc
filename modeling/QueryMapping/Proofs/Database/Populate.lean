import Mathlib.Data.List.Basic
import QueryMapping.Database.Populate
import QueryMapping.Proofs.Database.Recorded

/-! Populating a database, compared with running all statements of all scripts whatever becomes of
them. It runs them all if each failure is tolerated, and else as far as the first that is not. -/

namespace QueryMapping

structure Trial where
  statement : String
  outcome : Except BackendError Nat

namespace Trial

def succeeded (t : Trial) : Bool := t.outcome.isOk

def failed (t : Trial) : Bool := !t.succeeded

theorem countP_succeeded_add_failed (trials : List Trial) :
    trials.countP succeeded + trials.countP failed = trials.length := by
  rw [List.length_eq_countP_add_countP succeeded]
  congr 1
  exact List.countP_congr fun t _ => by simp [failed]

end Trial

namespace Backend

variable {σ : Type}

def after (b : Backend σ) (s : σ) (statements : List String) : σ :=
  statements.foldl (fun s statement => (b.runText s statement).2) s

def trials (b : Backend σ) : σ → List String → List Trial
  | _, [] => []
  | s, statement :: rest =>
    ⟨statement, (b.runText s statement).1⟩ :: b.trials (b.runText s statement).2 rest

variable (b : Backend σ) (s : σ) (sent : List Sent)

@[simp] theorem after_nil : b.after s [] = s := rfl

@[simp] theorem after_cons (statement : String) (rest : List String) :
    b.after s (statement :: rest) = b.after (b.runText s statement).2 rest := rfl

theorem length_trials (statements : List String) :
    (b.trials s statements).length = statements.length := by
  induction statements generalizing s with
  | nil => rfl
  | cons statement rest ih => rw [trials, List.length_cons, ih, List.length_cons]

theorem trials_append (done rest : List String) :
    b.trials s (done ++ rest) = b.trials s done ++ b.trials (b.after s done) rest := by
  induction done generalizing s with
  | nil => rfl
  | cons statement done ih =>
    rw [List.cons_append, trials, trials, ih, after_cons, List.cons_append]

theorem after_recorded (statements : List String) :
    b.recorded.after (s, sent) statements =
      (b.after s statements, sent ++ statements.map .text) := by
  induction statements generalizing s sent with
  | nil => simp
  | cons statement rest ih =>
    rw [after_cons, after_cons, List.map_cons, List.append_cons]
    exact ih _ _

theorem trials_recorded (statements : List String) :
    b.recorded.trials (s, sent) statements = b.trials s statements := by
  induction statements generalizing s sent with
  | nil => rfl
  | cons statement rest ih => exact congrArg (_ :: ·) (ih _ _)

end Backend

namespace Populator

variable {σ : Type} {p : Populator} {b : Backend σ} {s : σ}

def statements (p : Populator) : List String :=
  p.scripts.flatMap fun script => Sql.statements script.text

def passes (p : Populator) (t : Trial) : Bool := t.succeeded || p.tolerates t.statement

theorem passes_iff {t : Trial} : p.passes t = true ↔ (t.failed → p.tolerates t.statement) := by
  simp [passes, Trial.failed, or_iff_not_imp_left]

theorem map_snd_numbered (script : Script) :
    (numbered script).map Prod.snd = Sql.statements script.text := by
  rw [numbered, List.map_map]
  exact List.zipIdx_map_fst 1 _

theorem map_snd_flatMap_numbered (scripts : List Script) :
    (scripts.flatMap numbered).map Prod.snd = scripts.flatMap fun script =>
      Sql.statements script.text := by
  rw [List.map_flatMap]
  exact List.flatMap_congr fun script _ => map_snd_numbered script

theorem numbered_eq_append {script : Script} {done rest : List (Nat × String)} {index : Nat}
    {statement : String} (h : numbered script = done ++ (index, statement) :: rest) :
    index = done.length + 1 ∧
      Sql.statements script.text = done.map Prod.snd ++ statement :: rest.map Prod.snd := by
  constructor
  · have hat := congrArg (·[done.length]?) h
    simp only [numbered, List.getElem?_map, List.getElem?_zipIdx, Option.map_map,
      List.getElem?_append_right (Nat.le_refl _), Nat.sub_self, List.getElem?_cons_zero,
      Option.map_eq_some_iff] at hat
    obtain ⟨_, -, heq⟩ := hat
    have hindex : 1 + done.length = index := congrArg Prod.fst heq
    omega
  · rw [← map_snd_numbered, h, List.map_append, List.map_cons]

theorem flatMap_numbered_eq_append {scripts : List Script} {done rest : List (Nat × String)}
    {index : Nat} {statement : String}
    (h : scripts.flatMap numbered = done ++ (index, statement) :: rest) :
    ∃ before script after earlier later, scripts = before ++ script :: after ∧
      Sql.statements script.text = earlier ++ statement :: later ∧ index = earlier.length + 1 ∧
      done.map Prod.snd = before.flatMap (fun script => Sql.statements script.text) ++ earlier := by
  induction scripts generalizing done with
  | nil => simp at h
  | cons script scripts ih =>
    rw [List.flatMap_cons] at h
    rcases List.append_eq_append_iff.1 h with ⟨done', rfl, h'⟩ | ⟨tail, hscript, htail⟩
    · obtain ⟨before, script', after, earlier, later, rfl, hstatements, hindex, hdone⟩ := ih h'
      refine ⟨script :: before, script', after, earlier, later, rfl, hstatements, hindex, ?_⟩
      rw [List.map_append, hdone, map_snd_numbered, List.flatMap_cons, List.append_assoc]
    · cases tail with
      | nil =>
        -- The script ends right before the statement, which is in one of the others.
        obtain ⟨before, script', after, earlier, later, rfl, hstatements, hindex, hdone⟩ :=
          @ih [] htail.symm
        refine ⟨script :: before, script', after, earlier, later, rfl, hstatements, hindex, ?_⟩
        rw [List.append_nil] at hscript
        rw [← hscript, map_snd_numbered, List.flatMap_cons, List.append_assoc, ← hdone,
          List.map_nil, List.append_nil]
      | cons head tail =>
        obtain ⟨rfl, -⟩ := List.cons.inj htail
        obtain ⟨hindex, hstatements⟩ := numbered_eq_append hscript
        refine ⟨[], script, scripts, done.map Prod.snd, tail.map Prod.snd, rfl, hstatements, ?_, ?_⟩
        · rw [hindex, List.length_map]
        · rw [List.flatMap_nil, List.nil_append]

def counted (report : PopulateReport) (trials : List Trial) : PopulateReport :=
  ⟨report.executed + trials.countP Trial.succeeded, report.ignored + trials.countP Trial.failed⟩

theorem counted_cons_ok (report : PopulateReport) (statement : String) (affected : Nat)
    (trials : List Trial) :
    counted report (⟨statement, .ok affected⟩ :: trials) =
      counted { report with executed := report.executed + 1 } trials := by
  rw [counted, List.countP_cons_of_pos rfl, List.countP_cons_of_neg Bool.false_ne_true,
    Nat.add_comm _ 1, ← Nat.add_assoc]
  rfl

theorem counted_cons_error (report : PopulateReport) (statement : String) (e : BackendError)
    (trials : List Trial) :
    counted report (⟨statement, .error e⟩ :: trials) =
      counted { report with ignored := report.ignored + 1 } trials := by
  rw [counted, List.countP_cons_of_pos (p := Trial.failed) rfl,
    List.countP_cons_of_neg Bool.false_ne_true, Nat.add_comm _ 1, ← Nat.add_assoc]
  rfl

theorem runStatements_of_passes {numbered : List (Nat × String)} (report : PopulateReport)
    (h : ∀ t ∈ b.trials s (numbered.map Prod.snd), p.passes t) :
    p.runStatements b report numbered s =
      (.ok (counted report (b.trials s (numbered.map Prod.snd))),
        b.after s (numbered.map Prod.snd)) := by
  induction numbered generalizing s report with
  | nil => rfl
  | cons head rest ih =>
    obtain ⟨index, statement⟩ := head
    rw [List.map_cons, Backend.trials, List.forall_mem_cons] at h
    obtain ⟨hpasses, hrest⟩ := h
    rw [runStatements, List.map_cons, Backend.trials, Backend.after_cons]
    generalize b.runText s statement = run at hpasses hrest ⊢
    obtain ⟨outcome, s'⟩ := run
    cases outcome with
    | ok affected =>
      rw [counted_cons_ok]
      exact ih _ hrest
    | error e =>
      have htolerated : p.tolerates statement = true := hpasses
      rw [counted_cons_error]
      exact (if_pos htolerated).trans (ih _ hrest)

theorem runStatements_of_fails {done rest : List (Nat × String)} {index : Nat} {statement : String}
    {cause : BackendError} (report : PopulateReport)
    (hdone : ∀ t ∈ b.trials s (done.map Prod.snd), p.passes t)
    (hfails : (b.runText (b.after s (done.map Prod.snd)) statement).1 = .error cause)
    (hp : p.tolerates statement = false) :
    p.runStatements b report (done ++ (index, statement) :: rest) s =
      (.error (.script index statement cause), b.after s (done.map Prod.snd ++ [statement])) := by
  induction done generalizing s report with
  | nil =>
    rw [List.map_nil, Backend.after_nil] at hfails
    rw [List.nil_append, runStatements, List.map_nil, List.nil_append, Backend.after_cons,
      Backend.after_nil]
    generalize b.runText s statement = run at hfails ⊢
    obtain ⟨outcome, s'⟩ := run
    obtain rfl : outcome = .error cause := hfails
    simp [hp]
  | cons head done ih =>
    obtain ⟨index', statement'⟩ := head
    rw [List.map_cons, Backend.trials, List.forall_mem_cons] at hdone
    obtain ⟨hpasses, hdone⟩ := hdone
    rw [List.map_cons, Backend.after_cons] at hfails
    rw [List.cons_append, runStatements, List.map_cons, List.cons_append, Backend.after_cons]
    generalize b.runText s statement' = run at hpasses hdone hfails ⊢
    obtain ⟨outcome, s'⟩ := run
    cases outcome with
    | ok affected => exact ih _ hdone hfails
    | error e =>
      have htolerated : p.tolerates statement' = true := hpasses
      exact (if_pos htolerated).trans (ih _ hdone hfails)

theorem exists_first_failure {numbered : List (Nat × String)}
    (h : ¬ ∀ t ∈ b.trials s (numbered.map Prod.snd), p.passes t) :
    ∃ done index statement rest cause, numbered = done ++ (index, statement) :: rest ∧
      (∀ t ∈ b.trials s (done.map Prod.snd), p.passes t) ∧
      (b.runText (b.after s (done.map Prod.snd)) statement).1 = .error cause ∧
      p.tolerates statement = false := by
  induction numbered generalizing s with
  | nil => simp [Backend.trials] at h
  | cons head rest ih =>
    obtain ⟨index, statement⟩ := head
    rw [List.map_cons, Backend.trials, List.forall_mem_cons, not_and_or] at h
    by_cases hpasses : p.passes ⟨statement, (b.runText s statement).1⟩
    · obtain ⟨done, index', statement', rest', cause, rfl, hdone, hfails, hp⟩ :=
        ih (h.resolve_left (not_not_intro hpasses))
      refine ⟨(index, statement) :: done, index', statement', rest', cause, rfl, ?_, hfails, hp⟩
      rw [List.map_cons, Backend.trials, List.forall_mem_cons]
      exact ⟨hpasses, hdone⟩
    · simp only [passes, Bool.not_eq_true, Bool.or_eq_false_iff] at hpasses
      obtain ⟨hfailed, hp⟩ := hpasses
      cases hfails : (b.runText s statement).1 with
      | ok affected => rw [hfails] at hfailed; cases hfailed
      | error cause =>
        exact ⟨[], index, statement, rest, cause, rfl, by simp [Backend.trials], hfails, hp⟩

theorem populate_of_passes (h : ∀ t ∈ b.trials s p.statements, p.passes t) :
    p.populate b s =
      (.ok (counted .zero (b.trials s p.statements)), b.after s p.statements) := by
  rw [statements, ← map_snd_flatMap_numbered] at h ⊢
  exact runStatements_of_passes .zero h

theorem populate_of_not_passes (h : ¬ ∀ t ∈ b.trials s p.statements, p.passes t) :
    ∃ before script rest earlier statement later cause,
      p.scripts = before ++ script :: rest ∧
        Sql.statements script.text = earlier ++ statement :: later ∧
        let done := before.flatMap (fun script => Sql.statements script.text) ++ earlier
        let e := DatabaseError.script (earlier.length + 1) statement cause
        (∀ t ∈ b.trials s done, p.passes t) ∧
          (b.runText (b.after s done) statement).1 = .error cause ∧ p.tolerates statement = false ∧
          p.populate b s = (.error e, b.after s (done ++ [statement])) ∧
          p.populate b.recorded (s, []) =
            (.error e, b.after s (done ++ [statement]), (done ++ [statement]).map .text) := by
  rw [statements, ← map_snd_flatMap_numbered] at h
  obtain ⟨done, index, statement, later', cause, heq, hdone, hfails, hp⟩ := exists_first_failure h
  obtain ⟨before, script, rest, earlier, later, hscripts, hstatements, rfl, hsplit⟩ :=
    flatMap_numbered_eq_append heq
  have hdone' : ∀ t ∈ b.recorded.trials (s, []) (done.map Prod.snd), p.passes t := by
    rwa [b.trials_recorded]
  have hfails' : (b.recorded.runText (b.recorded.after (s, []) (done.map Prod.snd)) statement).1 =
      .error cause := by
    rwa [b.after_recorded]
  refine ⟨before, script, rest, earlier, statement, later, cause, hscripts, hstatements, ?_⟩
  rw [populate, populate, heq, runStatements_of_fails .zero hdone hfails hp,
    runStatements_of_fails .zero hdone' hfails' hp, b.after_recorded, hsplit]
  rw [hsplit] at hdone hfails
  exact ⟨hdone, hfails, hp, rfl, rfl⟩

/-- A statement that populating stops at: it fails and is not tolerated, and nothing before it
stops. -/
structure StopsAt (p : Populator) (b : Backend σ) (s : σ) (earlier : List String)
    (statement : String) (cause : BackendError) : Prop where
  isPart : earlier ++ [statement] <+: p.statements
  passed : ∀ t ∈ b.trials s earlier, t.failed → p.tolerates t.statement
  fails : (b.runText (b.after s earlier) statement).1 = .error cause
  counts : p.tolerates statement = false

theorem populate_single {script : Script} (hscripts : p.scripts = [script])
    (b : Backend σ) (s : σ) :
    ((∃ report, (p.populate b s).1 = .ok report) ∧
        ∀ t ∈ b.trials s p.statements, t.failed → p.tolerates t.statement) ∨
      ∃ earlier statement cause, p.StopsAt b s earlier statement cause ∧
        p.populate b s =
          (.error (.script (earlier.length + 1) statement cause),
            b.after s (earlier ++ [statement])) := by
  simp only [← passes_iff]
  by_cases h : ∀ t ∈ b.trials s p.statements, p.passes t
  · exact .inl ⟨⟨_, congrArg Prod.fst (populate_of_passes h)⟩, h⟩
  · obtain ⟨before, script', rest, earlier, statement, later, cause, hsplit, hstatements,
      hdone, hfails, hp, hpopulate, -⟩ := populate_of_not_passes h
    obtain ⟨rfl, hrest⟩ | ⟨-, hrest⟩ :=
      List.append_eq_singleton_iff.1 (hsplit.symm.trans hscripts) <;>
      cases hrest
    simp only [List.flatMap_nil, List.nil_append, passes_iff] at hdone hfails hpopulate
    refine .inr ⟨earlier, statement, cause, ⟨⟨later, ?_⟩, hdone, hfails, hp⟩, hpopulate⟩
    rw [statements, hscripts, List.flatMap_singleton, hstatements, List.append_assoc,
      List.singleton_append]

theorem StopsAt.not_all_pass {earlier : List String} {statement : String} {cause : BackendError}
    (h : p.StopsAt b s earlier statement cause) :
    ¬ ∀ t ∈ b.trials s p.statements, t.failed → p.tolerates t.statement := by
  obtain ⟨later, hlater⟩ := h.isPart
  intro hall
  have hmem : ⟨statement, .error cause⟩ ∈ b.trials s p.statements := by
    rw [← hlater, List.append_assoc, b.trials_append, ← h.fails]
    exact List.mem_append_right _ (.head _)
  have htolerated := hall _ hmem rfl
  rw [h.counts] at htolerated
  cases htolerated

/-- Populating runs the statements of all scripts in order, each of them once, up to the first
failure that is not tolerated. -/
theorem populate_exact (p : Populator) (b : Backend σ) (s : σ) :
    let trials := b.trials s p.statements
    let run := p.populate b.recorded (s, [])
    p.populate b s = (run.1, run.2.1) ∧
      ((∃ report, run.1 = .ok report) ↔ ∀ t ∈ trials, t.failed → p.tolerates t.statement) ∧
      (∀ report, run.1 = .ok report →
        report.executed = trials.countP Trial.succeeded ∧
          report.ignored = trials.countP Trial.failed ∧
          report.executed + report.ignored = p.statements.length ∧
          run.2 = (b.after s p.statements, p.statements.map .text)) ∧
      ∀ e, run.1 = .error e → ∃ before script rest earlier statement later cause,
        p.scripts = before ++ script :: rest ∧
          Sql.statements script.text = earlier ++ statement :: later ∧
          let done := before.flatMap (fun script => Sql.statements script.text) ++ earlier
          (∀ t ∈ b.trials s done, t.failed → p.tolerates t.statement) ∧
            (b.runText (b.after s done) statement).1 = .error cause ∧
            p.tolerates statement = false ∧
            e = .script (earlier.length + 1) statement cause ∧
            run.2 = (b.after s (done ++ [statement]), (done ++ [statement]).map .text) := by
  intro trials run
  simp only [← passes_iff]
  by_cases h : ∀ t ∈ trials, p.passes t
  · have hrecorded : ∀ t ∈ b.recorded.trials (s, []) p.statements, p.passes t := by
      rwa [b.trials_recorded]
    have hrun :
        run = (.ok (counted .zero trials), b.after s p.statements, p.statements.map .text) := by
      rw [show run = _ from populate_of_passes hrecorded, b.trials_recorded, b.after_recorded,
        List.nil_append]
    rw [hrun]
    refine ⟨populate_of_passes h, iff_of_true ⟨_, rfl⟩ h, ?_, fun e he => by cases he⟩
    intro report hreport
    obtain rfl : counted .zero trials = report := Except.ok.inj hreport
    have hexecuted : (counted .zero trials).executed = trials.countP Trial.succeeded :=
      Nat.zero_add _
    have hignored : (counted .zero trials).ignored = trials.countP Trial.failed := Nat.zero_add _
    refine ⟨hexecuted, hignored, ?_, rfl⟩
    rw [hexecuted, hignored, ← b.length_trials s p.statements, Trial.countP_succeeded_add_failed]
  · obtain ⟨before, script, rest, earlier, statement, later, cause, hscripts, hstatements, hdone,
      hfails, hp, hplain, hrun⟩ := populate_of_not_passes h
    rw [show run = _ from hrun]
    refine ⟨hplain, iff_of_false ?_ h, ?_, ?_⟩
    · rintro ⟨report, hreport⟩
      cases hreport
    · intro report hreport
      cases hreport
    intro e he
    obtain rfl := Except.error.inj he
    exact ⟨before, script, rest, earlier, statement, later, cause, hscripts, hstatements,
      hdone, hfails, hp, rfl, rfl⟩

end Populator

end QueryMapping
