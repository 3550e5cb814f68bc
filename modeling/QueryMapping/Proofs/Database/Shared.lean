import QueryMapping.Harness.Test
import QueryMapping.Proofs.Database.Populate

/-! Connections that all show one database. Outside of transactions they act on it at once, and what
is done inside a transaction is gone when that is given up; so a test's transaction can hide nothing
that was done before it, and leave nothing behind. -/

namespace QueryMapping

variable {σ δ : Type}

/-- Connections show a database if texts do to what is seen of it what they do to the database, and
a new connection, one that others have been used beside, and one whose transaction is given up all
show it as it is then. -/
structure PooledBackend.Shows (b : PooledBackend σ) (database : Backend δ)
    (seen : σ → δ) : Prop where
  outcome (s : σ) (sql : String) :
    (b.runText s sql).1.map (fun _ => ()) = (database.runText (seen s) sql).1.map fun _ => ()
  effect (s : σ) (sql : String) : seen (b.runText s sql).2 = (database.runText (seen s) sql).2
  opened (last : σ) : seen (b.opened last) = seen last
  joined (own last : σ) : seen (b.joined own last) = seen last
  undone (began left : σ) : seen (b.undone began left) = seen began

def Session.Idle (seen : σ → δ) (s : Session σ) (x : δ) : Prop :=
  s.transaction = none ∧ seen s.base = x

namespace Populator

theorem runStatements_related {b : Backend σ} {c : Backend δ} {R : σ → δ → Prop}
    (hstep : ∀ s x sql, R s x →
      (b.runText s sql).1.map (fun _ => ()) = (c.runText x sql).1.map (fun _ => ()) ∧
        R (b.runText s sql).2 (c.runText x sql).2)
    (p : Populator) (numbered : List (Nat × String)) (report : PopulateReport) {s : σ} {x : δ}
    (h : R s x) :
    (p.runStatements b report numbered s).1 = (p.runStatements c report numbered x).1 ∧
      R (p.runStatements b report numbered s).2 (p.runStatements c report numbered x).2 := by
  induction numbered generalizing report s x with
  | nil => exact ⟨rfl, h⟩
  | cons head rest ih =>
    obtain ⟨index, statement⟩ := head
    obtain ⟨houtcome, hstate⟩ := hstep s x statement h
    rw [runStatements, runStatements]
    generalize b.runText s statement = run at houtcome hstate
    generalize c.runText x statement = run' at houtcome hstate
    obtain ⟨outcome, s'⟩ := run
    obtain ⟨outcome', x'⟩ := run'
    rcases outcome with e | n <;> rcases outcome' with e' | n' <;> cases houtcome
    · dsimp only
      split
      · exact ih _ hstate
      · exact ⟨rfl, hstate⟩
    · exact ih _ hstate

theorem populate_related {b : Backend σ} {c : Backend δ} {R : σ → δ → Prop}
    (hstep : ∀ s x sql, R s x →
      (b.runText s sql).1.map (fun _ => ()) = (c.runText x sql).1.map (fun _ => ()) ∧
        R (b.runText s sql).2 (c.runText x sql).2)
    (p : Populator) {s : σ} {x : δ} (h : R s x) :
    (p.populate b s).1 = (p.populate c x).1 ∧ R (p.populate b s).2 (p.populate c x).2 :=
  p.runStatements_related hstep _ .zero h

end Populator

namespace PooledBackend.Shows

open Session (Idle)

variable {b : PooledBackend σ} {database : Backend δ} {seen : σ → δ} (hb : b.Shows database seen)

include hb

theorem runText_idle (s : Session σ) (x : δ) (sql : String) (h : Idle seen s x) :
    (b.inSession.runText s sql).1.map (fun _ => ()) = (database.runText x sql).1.map (fun _ => ()) ∧
      Idle seen (b.inSession.runText s sql).2 (database.runText x sql).2 := by
  obtain ⟨base, transaction⟩ := s
  obtain ⟨rfl, rfl⟩ := h
  exact ⟨hb.outcome base sql, rfl, hb.effect base sql⟩

theorem populate_idle (p : Populator) {s : Session σ} {x : δ} (h : Idle seen s x) :
    (p.populate b.inSession s).1 = (p.populate database x).1 ∧
      Idle seen (p.populate b.inSession s).2 (p.populate database x).2 :=
  p.populate_related hb.runText_idle h

theorem take_idle {p : Pool σ} {x : δ} (h : Idle seen p.session x) :
    Idle seen (p.take b).session x := by
  obtain ⟨htransaction, rfl⟩ := h
  have hout : p.session.inTransaction = false := by rw [Session.inTransaction, htransaction]; rfl
  rw [Pool.take, hout, if_neg Bool.false_ne_true]
  split
  · exact ⟨rfl, hb.opened _⟩
  · exact ⟨rfl, hb.joined _ _⟩
  · split
    · exact ⟨rfl, hb.opened _⟩
    · exact ⟨htransaction, rfl⟩

theorem giveBack_idle {p : Pool σ} {x : δ} (h : Idle seen p.session x) :
    Idle seen (p.giveBack b).session x := by
  obtain ⟨htransaction, rfl⟩ := h
  have hout : p.session.inTransaction = false := by rw [Session.inTransaction, htransaction]; rfl
  rw [Pool.giveBack, hout, if_neg Bool.false_ne_true]
  split
  · exact ⟨rfl, hb.opened _⟩
  · exact ⟨htransaction, rfl⟩

theorem use_populate_idle (p : Populator) {pool : Pool σ} {x : δ} (h : Idle seen pool.session x) :
    (pool.use b (p.populate b.inSession)).1 = (p.populate database x).1 ∧
      Idle seen (pool.use b (p.populate b.inSession)).2.session (p.populate database x).2 := by
  obtain ⟨hresult, hidle⟩ := hb.populate_idle p (hb.take_idle h)
  exact ⟨hresult, hb.giveBack_idle hidle⟩

/-- A test is prepared as far as its script gets on the database itself. Only after the whole script
is its transaction opened. -/
theorem prepareTest_ok {p : Populator} {pool : Pool σ} {x : δ} {report : PopulateReport}
    (h : Idle seen pool.session x) (label : String) (hp : (p.populate database x).1 = .ok report) :
    ∃ pool', pool.prepareTest b p label = (.ok report, pool') ∧ pool'.session.inTransaction = true ∧
      seen pool'.session.base = (p.populate database x).2 := by
  obtain ⟨hresult, hidle⟩ := hb.use_populate_idle p h
  rw [hp] at hresult
  rw [Pool.prepareTest]
  generalize pool.use b (p.populate b.inSession) = used at hresult hidle
  obtain ⟨result, pool'⟩ := used
  obtain rfl : result = .ok report := hresult
  exact ⟨_, rfl, rfl, (hb.take_idle hidle).2⟩

theorem prepareTest_error {p : Populator} {pool : Pool σ} {x : δ} {e : DatabaseError}
    (h : Idle seen pool.session x) (label : String) (hp : (p.populate database x).1 = .error e) :
    ∃ pool', pool.prepareTest b p label = (.error e, pool') ∧
      Idle seen pool'.session (p.populate database x).2 := by
  obtain ⟨hresult, hidle⟩ := hb.use_populate_idle p h
  rw [hp] at hresult
  rw [Pool.prepareTest]
  generalize pool.use b (p.populate b.inSession) = used at hresult hidle
  obtain ⟨result, pool'⟩ := used
  obtain rfl : result = .error e := hresult
  exact ⟨_, rfl, hidle⟩

theorem seen_rollback? {pool : Pool σ} (h : pool.session.inTransaction = true) :
    ∃ ended pool', pool.rollback? b = some (ended, pool') ∧
      Idle seen pool'.session (seen pool.session.base) := by
  rw [Pool.rollback?, if_pos h]
  refine ⟨_, _, rfl, hb.giveBack_idle ?_⟩
  obtain ⟨t, ht⟩ := Option.isSome_iff_exists.1 h
  simp only [Session.rollback, ht]
  exact ⟨rfl, hb.undone _ _⟩

end PooledBackend.Shows

end QueryMapping
