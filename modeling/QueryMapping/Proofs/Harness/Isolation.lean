import Mathlib.Logic.Function.Basic
import QueryMapping.Harness.Context
import QueryMapping.Launch.TemporaryFile
import QueryMapping.Proofs.Database.Query
import QueryMapping.Proofs.Database.Shared
import QueryMapping.Proofs.Failure
import QueryMapping.Sample.Entity

/-! Tests one after another on one harness. Of each, only what its script has done is left: the
script runs before the test's transaction is opened, all else runs inside it, and it is never
committed. A test that cannot be prepared leaves what its script did up to the failure. -/

namespace QueryMapping

variable {σ ω δ κ τ : Type}

section Calls

variable [TypeFamily τ]

inductive TestCall (τ : Type) [TypeFamily τ] where
  | execute (sql : String) (params : Params)
  | query (sql : String) (params : Params) (t : OutputType τ) (m : Materializer t.Carrier)
  | queryWith (sql : String) (params : Params) (key : StrategyKey) (t : OutputType τ)
  | queryForList (method : QueryMethod) (params : Params) (t : OutputType τ)
  | queryForObject (method : QueryMethod) (params : Params) (t : OutputType τ)

variable [DecidableEq τ]

def TestCall.perform (q : QueryTemplate τ) (b : Backend σ) (s : σ) : TestCall τ → σ
  | .execute sql params => (QueryTemplate.execute b s sql params).2
  | .query sql params _ m => (QueryTemplate.query b s sql params m).2
  | .queryWith sql params key t => (q.queryWith b s sql params key t).2
  | .queryForList method params t => (q.queryForList b s method params t).2
  | .queryForObject method params t => (q.queryForObject b s method params t).2

theorem state_request {μ α : Type} {found : Except MaterializeError μ}
    {read : μ → Answer → Except MaterializeError α} {sql : String} {params : Params}
    {b : Backend σ} {s : σ} :
    (request found read sql params b s).2 = s ∨
      ∃ text arguments, (request found read sql params b s).2 = (b.run s text arguments).2 := by
  cases found with
  | error e => exact .inl rfl
  | ok m =>
    simp only [request]
    cases prepare b.engine sql params with
    | error e => exact .inl rfl
    | ok st =>
      refine .inr ⟨st.sql, st.arguments, ?_⟩
      dsimp only
      generalize b.run s st.sql st.arguments = run
      obtain ⟨_ | answer, s'⟩ := run <;> rfl

theorem state_queryResolved {α : Type} (found : Except MaterializeError (Materializer α))
    {sql : String} {params : Params} {b : Backend σ} {s : σ} :
    (QueryTemplate.queryResolved b s sql params found).2 = s ∨
      ∃ text arguments, (QueryTemplate.queryResolved b s sql params found).2 =
        (b.run s text arguments).2 := by
  rw [QueryTemplate.queryResolved_eq_request]
  exact state_request

theorem TestCall.perform_cases (q : QueryTemplate τ) (b : Backend σ) (s : σ) (call : TestCall τ) :
    call.perform q b s = s ∨ ∃ text arguments, call.perform q b s = (b.run s text arguments).2 := by
  cases call with
  | execute sql params =>
    rw [perform, QueryTemplate.execute_eq_request]
    exact state_request
  | query sql params t m => exact state_queryResolved (.ok m)
  | queryWith sql params key t => exact state_queryResolved _
  | queryForList method params t => exact state_queryResolved _
  | queryForObject method params t => exact state_queryResolved _

theorem TestCall.perform_inSession (q : QueryTemplate τ) (b : Backend σ) {s : Session σ}
    (h : s.inTransaction = true) (call : TestCall τ) :
    (call.perform q b.inSession s).base = s.base ∧
      (call.perform q b.inSession s).inTransaction = true := by
  obtain ⟨base, transaction⟩ := s
  obtain ⟨t, rfl⟩ := Option.isSome_iff_exists.1 h
  rcases call.perform_cases q b.inSession ⟨base, some t⟩ with h' | ⟨text, arguments, h'⟩ <;>
    rw [h'] <;> exact ⟨rfl, rfl⟩

namespace Fixture

def afterCall (b : PooledBackend σ) (q : QueryTemplate τ) (f : Fixture σ) (call : TestCall τ) :
    Fixture σ :=
  { f with handle := { f.handle with
      pool := (f.handle.pool.use b fun s => ((), call.perform q b.inSession s)).2 } }

def ended (b : PooledBackend σ) (finishes : Bool) (f : Fixture σ) : DatabaseHandle σ :=
  if finishes then { f.handle with pool := (f.handle.pool.rollback? b).elim f.handle.pool (·.2) }
  else f.handle

def IsOpen (seen : σ → δ) (x : δ) (f : Fixture σ) : Prop :=
  f.handle.pool.session.inTransaction = true ∧ seen f.handle.pool.session.base = x

theorem IsOpen.afterCall {seen : σ → δ} {x : δ} {f : Fixture σ} (hf : f.IsOpen seen x)
    (b : PooledBackend σ) (q : QueryTemplate τ) (call : TestCall τ) :
    (f.afterCall b q call).IsOpen seen x := by
  obtain ⟨hopen, rfl⟩ := hf
  obtain ⟨hbase, hopen'⟩ := call.perform_inSession q b.toBackend hopen
  have htake : f.handle.pool.take b = f.handle.pool := by rw [Pool.take, if_pos hopen]
  have huse : (f.afterCall b q call).handle.pool.session =
      call.perform q b.inSession f.handle.pool.session := by
    simp only [Fixture.afterCall, Pool.use, htake, Pool.giveBack, if_pos hopen']
  rw [IsOpen, huse, hbase]
  exact ⟨hopen', rfl⟩

theorem IsOpen.afterCalls {seen : σ → δ} {x : δ} {f : Fixture σ} (hf : f.IsOpen seen x)
    (b : PooledBackend σ) (q : QueryTemplate τ) (calls : List (TestCall τ)) :
    (calls.foldl (Fixture.afterCall b q) f).IsOpen seen x := by
  induction calls generalizing f with
  | nil => exact hf
  | cons call calls ih => exact ih (hf.afterCall b q call)

theorem IsOpen.seen_ended {b : PooledBackend σ} {database : Backend δ} {seen : σ → δ} {x : δ}
    {f : Fixture σ} (hb : b.Shows database seen) (hf : f.IsOpen seen x) (finishes : Bool) :
    seen (f.ended b finishes).pool.session.base = x := by
  obtain ⟨hopen, rfl⟩ := hf
  cases finishes with
  | false => rfl
  | true =>
    obtain ⟨result, pool', hrollback, hidle⟩ := hb.seen_rollback? hopen
    simp only [ended, if_pos, hrollback]
    exact hidle.2

theorem ended_afterCalls (b : PooledBackend σ) (q : QueryTemplate τ) (finishes : Bool)
    (calls : List (TestCall τ)) (f : Fixture σ) :
    ∃ pool, (calls.foldl (Fixture.afterCall b q) f).ended b finishes = { f.handle with pool } := by
  induction calls generalizing f with
  | nil => cases finishes <;> exact ⟨_, rfl⟩
  | cons call calls ih => exact ih (f.afterCall b q call)

end Fixture

structure TestRun (τ : Type) [TypeFamily τ] where
  vendor : Vendor
  test : String
  dir : String
  calls : List (TestCall τ)
  finishes : Bool

namespace TestRun

def perform (h : Host σ ω) (q : QueryTemplate τ) (state : Databases × ω) (r : TestRun τ) :
    Databases × ω :=
  match h.prepare state.1 r.vendor r.test r.dir state.2 with
  | (.error _, d, w) => (d, w)
  | (.ok f, d, w) =>
    (d, h.close ((r.calls.foldl (Fixture.afterCall h.backend q) f).ended h.backend r.finishes) w)

end TestRun

end Calls

namespace Host

/-- The script that preparing a test gets to run, and the data source name of the database that it
is run on. There is none if there is no instance, no database or no script. -/
def population? (h : Host σ ω) (d : Databases) (v : Vendor) (test dir : String) (w : ω) :
    Option (String × Populator) := do
  let i ← (d.get v).1.toOption
  let dsn ← i.source.dsn.toOption
  match h.connect dsn w with
  | (.error _, _) => none
  | (.ok _, w) => return (dsn, ← (h.populator v test dir w).toOption)

/-- Databases are kept outside of the program: what is `held` of the one that a data source name
names is shown by its connections, is changed by nothing but closing them, and is then what they
have shown outside of transactions. -/
structure Keeps (h : Host σ ω) (database : Backend δ) (seen : σ → δ) (which : String → κ)
    (held : ω → κ → δ) [DecidableEq κ] : Prop where
  shows : h.backend.Shows database seen
  refused {dsn : String} {w w' : ω} {e : DatabaseError}
    (hconnect : h.connect dsn w = (.error e, w')) :
    held w' = held w
  connected {dsn : String} {w w' : ω} {handle : DatabaseHandle σ}
    (hconnect : h.connect dsn w = (.ok handle, w')) :
    held w' = held w ∧ handle.pool.session.Idle seen (held w (which dsn))
  closed {dsn : String} {w w' : ω} {handle : DatabaseHandle σ}
    (hconnect : h.connect dsn w = (.ok handle, w')) (pool : Pool σ) (w'' : ω) :
    held (h.close { handle with pool } w'') =
      Function.update (held w'') (which dsn) (seen pool.session.base)

def populated [DecidableEq κ] (database : Backend δ) (which : String → κ) (held : κ → δ)
    (populations : List (String × Populator)) : κ → δ :=
  populations.foldl (fun held p =>
    Function.update held (which p.1) (p.2.populate database (held (which p.1))).2) held

variable [DecidableEq κ] {h : Host σ ω} {database : Backend δ} {seen : σ → δ} {which : String → κ}
  {held : ω → κ → δ}

section Prepare

variable {d : Databases} {v : Vendor} {test dir dsn : String} {w : ω} {p : Populator}

omit [DecidableEq κ] in
theorem population?_eq_some (hp : h.population? d v test dir w = some (dsn, p)) :
    ∃ i handle w', (d.get v).1 = .ok i ∧ i.source.dsn = .ok dsn ∧
    h.connect dsn w = (.ok handle, w') ∧
      h.populator v test dir w' = .ok p := by
  simp only [population?, Option.bind_eq_bind, Option.bind_eq_some_iff, toOption_eq_some_iff] at hp
  obtain ⟨i, hget, dsn', hdsn, hp⟩ := hp
  cases hconnect : h.connect dsn' w with
  | mk connected w' =>
    rw [hconnect] at hp
    cases connected with
    | error e => cases hp
    | ok handle =>
      obtain ⟨p', hpopulator, heq⟩ := Option.bind_eq_some_iff.1 hp
      obtain ⟨rfl, rfl⟩ := Prod.mk.inj (Option.some.inj heq)
      exact ⟨i, handle, w', hget, hdsn, hconnect, toOption_eq_some_iff.1 hpopulator⟩

theorem prepare_of_populator {i : Instance} {handle : DatabaseHandle σ} {w' : ω}
    (hget : (d.get v).1 = .ok i) (hdsn : i.source.dsn = .ok dsn)
    (hconnect : h.connect dsn w = (.ok handle, w')) (hp : h.populator v test dir w' = .ok p) :
    h.prepare d v test dir w =
      match handle.pool.prepareTest h.backend p test with
      | (.error e, pool) => (.error (.database e), (d.get v).2, h.close { handle with pool } w')
      | (.ok report, pool) => (.ok ⟨i, { handle with pool }, report, test⟩, (d.get v).2, w') := by
  have hconnectTo : h.connectTo i w = (.ok handle, w') := by
    simp only [connectTo, hdsn, hconnect]; rfl
  rw [prepare]
  generalize d.get v = got at hget ⊢
  obtain ⟨instance?, d'⟩ := got
  obtain rfl : instance? = .ok i := hget
  simp only [prepareOn, hconnectTo, hp]
  generalize handle.pool.prepareTest h.backend p test = prepared
  obtain ⟨_ | report, pool⟩ := prepared <;> rfl

theorem Keeps.prepare_of_none (hh : h.Keeps database seen which held)
    (hp : h.population? d v test dir w = none) :
    ∃ e w', h.prepare d v test dir w = (.error e, (d.get v).2, w') ∧ held w' = held w := by
  rw [population?] at hp
  rw [prepare]
  generalize d.get v = got at hp ⊢
  obtain ⟨_ | i, d'⟩ := got
  · exact ⟨_, _, rfl, rfl⟩
  simp only [prepareOn, connectTo]
  cases hdsn : i.source.dsn with
  | error e => exact ⟨_, _, rfl, rfl⟩
  | ok dsn =>
    simp only [hdsn, Except.toOption, Option.bind_eq_bind, Option.bind_some] at hp ⊢
    cases hconnect : h.connect dsn w with
    | mk connected w' =>
      rw [hconnect] at hp
      simp only [hconnect]
      cases connected with
      | error e => exact ⟨_, _, rfl, hh.refused hconnect⟩
      | ok handle =>
        cases hpopulator : h.populator v test dir w' with
        | ok p => simp [hpopulator] at hp
        | error e =>
          simp only [Except.mapError, hpopulator]
          refine ⟨_, _, rfl, ?_⟩
          obtain ⟨hheld, hidle⟩ := hh.connected hconnect
          have hclosed := hh.closed hconnect handle.pool w'
          rwa [hidle.2, ← hheld, Function.update_eq_self, hheld] at hclosed

theorem Keeps.prepare_ok (hh : h.Keeps database seen which held)
    (hp : h.population? d v test dir w = some (dsn, p)) {report : PopulateReport}
    (hreport : (p.populate database (held w (which dsn))).1 = .ok report) :
    ∃ f w', h.prepare d v test dir w = (.ok f, (d.get v).2, w') ∧ f.report = report ∧
      f.IsOpen seen (p.populate database (held w (which dsn))).2 ∧ held w' = held w ∧
      ∀ pool w'', held (h.close { f.handle with pool } w'') =
        Function.update (held w'') (which dsn) (seen pool.session.base) := by
  obtain ⟨i, handle, w', hget, hdsn, hconnect, hpopulator⟩ := population?_eq_some hp
  obtain ⟨hheld, hidle⟩ := hh.connected hconnect
  obtain ⟨pool, hprepared, hopen, hseen⟩ := hh.shows.prepareTest_ok hidle test hreport
  rw [prepare_of_populator hget hdsn hconnect hpopulator, hprepared]
  exact ⟨_, _, rfl, rfl, ⟨hopen, hseen⟩, hheld, fun pool w'' => hh.closed hconnect pool w''⟩

theorem Keeps.prepare_error (hh : h.Keeps database seen which held)
    (hp : h.population? d v test dir w = some (dsn, p)) {e : DatabaseError}
    (he : (p.populate database (held w (which dsn))).1 = .error e) :
    ∃ handle pool w', h.connect dsn w = (.ok handle, w') ∧ pool.session.inTransaction = false ∧
      h.prepare d v test dir w =
        (.error (.database e), (d.get v).2, h.close { handle with pool } w') ∧
      held (h.close { handle with pool } w') =
        Function.update (held w) (which dsn) (p.populate database (held w (which dsn))).2 := by
  obtain ⟨i, handle, w', hget, hdsn, hconnect, hpopulator⟩ := population?_eq_some hp
  obtain ⟨hheld, hidle⟩ := hh.connected hconnect
  obtain ⟨pool, hprepared, hout, hseen⟩ := hh.shows.prepareTest_error hidle test he
  rw [prepare_of_populator hget hdsn hconnect hpopulator, hprepared]
  refine ⟨handle, pool, w', hconnect, ?_, rfl, ?_⟩
  · rw [Session.inTransaction, hout]
    rfl
  · rw [hh.closed hconnect pool w', hseen, hheld]

end Prepare

omit [DecidableEq κ] in
theorem scripts_of_population? {d : Databases} {v : Vendor} {test dir dsn : String} {w : ω}
    {p : Populator}
    (hp : h.population? d v test dir w = some (dsn, p)) : ∃ script, p.scripts = [script] := by
  obtain ⟨i, handle, w', -, -, -, hpopulator⟩ := population?_eq_some hp
  simp only [populator] at hpopulator
  split at hpopulator <;> cases hpopulator
  exact ⟨_, rfl⟩

variable [TypeFamily τ] [DecidableEq τ] {q : QueryTemplate τ}

def populations (h : Host σ ω) (q : QueryTemplate τ) :
    Databases × ω → List (TestRun τ) → List (String × Populator)
  | _, [] => []
  | state, r :: runs =>
    (h.population? state.1 r.vendor r.test r.dir state.2).toList ++
      h.populations q (r.perform h q state) runs

theorem Keeps.held_perform (hh : h.Keeps database seen which held) (state : Databases × ω)
    (r : TestRun τ) :
    held (r.perform h q state).2 = populated database which (held state.2)
      (h.population? state.1 r.vendor r.test r.dir state.2).toList := by
  obtain ⟨d, w⟩ := state
  rw [TestRun.perform]
  cases hp : h.population? d r.vendor r.test r.dir w with
  | none =>
    obtain ⟨e, w', hprepare, hheld⟩ := hh.prepare_of_none hp
    rw [hprepare]
    exact hheld
  | some population =>
    obtain ⟨dsn, p⟩ := population
    cases hresult : (p.populate database (held w (which dsn))).1 with
    | error e =>
      obtain ⟨handle, pool, w', -, -, hprepare, hheld⟩ := hh.prepare_error hp hresult
      rw [hprepare]
      exact hheld
    | ok report =>
      obtain ⟨f, w', hprepare, -, hopen, hheld, hclosed⟩ := hh.prepare_ok hp hresult
      rw [hprepare]
      obtain ⟨pool, hended⟩ := f.ended_afterCalls h.backend q r.finishes r.calls
      have hseen := (hopen.afterCalls h.backend q r.calls).seen_ended hh.shows r.finishes
      rw [hended] at hseen
      change held (h.close (Fixture.ended h.backend r.finishes _) w') = _
      rw [hended, hclosed, hheld, hseen]
      rfl

theorem Keeps.held_performs (hh : h.Keeps database seen which held) (state : Databases × ω)
    (runs : List (TestRun τ)) :
    held (runs.foldl (TestRun.perform h q) state).2 =
      populated database which (held state.2) (h.populations q state runs) := by
  induction runs generalizing state with
  | nil => rfl
  | cons r runs ih =>
    rw [List.foldl_cons, ih, hh.held_perform, populations, populated, populated, populated,
      List.foldl_append]

/-- Of tests one after another only what their scripts do remains. A test whose script fails has run
it up to the failing statement, which is in its error, and has no transaction open. -/
theorem Keeps.only_scripts_remain (hh : h.Keeps database seen which held) (q : QueryTemplate τ) :
    (∀ state runs, held (runs.foldl (TestRun.perform h q) state).2 =
        populated database which (held state.2) (h.populations q state runs)) ∧
      ∀ d v test dir w dsn p, h.population? d v test dir w = some (dsn, p) →
        let x := held w (which dsn)
        ((∃ f, (h.prepare d v test dir w).1 = .ok f) ↔
            ∀ t ∈ database.trials x p.statements, t.failed → p.tolerates t.statement) ∧
          ∀ e d' w', h.prepare d v test dir w = (.error e, d', w') →
            ∃ earlier statement cause, p.StopsAt database x earlier statement cause ∧
              e = .database (.script (earlier.length + 1) statement cause) ∧
              held w' =
                Function.update (held w) (which dsn) (database.after x (earlier ++ [statement])) ∧
              (database.after x (earlier ++ [statement]) = database.after x earlier →
                held w' = Function.update (held w) (which dsn) (database.after x earlier)) ∧
              ∃ handle pool w'', h.connect dsn w = (.ok handle, w'') ∧
                pool.session.inTransaction = false ∧ w' = h.close { handle with pool } w'' := by
  refine ⟨hh.held_performs, fun d v test dir w dsn p hp => ?_⟩
  intro x
  obtain ⟨script, hscripts⟩ := scripts_of_population? hp
  rcases Populator.populate_single hscripts database x with
    ⟨⟨report, hreport⟩, hpasses⟩ | ⟨earlier, statement, cause, hstops, hpopulate⟩
  · obtain ⟨f, w', hprepare, -⟩ := hh.prepare_ok hp hreport
    rw [hprepare]
    exact ⟨iff_of_true ⟨f, rfl⟩ hpasses, fun e d' w' h => by cases h⟩
  · obtain ⟨handle, pool, w'', hconnect, hout, hprepare, hheld⟩ :=
      hh.prepare_error hp (congrArg Prod.fst hpopulate)
    rw [hprepare]
    constructor
    · refine iff_of_false ?_ hstops.not_all_pass
      rintro ⟨f, hf⟩
      cases hf
    · intro e d' w' heq
      cases heq
      rw [show (p.populate database (held w (which dsn))).2 =
        _ from congrArg Prod.snd hpopulate] at hheld
      refine ⟨earlier, statement, cause, hstops, rfl, hheld, fun hsame => ?_, handle, pool,
        w'', hconnect, hout, rfl⟩
      rw [hheld, hsame]

end Host

def journal : PooledBackend (List String) where
  engine := .sqlite
  run s sql _ := (.ok ⟨.empty, 1⟩, s ++ [sql])
  runText s sql := if sql = "FAIL" then (.error ⟨"failed"⟩, s) else (.ok 1, s ++ [sql])
  undone began _ := began
  opened := id
  joined _ last := last
  lost? _ := none

def journals : Host (List String) (String → List String) where
  backend := journal
  connect dsn w := (.ok ⟨.sqlite, dsn, none, .ofState (w dsn) 0 10 false⟩, w)
  close handle w := Function.update w handle.dsn handle.pool.session.base
  script? path _ :=
    some (if path = "one-sqlite.sql" then "CREATE; INSERT 1" else "INSERT 2; FAIL; INSERT 3")

theorem journals_keeps : journals.Keeps journal.toBackend id id id where
  shows := {
    outcome _ _ := rfl
    effect _ _ := rfl
    opened _ := rfl
    joined _ _ := rfl
    undone _ _ := rfl }
  refused hconnect := by cases hconnect
  connected hconnect := by cases hconnect; exact ⟨rfl, rfl, rfl⟩
  closed hconnect _ _ := by cases hconnect; rfl

def journalRuns : List (TestRun Sample.Entity) :=
  [⟨.sqlite, "one", "", [.execute "DELETE" .empty], true⟩, ⟨.sqlite, "two", "", [], true⟩,
    ⟨.sqlite, "one", "", [.execute "UPDATE" .empty], false⟩]

theorem journals_only_scripts_remain :
    journals.Keeps journal.toBackend id id id ∧
      (journalRuns.foldl (TestRun.perform journals .empty)
          (.ofLaunchers [TemporaryFile.launcher] [], fun _ => [])).2
            "sqlite:///tmp/sqlite-1/test.db?mode=rwc" =
        ["CREATE", "INSERT 1", "INSERT 2", "CREATE", "INSERT 1"] := by
  refine ⟨journals_keeps, ?_⟩
  have h := (journals_keeps.only_scripts_remain .empty).1
    (.ofLaunchers [TemporaryFile.launcher] [], fun _ => []) journalRuns
  exact (congrFun h _).trans (by decide +kernel)

end QueryMapping
