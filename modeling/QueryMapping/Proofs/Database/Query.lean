import QueryMapping.Proofs.Database.Prepare
import QueryMapping.Proofs.Database.Recorded

/-! How a request to the database ends, and what it has sent by then. Nothing is sent before the
strategy, the parameters and the values have been found good; then one statement is sent, and what
goes wrong after that is told apart by who reports it. -/

namespace QueryMapping

variable {σ μ α β : Type}

/-- How a request ends: its result, the state it leaves and what it has sent. `found` is its
strategy, unless there is none, and `read` is what the strategy makes of an answer. -/
inductive Ends (b : Backend σ) (s : σ) (sql : String) (params : Params)
    (found : Except MaterializeError μ) (read : μ → Answer → Except MaterializeError α) :
    Except DatabaseError α × σ × List Sent → Prop where
  | unresolved {e : MaterializeError} (hfound : found = .error e) :
      Ends b s sql params found read (.error (.materialize e), s, [])
  | refused {m : μ} {e : DatabaseError} (hfound : found = .ok m) (hrefused : Refused sql params e) :
      Ends b s sql params found read (.error e, s, [])
  | failed {m : μ} {st : PreparedStatement} {e : BackendError} {s' : σ} (hfound : found = .ok m)
      (hready : Ready b.engine sql params st)
      (hrun : b.run s st.sql st.arguments = (.error e, s')) :
      Ends b s sql params found read (.error (.backend e), s', [.statement st.sql st.arguments])
  | unread {m : μ} {st : PreparedStatement} {answer : Answer} {e : MaterializeError} {s' : σ}
      (hfound : found = .ok m) (hready : Ready b.engine sql params st)
      (hrun : b.run s st.sql st.arguments = (.ok answer, s')) (hread : read m answer = .error e) :
      Ends b s sql params found read (.error (.materialize e), s', [.statement st.sql st.arguments])
  | answered {m : μ} {st : PreparedStatement} {answer : Answer} {a : α} {s' : σ}
      (hfound : found = .ok m) (hready : Ready b.engine sql params st)
      (hrun : b.run s st.sql st.arguments = (.ok answer, s')) (hread : read m answer = .ok a) :
      Ends b s sql params found read (.ok a, s', [.statement st.sql st.arguments])

def request (found : Except MaterializeError μ) (read : μ → Answer → Except MaterializeError α)
    (sql : String) (params : Params) (b : Backend σ) (s : σ) : Except DatabaseError α × σ :=
  match found with
  | .error e => (.error (.materialize e), s)
  | .ok m =>
    match prepare b.engine sql params with
    | .error e => (.error e, s)
    | .ok st =>
      match b.run s st.sql st.arguments with
      | (.error e, s') => (.error (.backend e), s')
      | (.ok answer, s') => ((read m answer).mapError .materialize, s')

section Request

variable {found : Except MaterializeError μ} {read : μ → Answer → Except MaterializeError α}
  {sql : String} {params : Params} {b : Backend σ} {s : σ}

theorem request_plain (sent : List Sent) :
    request found read sql params b s =
      ((request found read sql params b.recorded (s, sent)).1,
        (request found read sql params b.recorded (s, sent)).2.1) := by
  cases found with
  | error e => rfl
  | ok m =>
    simp only [request, Backend.recorded]
    cases prepare b.engine sql params with
    | error e => rfl
    | ok st =>
      dsimp only
      generalize b.run s st.sql st.arguments = run
      obtain ⟨_ | answer, s'⟩ := run <;> rfl

theorem ends_request :
    Ends b s sql params found read (request found read sql params b.recorded (s, [])) := by
  cases hfound : found with
  | error e => exact .unresolved rfl
  | ok m =>
    simp only [request, Backend.recorded]
    cases hprepare : prepare b.engine sql params with
    | error e => exact .refused rfl (prepare_eq_error_iff.1 hprepare)
    | ok st =>
      have hready := prepare_eq_ok_iff.1 hprepare
      simp only
      cases hrun : b.run s st.sql st.arguments with
      | mk outcome s' =>
        cases outcome with
        | error e => exact .failed rfl hready hrun
        | ok answer =>
          dsimp only
          cases hread : read m answer with
          | error e => exact .unread rfl hready hrun hread
          | ok a => exact .answered rfl hready hrun hread

theorem Ends.request_eq {out : Except DatabaseError α × σ × List Sent}
    (h : Ends b s sql params found read out) :
    request found read sql params b.recorded (s, []) = out := by
  cases h with
  | unresolved hfound => simp [request, hfound]
  | refused hfound hrefused =>
    simp [request, hfound, Backend.recorded, prepare_eq_error_iff.2 hrefused]
  | failed hfound hready hrun =>
    simp [request, hfound, Backend.recorded, prepare_eq_ok_iff.2 hready, hrun]
  | unread hfound hready hrun hread =>
    simp [request, hfound, Backend.recorded, prepare_eq_ok_iff.2 hready, hrun, hread,
      Except.mapError]
  | answered hfound hready hrun hread =>
    simp [request, hfound, Backend.recorded, prepare_eq_ok_iff.2 hready, hrun, hread,
      Except.mapError]

end Request

/-- What a call does on a backend, told by a record of what it sends, which changes nothing else. -/
structure Observed (call : ∀ σ : Type, Backend σ → σ → Except DatabaseError α × σ)
    (b : Backend σ) (s : σ) (ways : Except DatabaseError α × σ × List Sent → Prop) : Prop where
  recorded : ∀ out, call _ b.recorded (s, []) = out ↔ ways out
  plain : call _ b s = ((call _ b.recorded (s, [])).1, (call _ b.recorded (s, [])).2.1)

theorem observed_of_eq_request {call : ∀ σ : Type, Backend σ → σ → Except DatabaseError α × σ}
    {found : Except MaterializeError μ} {read : μ → Answer → Except MaterializeError α}
    {sql : String} {params : Params} (h : ∀ σ b s, call σ b s = request found read sql params b s)
    (b : Backend σ) (s : σ) :
    Observed call b s (Ends b s sql params found read) := by
  refine ⟨fun out => ?_, ?_⟩
  · rw [h]
    exact ⟨fun hout => hout ▸ ends_request, Ends.request_eq⟩
  · rw [h, h]
    exact request_plain []

namespace QueryTemplate

variable {sql : String} {params : Params} {b : Backend σ} {s : σ}

theorem send_eq :
    send b s sql params =
      match prepare b.engine sql params with
      | .error e => (.error e, s)
      | .ok st =>
        ((b.run s st.sql st.arguments).1.mapError .backend, (b.run s st.sql st.arguments).2) := by
  unfold send
  cases prepare b.engine sql params <;> rfl

theorem queryResolved_eq_request (found : Except MaterializeError (Materializer α)) :
    queryResolved b s sql params found =
      request found (fun m answer => (m.materialize answer.cursor).1) sql params b s := by
  cases found with
  | error e => rfl
  | ok m =>
    simp only [queryResolved, query, send_eq, request]
    cases prepare b.engine sql params with
    | error e => rfl
    | ok st =>
      dsimp only
      generalize b.run s st.sql st.arguments = run
      obtain ⟨_ | answer, s'⟩ := run <;> rfl

theorem single_queryResolved_eq_request (found : Except MaterializeError (Materializer α)) :
    (single (queryResolved b s sql params found).1, (queryResolved b s sql params found).2) =
      request found (fun m answer => (m.materialize answer.cursor).1 >>= Materialized.intoSingle)
        sql params b s := by
  rw [queryResolved_eq_request]
  cases found with
  | error e => rfl
  | ok m =>
    simp only [request]
    cases prepare b.engine sql params with
    | error e => rfl
    | ok st =>
      dsimp only
      generalize b.run s st.sql st.arguments = run
      obtain ⟨_ | answer, s'⟩ := run
      · rfl
      · dsimp only
        cases (m.materialize answer.cursor).1 <;> rfl

theorem execute_eq_request :
    execute b s sql params =
      request (.ok ()) (fun _ answer => .ok answer.affected) sql params b s := by
  simp only [execute, send_eq, request]
  cases prepare b.engine sql params with
  | error e => rfl
  | ok st =>
    dsimp only
    generalize b.run s st.sql st.arguments = run
    obtain ⟨_ | answer, s'⟩ := run <;> rfl

variable {τ : Type} [TypeFamily τ] [DecidableEq τ]

/-- Requests end as `Ends` says and in no other way, whatever the registry, the default mappers and
the backend are. -/
theorem requests_end (q : QueryTemplate τ) (b : Backend σ) (s : σ) (params : Params) :
    (∀ sql key t, Observed (fun _ b s => q.queryWith b s sql params key t) b s
      (Ends b s sql params (q.registry.resolve key t) fun m answer =>
        (m.materialize answer.cursor).1)) ∧
    (∀ method t, Observed (fun _ b s => q.queryForList b s method params t) b s
      (Ends b s method.sql params (q.defaults.resolveList q.registry method t) fun m answer =>
        (m.materialize answer.cursor).1 >>= Materialized.intoSingle)) ∧
    (∀ method t, Observed (fun _ b s => q.queryForObject b s method params t) b s
      (Ends b s method.sql params (method.resolveWhole q.registry t) fun m answer =>
        (m.materialize answer.cursor).1 >>= Materialized.intoSingle)) ∧
    ∀ sql, Observed (fun _ b s => execute b s sql params) b s
      (Ends b s sql params (.ok ()) fun _ answer => .ok answer.affected) :=
  ⟨fun _ _ _ => observed_of_eq_request (fun _ _ _ => queryResolved_eq_request _) b s,
    fun _ _ => observed_of_eq_request (fun _ _ _ => single_queryResolved_eq_request _) b s,
    fun _ _ => observed_of_eq_request (fun _ _ _ => single_queryResolved_eq_request _) b s,
    fun _ => observed_of_eq_request (fun _ _ _ => execute_eq_request) b s⟩

/-- A document with a blank before it is bound as it is, and sent without the blank. -/
theorem blank_is_not_sent :
    let b : Backend Unit :=
      ⟨.postgres, fun s _ _ => (.ok ⟨Cursor.ofRows [] [], 1⟩, s), fun s _ => (.ok 0, s)⟩
    let params := Params.empty.bind "b" (.typed ⟨"json", some " {}"⟩)
    (NamedSql.parse "INSERT INTO doc VALUES (:b)").values params =
      .ok [.typed ⟨"json", some " {}"⟩] ∧
      execute b.recorded ((), []) "INSERT INTO doc VALUES (:b)" params =
        (.ok 1, (), [.statement "INSERT INTO doc VALUES ($1)" [.document false "{}"]]) ∧
      Argument.document false "{}" ≠ .document false " {}" := by
  decide +kernel

end QueryTemplate

end QueryMapping
