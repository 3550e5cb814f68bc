import QueryMapping.Launch.Slot

/-! What the step of one caller can do to a slot. -/

namespace QueryMapping

namespace Stage

def marked : Stage → Bool
  | .launching .. | .preparing .. | .leaving _ => true
  | .entering | .queued | .permitted | .settling _ | .finished _ => false

end Stage

/-- The steps of an attempt that is marked, from its launch to its result, with what is seen of
them. -/
inductive SlotPlan.Work (plan : SlotPlan) : Stage → Stage → List LaunchEvent → Prop where
  | tick {number delay : Nat} :
    plan.Work (.launching number (delay + 1)) (.launching number delay) []
  | failed {number : Nat} {e : LaunchError}
    (h : (plan.launcher.attempt number).outcome = .error e) :
    plan.Work (.launching number 0) (.leaving (.error e)) []
  | up {number : Nat} {up : DataSource × Option AdminSession}
    (h : (plan.launcher.attempt number).outcome = .ok up) (hpost : plan.postStart = none) :
    plan.Work (.launching number 0) (.leaving (.ok (started number up))) []
  | prepare {number : Nat} {up : DataSource × Option AdminSession} {prepare : PostStart}
    (h : (plan.launcher.attempt number).outcome = .ok up) (hpost : plan.postStart = some prepare) :
    plan.Work (.launching number 0)
      (.preparing (started number up) (prepare (started number up))) []
  | pause {i : Instance} {statements : List String} {pauses : List (List String)}
    {rest : List String} {result : Except LaunchError Unit} :
    plan.Work (.preparing i ⟨statements :: pauses, rest, result⟩)
      (.preparing i ⟨pauses, rest, result⟩)
      (statements.map (.administered plan.launcher.vendor))
  | prepared {i : Instance} {rest : List String} :
    plan.Work (.preparing i ⟨[], rest, .ok ()⟩) (.leaving (.ok i))
      (rest.map (.administered plan.launcher.vendor))
  | unprepared {i : Instance} {rest : List String} {e : LaunchError} :
    plan.Work (.preparing i ⟨[], rest, .error e⟩) (.leaving (.error e))
      (rest.map (.administered plan.launcher.vendor) ++ [.dropped plan.launcher.vendor i.launch])

namespace SlotPlan.Work

variable {plan : SlotPlan} {before after : Stage} {events : List LaunchEvent}

theorem holdsPermit_before (h : plan.Work before after events) : before.holdsPermit = true := by
  cases h <;> rfl

theorem holdsPermit_after (h : plan.Work before after events) : after.holdsPermit = true := by
  cases h <;> rfl

theorem marked (h : plan.Work before after events) : before.marked = after.marked := by
  cases h <;> rfl

end SlotPlan.Work

namespace Slot

/-- The steps of a caller: the stage it is at, the slot and the stage that its step leads to, and
what is seen of the step. -/
inductive Step (plan : SlotPlan) (s : Slot) (caller : Nat) :
    Stage → Slot → Stage → List LaunchEvent → Prop where
  | find {before : Stage} {i : Instance} (hbefore : before = .entering ∨ before = .queued)
    (hstored : s.stored = some i) : Step plan s caller before s (.finished (.ok i)) []
  | take (hstored : s.stored = none) (hpermit : s.permit = none) :
    Step plan s caller .entering { s with permit := some caller } .permitted []
  | wait {holder : Nat} (hstored : s.stored = none) (hpermit : s.permit = some holder) :
    Step plan s caller .entering { s with waiters := s.waiters ++ [caller] } .queued []
  | turn (hstored : s.stored = none) (hpermit : s.permit = some caller) :
    Step plan s caller .queued s .permitted []
  | launch : Step plan s caller .permitted { s with starting := true, launches := s.launches + 1 }
      (.launching (s.launches + 1) (plan.launcher.attempt (s.launches + 1)).delay)
      [.launched plan.launcher.vendor (s.launches + 1)]
  | work {before after : Stage} {events : List LaunchEvent} (h : plan.Work before after events) :
    Step plan s caller before s after events
  | leave {result : Except LaunchError Instance} :
    Step plan s caller (.leaving result) { s with starting := false } (.settling result) []
  | store {i : Instance} : Step plan s caller (.settling (.ok i)) (s.store i) (.finished (.ok i)) []
  | pass {e : LaunchError} :
    Step plan s caller (.settling (.error e)) s.passPermit (.finished (.error e)) []

variable {plan : SlotPlan} {s : Slot} {caller : Nat}

@[simp] theorem get?_moveTo (s : Slot) (caller caller' : Nat) (stage : Stage) :
    (s.moveTo caller stage).callers.get? caller' =
      if caller = caller' then some stage else s.callers.get? caller' :=
  Table.get?_set ..

@[simp] theorem callers_passPermit (s : Slot) : s.passPermit.callers = s.callers := by
  unfold passPermit
  split <;> rfl

@[simp] theorem stored_passPermit (s : Slot) : s.passPermit.stored = s.stored := by
  unfold passPermit
  split <;> rfl

@[simp] theorem starting_passPermit (s : Slot) : s.passPermit.starting = s.starting := by
  unfold passPermit
  split <;> rfl

@[simp] theorem launches_passPermit (s : Slot) : s.passPermit.launches = s.launches := by
  unfold passPermit
  split <;> rfl

@[simp] theorem permit_passPermit (s : Slot) : s.passPermit.permit = s.waiters.head? := by
  unfold passPermit
  split <;> simp [*]

@[simp] theorem waiters_passPermit (s : Slot) : s.passPermit.waiters = s.waiters.tail := by
  unfold passPermit
  split <;> simp [*]

theorem Step.callers_eq {before after : Stage} {s' : Slot} {events : List LaunchEvent}
    (h : Step plan s caller before s' after events) : s'.callers = s.callers := by
  cases h with
  | pass => exact callers_passPermit s
  | find _ _ | take _ _ | wait _ _ | turn _ _ | launch | work _ | leave | store => rfl

theorem moveTo_passPermit (s : Slot) (caller : Nat) (stage : Stage) :
    s.passPermit.moveTo caller stage = (s.moveTo caller stage).passPermit := by
  obtain ⟨stored, starting, launches, permit, waiters, callers⟩ := s
  cases waiters <;> rfl

/-- A caller takes a step, or it has none to take and leaves the slot as it is. It is done when it
is asked for a step once it has finished. -/
theorem advance_cases (plan : SlotPlan) (s : Slot) (caller : Nat) :
    (∃ turn, s.advance plan caller = (s, [], turn) ∧
      ∀ result, turn = .done result → s.callers.get? caller = some (.finished result)) ∨
      ∃ before s' after events turn, s.callers.get? caller = some before ∧
        Step plan s caller before s' after events ∧
        s.advance plan caller = (s'.moveTo caller after, events, turn) ∧
        ∀ result, turn ≠ .done result := by
  cases hstage : s.callers.get? caller with
  | none => exact .inl ⟨.pause, by simp [advance, hstage]⟩
  | some stage =>
    cases stage with
    | entering =>
      refine .inr ?_
      cases hstored : s.stored with
      | some i =>
        exact ⟨_, _, _, _, .more, rfl, .find (.inl rfl) hstored, by simp [advance, hstage, hstored]⟩
      | none =>
        cases hpermit : s.permit with
        | none =>
          exact ⟨_, _, _, _, .more, rfl, .take hstored hpermit,
            by simp [advance, hstage, hstored, hpermit]⟩
        | some holder =>
          exact ⟨_, _, _, _, .more, rfl, .wait hstored hpermit,
            by simp [advance, hstage, hstored, hpermit]⟩
    | queued =>
      cases hstored : s.stored with
      | some i =>
        exact .inr ⟨_, _, _, _, .more, rfl, .find (.inr rfl) hstored,
          by simp [advance, hstage, hstored]⟩
      | none =>
        by_cases hpermit : s.permit = some caller
        · exact .inr ⟨_, _, _, _, .more, rfl, .turn hstored hpermit,
            by simp [advance, hstage, hstored, hpermit]⟩
        · exact .inl ⟨.pause, by simp [advance, hstage, hstored, hpermit]⟩
    | permitted => exact .inr ⟨_, _, _, _, .more, rfl, .launch, by simp [advance, hstage]⟩
    | launching number delay =>
      refine .inr ?_
      cases delay with
      | succ delay => exact ⟨_, _, _, _, .pause, rfl, .work .tick, by simp [advance, hstage]⟩
      | zero =>
        cases hup : (plan.launcher.attempt number).outcome with
        | error e =>
          exact ⟨_, _, _, _, .more, rfl, .work (.failed hup), by simp [advance, hstage, hup]⟩
        | ok up =>
          cases hpost : plan.postStart with
          | none =>
            exact ⟨_, _, _, _, .more, rfl,
              .work (.up hup hpost), by simp [advance, hstage, hup, hpost]⟩
          | some prepare =>
            exact ⟨_, _, _, _, .more, rfl, .work (.prepare hup hpost),
              by simp [advance, hstage, hup, hpost]⟩
    | preparing i left =>
      refine .inr ?_
      obtain ⟨pauses, rest, result⟩ := left
      cases pauses with
      | cons statements pauses =>
        exact ⟨_, _, _, _, .pause, rfl, .work .pause, by simp [advance, hstage]⟩
      | nil =>
        cases result with
        | ok _ => exact ⟨_, _, _, _, .more, rfl, .work .prepared, by simp [advance, hstage]⟩
        | error e => exact ⟨_, _, _, _, .more, rfl, .work .unprepared, by simp [advance, hstage]⟩
    | leaving result => exact .inr ⟨_, _, _, _, .more, rfl, .leave, by simp [advance, hstage]⟩
    | settling result =>
      refine .inr ?_
      cases result with
      | ok i => exact ⟨_, _, _, _, .more, rfl, .store, by simp [advance, hstage]⟩
      | error e => exact ⟨_, _, _, _, .more, rfl, .pass, by simp [advance, hstage]⟩
    | finished result => exact .inl ⟨.done result, by simp [advance, hstage]⟩

end Slot

end QueryMapping
