import QueryMapping.Proofs.Launch.Run

/-! What is seen of the attempts at a vendor's instance. They come one after another. Each begins
with its launch, and the statements that prepare the instance follow in their order, each of them
once at most; an instance that is given up is dropped at the end. -/

namespace QueryMapping

def Preparation.statements (p : Preparation) : List String := p.pauses.flatten ++ p.rest

namespace SlotPlan

variable (plan : SlotPlan)

/-- The statements that are to be sent to the instance of a launch before it is handed out. -/
def initialisation (number : Nat) : List String :=
  match (plan.launcher.attempt number).outcome, plan.postStart with
  | .ok up, some prepare => (prepare (started number up)).statements
  | _, _ => []

def attempted (number : Nat) (sent : List String) : List LaunchEvent :=
  .launched plan.launcher.vendor number :: sent.map (.administered plan.launcher.vendor)

inductive Log : Nat → List LaunchEvent → Prop where
  | nil : Log 0 []
  | attempt {number : Nat} {events : List LaunchEvent} {sent : List String} (h : Log number events)
    (hsent : sent <+: plan.initialisation (number + 1)) :
    Log (number + 1) (events ++ plan.attempted (number + 1) sent)
  | dropped {number : Nat} {events : List LaunchEvent} {sent : List String} (h : Log number events)
    (hsent : sent <+: plan.initialisation (number + 1)) :
    Log (number + 1) (events ++ plan.attempted (number + 1) sent ++
      [.dropped plan.launcher.vendor (number + 1)])

/-- The last attempt is not over. -/
def Underway (number : Nat) (sent : List String) (events : List LaunchEvent) : Prop :=
  ∃ earlier before, number = earlier + 1 ∧ plan.Log earlier before ∧
    events = before ++ plan.attempted number sent

/-- The instance is that of the last launch, and all that was to be sent to it has been. -/
def Initialised (launches : Nat) (events : List LaunchEvent) (i : Instance) : Prop :=
  i.launch = launches ∧ plan.Underway i.launch (plan.initialisation i.launch) events

variable {plan} {number launches : Nat} {sent : List String} {events : List LaunchEvent}

theorem initialisation_of_prepare {up : DataSource × Option AdminSession} {prepare : PostStart}
    (h : (plan.launcher.attempt number).outcome = .ok up) (hpost : plan.postStart = some prepare) :
    plan.initialisation number = (prepare (started number up)).statements := by
  rw [initialisation, h, hpost]

theorem initialisation_of_none (hpost : plan.postStart = none) :
    plan.initialisation number = [] := by
  rw [initialisation, hpost]
  cases (plan.launcher.attempt number).outcome <;> rfl

namespace Underway

theorem log (h : plan.Underway number sent events) (hsent : sent <+: plan.initialisation number) :
    plan.Log number events := by
  obtain ⟨earlier, before, rfl, hlog, rfl⟩ := h
  exact .attempt hlog hsent

theorem log_dropped (h : plan.Underway number sent events)
    (hsent : sent <+: plan.initialisation number) :
    plan.Log number (events ++ [.dropped plan.launcher.vendor number]) := by
  obtain ⟨earlier, before, rfl, hlog, rfl⟩ := h
  exact .dropped hlog hsent

theorem send (h : plan.Underway number sent events) (more : List String) :
    plan.Underway number (sent ++ more)
      (events ++ more.map (.administered plan.launcher.vendor)) := by
  obtain ⟨earlier, before, rfl, hlog, rfl⟩ := h
  exact ⟨earlier, before, rfl, hlog, by simp [attempted]⟩

end Underway

theorem Log.launch (h : plan.Log launches events) :
    plan.Underway (launches + 1) [] (events ++ [.launched plan.launcher.vendor (launches + 1)]) :=
  ⟨launches, events, rfl, h, rfl⟩

end SlotPlan

def Stage.Logged (plan : SlotPlan) (launches : Nat) (events : List LaunchEvent) : Stage → Prop
  | .launching number _ => number = launches ∧ plan.Underway number [] events
  | .preparing i left => i.launch = launches ∧ ∃ sent, plan.Underway i.launch sent events ∧
    sent ++ left.statements = plan.initialisation i.launch
  | .leaving (.ok i) | .settling (.ok i) => plan.Initialised launches events i
  | .entering | .queued | .permitted | .finished _ => True
  | .leaving (.error _) | .settling (.error _) => True

def Stage.instance? : Stage → Option Instance
  | .preparing i _ | .leaving (.ok i) | .settling (.ok i) => some i
  | .entering | .queued | .permitted | .launching .. | .finished _ => none
  | .leaving (.error _) | .settling (.error _) => none

variable {plan : SlotPlan} {launches : Nat} {events new : List LaunchEvent}

theorem Stage.instance?_of_not_holdsPermit {stage : Stage} (h : stage.holdsPermit = false) :
    stage.instance? = none := by
  cases stage with
  | entering | queued | finished result => rfl
  | permitted | launching number delay | preparing i left | leaving result
  | settling result => cases h

theorem Stage.Logged.log_dropped {stage : Stage} {i : Instance}
    (h : stage.Logged plan launches events) (hi : stage.instance? = some i) :
    plan.Log launches (events ++ [.dropped plan.launcher.vendor i.launch]) := by
  cases stage with
  | entering | queued | permitted | launching number delay | finished result => cases hi
  | preparing j left =>
    obtain rfl := Option.some.inj hi
    obtain ⟨rfl, sent, hsent, heq⟩ := h
    exact hsent.log_dropped ⟨_, heq⟩
  | leaving result | settling result =>
    cases result with
    | error e => cases hi
    | ok j =>
      obtain rfl := Option.some.inj hi
      obtain ⟨rfl, hunderway⟩ := h
      exact hunderway.log_dropped List.prefix_rfl

theorem Stage.logged_of_not_holdsPermit {stage : Stage} (h : stage.holdsPermit = false) :
    stage.Logged plan launches events := by
  cases stage with
  | entering | queued | finished result => trivial
  | permitted | launching number delay | preparing i left | leaving result
  | settling result => cases h

theorem SlotPlan.Work.logged {before after : Stage} (hwork : plan.Work before after new)
    (h : before.Logged plan launches events) (hlog : plan.Log launches events) :
    after.Logged plan launches (events ++ new) ∧ plan.Log launches (events ++ new) := by
  cases hwork with
  | tick => exact ⟨by rwa [List.append_nil], by rwa [List.append_nil]⟩
  | failed hup => exact ⟨trivial, by rwa [List.append_nil]⟩
  | @up number up hup hpost =>
    rw [List.append_nil]
    refine ⟨⟨h.1, ?_⟩, hlog⟩
    rw [SlotPlan.initialisation_of_none hpost]
    exact h.2
  | @prepare number up prepare hup hpost =>
    rw [List.append_nil]
    exact ⟨⟨h.1, [], h.2, (SlotPlan.initialisation_of_prepare hup hpost).symm⟩, hlog⟩
  | @pause i statements pauses rest result =>
    obtain ⟨rfl, sent, hsent, heq⟩ := h
    have hsplit :
        (sent ++ statements) ++ (pauses.flatten ++ rest) = plan.initialisation i.launch := by
      rw [← heq]
      simp [Preparation.statements]
    exact ⟨⟨rfl, _, hsent.send statements, hsplit⟩,
      (hsent.send statements).log ⟨_, hsplit⟩⟩
  | @prepared i rest =>
    obtain ⟨rfl, sent, hsent, heq⟩ := h
    have hall : sent ++ rest = plan.initialisation i.launch := heq
    have hunderway := hsent.send rest
    exact ⟨⟨rfl, hall ▸ hunderway⟩, hunderway.log ⟨[], by rw [List.append_nil, hall]⟩⟩
  | @unprepared i rest e =>
    obtain ⟨rfl, sent, hsent, heq⟩ := h
    have hall : sent ++ rest = plan.initialisation i.launch := heq
    refine ⟨trivial, ?_⟩
    rw [← List.append_assoc]
    exact (hsent.send rest).log_dropped ⟨[], by rw [List.append_nil, hall]⟩

theorem SlotPlan.Work.vendor_of_mem {before after : Stage} (hwork : plan.Work before after new)
    {event : LaunchEvent} (hevent : event ∈ new) : event.vendor = plan.launcher.vendor := by
  have hsent (statements : List String) :
      ∀ event ∈ statements.map (LaunchEvent.administered plan.launcher.vendor),
        event.vendor = plan.launcher.vendor :=
    List.forall_mem_map.2 fun _ _ => rfl
  cases hwork with
  | tick | failed _ | up _ _ | prepare _ _ => cases hevent
  | pause | prepared => exact hsent _ event hevent
  | unprepared =>
    rcases List.mem_append.1 hevent with hevent | hevent
    · exact hsent _ event hevent
    · rw [List.mem_singleton.1 hevent]
      rfl

namespace Slot

/-- What has been seen of a slot's attempts so far. -/
structure Logged (plan : SlotPlan) (s : Slot) (events : List LaunchEvent) : Prop where
  log : plan.Log s.launches events
  callers : ∀ c stage, s.callers.get? c = some stage → stage.Logged plan s.launches events
  stored : ∀ i, s.stored = some i → plan.Initialised s.launches events i

theorem cancel_events (plan : SlotPlan) (s : Slot) (c : Nat) :
    (s.cancel plan c).2 = ((s.callers.get? c).bind Stage.instance?).toList.map
      fun i => .dropped plan.launcher.vendor i.launch := by
  cases hstage : s.callers.get? c with
  | none => simp only [cancel, hstage]; rfl
  | some stage =>
    cases stage with
    | entering | permitted | launching number delay | preparing i left | finished result =>
      simp only [cancel, hstage]
      rfl
    | queued =>
      simp only [cancel, hstage]
      split <;> rfl
    | leaving result | settling result =>
      cases result <;> simp only [cancel, hstage] <;> rfl

theorem logged_fresh : fresh.Logged plan [] where
  log := .nil
  callers := by simp [fresh]
  stored := by simp [fresh]

namespace Logged

variable {s s' : Slot} {c : Nat} {before after : Stage}

theorem quiet (h : s.Logged plan events) (hcallers : s'.callers = s.callers)
    (hlaunches : s'.launches = s.launches) (hstored : s'.stored = s.stored)
    (hafter : after.Logged plan s.launches events) :
    (s'.moveTo c after).Logged plan (events ++ []) := by
  rw [List.append_nil]
  constructor
  case log => exact hlaunches ▸ h.log
  case stored => exact fun i hi => hlaunches ▸ h.stored i (hstored ▸ hi)
  case callers =>
    intro c' stage hstage
    rw [get?_moveTo, hcallers] at hstage
    change stage.Logged plan s'.launches events
    rw [hlaunches]
    split at hstage
    · exact Option.some.inj hstage ▸ hafter
    · exact h.callers c' stage hstage

theorem work (hs : s.Sound) (hpermit : s.permit = some c) (hcallers : s'.callers = s.callers)
    (hstored : s'.stored = s.stored) (hlog : plan.Log s'.launches events)
    (hafter : after.Logged plan s'.launches events) : (s'.moveTo c after).Logged plan events where
  log := hlog
  callers := by
    intro c' stage hstage
    rw [get?_moveTo, hcallers] at hstage
    split at hstage
    · exact Option.some.inj hstage ▸ hafter
    · next hne =>
      exact Stage.logged_of_not_holdsPermit (hs.holdsPermit_of_other hpermit hne hstage)
  stored := by
    intro i hi
    cases (hs.handed c hpermit).1.symm.trans (hstored.symm.trans hi)

theorem step (hs : s.Sound) (h : s.Logged plan events) (hstage : s.callers.get? c = some before)
    (hstep : Step plan s c before s' after new) :
    (s'.moveTo c after).Logged plan (events ++ new) := by
  have hbefore := h.callers c before hstage
  cases hstep with
  | find _ _ => exact h.quiet rfl rfl rfl trivial
  | take _ _ => exact h.quiet (by rfl) (by rfl) (by rfl) trivial
  | wait _ _ => exact h.quiet (by rfl) (by rfl) (by rfl) trivial
  | turn _ _ => exact h.quiet rfl rfl rfl trivial
  | launch =>
    have hpermit := hs.held c _ hstage rfl
    have hunderway := h.log.launch
    exact work hs hpermit (by rfl) (by rfl) (hunderway.log List.nil_prefix) ⟨rfl, hunderway⟩
  | work hwork =>
    obtain ⟨hafter, hlog⟩ := hwork.logged hbefore h.log
    exact work hs (hs.held c _ hstage hwork.holdsPermit_before) rfl rfl hlog hafter
  | @leave result => exact h.quiet (by rfl) (by rfl) (by rfl) (by cases result <;> exact hbefore)
  | @store i =>
    rw [List.append_nil]
    constructor
    case log => exact h.log
    case stored =>
      intro i' hi
      exact Option.some.inj hi ▸ hbefore
    case callers =>
      intro c' stage hstage'
      rw [get?_moveTo] at hstage'
      split at hstage'
      · cases hstage'
        trivial
      · exact h.callers c' stage hstage'
  | pass =>
    exact h.quiet (callers_passPermit s) (launches_passPermit s) (stored_passPermit s) trivial

theorem log_cancel (h : s.Logged plan events) (c : Nat) :
    plan.Log s.launches (events ++ (s.cancel plan c).2) := by
  rw [cancel_events]
  cases hi : (s.callers.get? c).bind Stage.instance? with
  | none => exact (List.append_nil events).symm ▸ h.log
  | some i =>
    obtain ⟨stage, hstage, hi⟩ := Option.bind_eq_some_iff.1 hi
    exact (h.callers c stage hstage).log_dropped hi

theorem cancel_eq_nil (hs : s.Sound) (hpermit : s.permit ≠ some c) : (s.cancel plan c).2 = [] := by
  rw [cancel_events]
  cases hstage : s.callers.get? c with
  | none => rfl
  | some stage =>
    rw [Option.bind_some, Stage.instance?_of_not_holdsPermit (hs.holdsPermit_of_ne hpermit hstage)]
    rfl

theorem cancel (hs : s.Sound) (h : s.Logged plan events) (c : Nat) :
    (s.cancel plan c).1.Logged plan (events ++ (s.cancel plan c).2) := by
  obtain ⟨hcallers, hstored, hlaunches⟩ := Kept.cancel_eq hs plan c
  have hlog := h.log_cancel c
  constructor
  case log => exact hlaunches ▸ hlog
  case callers =>
    intro c' stage hstage
    rw [hcallers] at hstage
    by_cases heq : c = c'
    · subst heq
      cases (Table.get?_erase_self s.callers c).symm.trans hstage
    · rw [Table.get?_erase_of_ne s.callers heq] at hstage
      by_cases hpermit : s.permit = some c
      · exact Stage.logged_of_not_holdsPermit (hs.holdsPermit_of_other hpermit heq hstage)
      · rw [cancel_eq_nil hs hpermit, List.append_nil, hlaunches]
        exact h.callers c' stage hstage
  case stored =>
    intro i hi
    rw [hstored] at hi
    have hpermit : s.permit ≠ some c := by simp [hs.permit_of_stored hi]
    rw [cancel_eq_nil hs hpermit, List.append_nil, hlaunches]
    exact h.stored i hi

theorem enter (h : s.Logged plan events) (c : Nat) : (s.enter c).Logged plan events := by
  have hquiet : (s.moveTo c .entering).Logged plan (events ++ []) := h.quiet rfl rfl rfl trivial
  rwa [List.append_nil] at hquiet

theorem move {fresh : Nat} {deeds : List Deed} (hk : s.Kept plan fresh deeds)
    (h : s.Logged plan events)
    (m : Databases.Move) : (s.move plan fresh m).Logged plan (events ++ s.events plan m) := by
  cases m with
  | call v =>
    rw [Slot.events, List.append_nil]
    exact h.enter fresh
  | step c =>
    change (s.advance plan c.caller).1.Logged plan (events ++ (s.advance plan c.caller).2.1)
    rcases s.advance_cases plan c.caller with
      ⟨turn, heq, -⟩ | ⟨before, s', after, new, turn, hstage, hstep, heq, -⟩
    · rw [heq, List.append_nil]
      exact h
    · rw [heq]
      exact h.step hk.sound hstage hstep
  | cancel c => exact h.cancel hk.sound c.caller

end Logged

theorem vendor_of_mem_events {s : Slot} {m : Databases.Move} {event : LaunchEvent}
    (hevent : event ∈ s.events plan m) : event.vendor = plan.launcher.vendor := by
  cases m with
  | call v => cases hevent
  | cancel c =>
    change event ∈ (s.cancel plan c.caller).2 at hevent
    rw [cancel_events] at hevent
    obtain ⟨i, -, rfl⟩ := List.mem_map.1 hevent
    rfl
  | step c =>
    change event ∈ (s.advance plan c.caller).2.1 at hevent
    rcases s.advance_cases plan c.caller with
      ⟨turn, heq, -⟩ | ⟨before, s', after, new, turn, hstage, hstep, heq, -⟩
    · rw [heq] at hevent
      cases hevent
    · rw [heq] at hevent
      cases hstep with
      | launch =>
        rw [List.mem_singleton.1 hevent]
        rfl
      | work hwork => exact hwork.vendor_of_mem hevent
      | find _ _ | take _ _ | wait _ _ | turn _ _ | leave | store | pass => cases hevent

end Slot

end QueryMapping
