import Mathlib.Data.List.Nodup
import QueryMapping.Proofs.Launch.Permit

/-! The history of a slot: the launches and the preparations of its instances, and what its callers
are told. -/

namespace QueryMapping

inductive Deed where
  | launch (number : Nat)
  | prepare (i : Instance)
  | prepared (i : Instance)
  | returned (result : Except LaunchError Instance)

namespace Deed

def between : Stage → Stage → Option Deed
  | .permitted, .launching number _ => some (.launch number)
  | .launching .., .preparing i _ => some (.prepare i)
  | .preparing .., .leaving (.ok i) => some (.prepared i)
  | .finished _, .finished _ => none
  | _, .finished result => some (.returned result)
  | _, _ => none

theorem between_self (stage : Stage) : between stage stage = none := by
  cases stage <;> rfl

def launchNumber? : Deed → Option Nat
  | .launch number => some number
  | .prepare _ | .prepared _ | .returned _ => none

def preparedNumber? : Deed → Option Nat
  | .prepare i => some i.launch
  | .launch _ | .prepared _ | .returned _ => none

def launches (h : List Deed) : List Nat := h.filterMap launchNumber?

def preparations (h : List Deed) : List Nat := h.filterMap preparedNumber?

theorem mem_launches {h : List Deed} {number : Nat} : number ∈ launches h ↔ .launch number ∈ h := by
  rw [launches, List.mem_filterMap]
  constructor
  · rintro ⟨d, hmem, hd⟩
    cases d <;> cases hd
    exact hmem
  · exact fun hmem => ⟨_, hmem, rfl⟩

theorem launches_concat (h : List Deed) (d : Deed) :
    launches (h ++ [d]) = launches h ++ d.launchNumber?.toList := by
  rw [launches, List.filterMap_append, List.filterMap_cons, List.filterMap_nil]
  cases d.launchNumber? <;> rfl

theorem preparations_concat (h : List Deed) (d : Deed) :
    preparations (h ++ [d]) = preparations h ++ d.preparedNumber?.toList := by
  rw [preparations, List.filterMap_append, List.filterMap_cons, List.filterMap_nil]
  cases d.preparedNumber? <;> rfl

structure Numbered (h : List Deed) (count : Nat) : Prop where
  launched : launches h = List.range' 1 count
  once : (preparations h).Nodup
  known : ∀ number ∈ preparations h, number ∈ launches h

namespace Numbered

variable {h : List Deed} {count : Nat}

theorem not_mem_preparations (hn : Numbered h count) : count + 1 ∉ preparations h := by
  intro hmem
  have hold := hn.known _ hmem
  rw [hn.launched, List.mem_range'_1] at hold
  omega

theorem launch (hn : Numbered h count) : Numbered (h ++ [.launch (count + 1)]) (count + 1) where
  launched := by
    rw [launches_concat, hn.launched, List.range'_1_concat, Nat.add_comm 1 count]
    rfl
  once := by
    rw [preparations_concat]
    exact (List.append_nil _).symm ▸ hn.once
  known := by
    intro number hmem
    rw [preparations_concat] at hmem
    rw [launches_concat]
    exact List.mem_append_left _ (hn.known number (by simpa [preparedNumber?] using hmem))

theorem prepare (hn : Numbered h count) {i : Instance} (hup : i.launch ∈ launches h)
    (hnew : i.launch ∉ preparations h) : Numbered (h ++ [.prepare i]) count where
  launched := by
    rw [launches_concat]
    exact (List.append_nil _).trans hn.launched
  once := by
    rw [preparations_concat]
    refine List.nodup_append.2 ⟨hn.once, List.nodup_singleton i.launch, ?_⟩
    rintro number hmem _ hmem' rfl
    exact hnew (List.mem_singleton.1 hmem' ▸ hmem)
  known := by
    intro number hmem
    rw [preparations_concat] at hmem
    rw [launches_concat]
    refine List.mem_append_left _ ?_
    rcases List.mem_append.1 hmem with hmem | hmem
    · exact hn.known number hmem
    · rw [List.mem_singleton.1 hmem]
      exact hup

theorem concat (hn : Numbered h count) {d : Deed} (hlaunch : d.launchNumber? = none)
    (hprepare : d.preparedNumber? = none) : Numbered (h ++ [d]) count where
  launched := by
    rw [launches_concat, hlaunch]
    exact (List.append_nil _).trans hn.launched
  once := by
    rw [preparations_concat, hprepare]
    exact (List.append_nil _).symm ▸ hn.once
  known := by
    rw [preparations_concat, launches_concat, hlaunch, hprepare]
    simpa using hn.known

end Numbered

end Deed

/-- An instance that a launch has yielded, with all that is to be done before it is handed out. -/
structure SlotPlan.Delivered (plan : SlotPlan) (h : List Deed) (i : Instance) : Prop where
  launched : .launch i.launch ∈ h
  started : ∃ up, (plan.launcher.attempt i.launch).outcome = .ok up ∧
    i = SlotPlan.started i.launch up
  prepared : ∀ prepare, plan.postStart = some prepare →
    .prepare i ∈ h ∧ .prepared i ∈ h ∧ (prepare i).result = .ok ()

def Stage.Justified (plan : SlotPlan) (h : List Deed) : Stage → Prop
  | .launching number _ => .launch number ∈ h ∧ number ∉ Deed.preparations h
  | .preparing i left => .launch i.launch ∈ h ∧ .prepare i ∈ h ∧
    (∃ up, (plan.launcher.attempt i.launch).outcome = .ok up ∧ i = SlotPlan.started i.launch up) ∧
    ∃ prepare, plan.postStart = some prepare ∧ left.result = (prepare i).result
  | .leaving (.ok i) | .settling (.ok i) => plan.Delivered h i
  | .finished result => .returned result ∈ h
  | .entering | .queued | .permitted | .leaving (.error _) | .settling (.error _) => True

/-- Once a caller has been told of an instance, nothing is done any more but to tell others; and the
instance was ready by then. -/
def SlotPlan.Settled (plan : SlotPlan) (h : List Deed) : Prop :=
  ∀ before i after, h = before ++ .returned (.ok i) :: after →
    plan.Delivered before i ∧ ∀ deed ∈ after, ∃ result, deed = .returned result

variable {plan : SlotPlan} {h h' : List Deed} {i : Instance}

theorem SlotPlan.Settled.concat (hsettled : plan.Settled h) {d : Deed}
    (hready : ∀ i, d = .returned (.ok i) → plan.Delivered h i)
    (hlate : ∀ i, .returned (.ok i) ∈ h → ∃ result, d = .returned result) :
    plan.Settled (h ++ [d]) := by
  intro before i after heq
  rcases List.eq_nil_or_concat after with rfl | ⟨after, last, rfl⟩
  · obtain ⟨rfl, hlast⟩ := List.append_inj' heq rfl
    exact ⟨hready i (List.cons.inj hlast).1, by simp⟩
  · obtain ⟨rfl, hlast⟩ : h = before ++ .returned (.ok i) :: after ∧ [d] = [last] :=
      List.append_inj' (by simpa using heq) rfl
    obtain ⟨hbefore, hafter⟩ := hsettled before i after rfl
    refine ⟨hbefore, fun deed hmem => ?_⟩
    rw [List.concat_eq_append, ← hlast] at hmem
    rcases List.mem_append.1 hmem with hmem | hmem
    · exact hafter deed hmem
    · rw [List.mem_singleton.1 hmem]
      exact hlate i (by simp)

theorem SlotPlan.Delivered.mono (hi : plan.Delivered h i) (hsub : h ⊆ h') :
    plan.Delivered h' i where
  launched := hsub hi.launched
  started := hi.started
  prepared := by
    intro prepare hpost
    obtain ⟨hbegun, hdone, hresult⟩ := hi.prepared prepare hpost
    exact ⟨hsub hbegun, hsub hdone, hresult⟩

theorem Stage.Justified.mono {stage : Stage} (hstage : stage.Justified plan h) (hsub : h ⊆ h')
    (hnew : ∀ number delay, stage = .launching number delay → number ∈ Deed.preparations h' →
      number ∈ Deed.preparations h) : stage.Justified plan h' := by
  cases stage with
  | entering | queued | permitted => trivial
  | launching number delay =>
    exact ⟨hsub hstage.1, fun hmem => hstage.2 (hnew number delay rfl hmem)⟩
  | preparing i left => exact ⟨hsub hstage.1, hsub hstage.2.1, hstage.2.2⟩
  | leaving result | settling result =>
    cases result with
    | ok i => exact SlotPlan.Delivered.mono hstage hsub
    | error e => trivial
  | finished result => exact hsub hstage

namespace Slot

structure Faithful (plan : SlotPlan) (s : Slot) (h : List Deed) : Prop where
  numbered : Deed.Numbered h s.launches
  callers : ∀ c stage, s.callers.get? c = some stage → stage.Justified plan h
  stored : ∀ i, s.stored = some i → plan.Delivered h i
  told : ∀ i, .returned (.ok i) ∈ h → s.stored = some i
  settled : plan.Settled h

theorem faithful_fresh : fresh.Faithful plan [] where
  numbered := ⟨rfl, List.nodup_nil, by simp [Deed.preparations]⟩
  callers := by simp [fresh]
  stored := by simp [fresh]
  told := by simp
  settled := by simp [SlotPlan.Settled]

namespace Faithful

variable {s s' : Slot} {c : Nat}

theorem quiet (hf : s.Faithful plan h) (hstored : s'.stored = s.stored)
    (hlaunches : s'.launches = s.launches)
    (hcallers : ∀ c stage, s'.callers.get? c = some stage → stage.Justified plan h) :
    s'.Faithful plan h where
  numbered := hlaunches ▸ hf.numbered
  callers := hcallers
  stored := fun i hi => hf.stored i (hstored ▸ hi)
  told := fun i hi => hstored.trans (hf.told i hi)
  settled := hf.settled

theorem justified_moveTo (hcallers : s'.callers = s.callers)
    (hold : ∀ c' stage, c ≠ c' → s.callers.get? c' = some stage → stage.Justified plan h)
    {after : Stage} (hafter : after.Justified plan h) :
    ∀ c' stage, (s'.moveTo c after).callers.get? c' = some stage → stage.Justified plan h := by
  intro c' stage hstage
  rw [get?_moveTo, hcallers] at hstage
  split at hstage
  · cases hstage
    exact hafter
  · next hne => exact hold c' stage hne hstage

theorem quiet_moveTo (hf : s.Faithful plan h) (hstored : s'.stored = s.stored)
    (hlaunches : s'.launches = s.launches) (hcallers : s'.callers = s.callers) {after : Stage}
    (hafter : after.Justified plan h) : (s'.moveTo c after).Faithful plan (h ++ []) := by
  rw [List.append_nil]
  exact hf.quiet hstored hlaunches
    (justified_moveTo hcallers (fun c' stage _ => hf.callers c' stage) hafter)

theorem tell (hf : s.Faithful plan h) (hcallers : s'.callers = s.callers)
    (hlaunches : s'.launches = s.launches) (hstored : ∀ i, s'.stored = some i → plan.Delivered h i)
    (hkept : ∀ i, s.stored = some i → s'.stored = some i) {result : Except LaunchError Instance}
    (hresult : ∀ i, result = .ok i → s'.stored = some i) :
    (s'.moveTo c (.finished result)).Faithful plan (h ++ [.returned result]) where
  numbered := by
    change Deed.Numbered _ s'.launches
    rw [hlaunches]
    exact hf.numbered.concat rfl rfl
  callers := by
    refine justified_moveTo hcallers (fun c' stage _ hstage => ?_) (by simp [Stage.Justified])
    refine (hf.callers c' stage hstage).mono (by simp) fun number delay _ hmem => ?_
    rw [Deed.preparations_concat] at hmem
    simpa [Deed.preparedNumber?] using hmem
  stored := fun i hi => (hstored i hi).mono (by simp)
  told := by
    intro i hmem
    rcases List.mem_append.1 hmem with hmem | hmem
    · exact hkept i (hf.told i hmem)
    · obtain heq := List.mem_singleton.1 hmem
      exact hresult i (Deed.returned.inj heq).symm
  settled := by
    refine hf.settled.concat (fun i heq => ?_) fun _ _ => ⟨result, rfl⟩
    exact hstored i (hresult i (Deed.returned.inj heq))

theorem attempt (hf : s.Faithful plan h) (hnone : s.stored = none) (hstored : s'.stored = none)
    (hcallers : s'.callers = s.callers) {d : Deed} {after : Stage}
    (hnumbered : Deed.Numbered (h ++ [d]) s'.launches) (hd : ∀ result, d ≠ .returned result)
    (hafter : after.Justified plan (h ++ [d]))
    (hothers : ∀ c' number delay, c ≠ c' → s.callers.get? c' = some (.launching number delay) →
      d.preparedNumber? ≠ some number) :
    (s'.moveTo c after).Faithful plan (h ++ [d]) where
  numbered := hnumbered
  callers := by
    refine justified_moveTo hcallers (fun c' stage hne hstage => ?_) hafter
    refine (hf.callers c' stage hstage).mono (by simp) fun number delay heq hmem => ?_
    rw [Deed.preparations_concat] at hmem
    rcases List.mem_append.1 hmem with hmem | hmem
    · exact hmem
    · exact absurd (Option.mem_toList.1 hmem) (hothers c' number delay hne (heq ▸ hstage))
  stored := by
    intro i hi
    cases hstored.symm.trans hi
  -- As nothing is stored, nobody has been told of an instance yet.
  told := by
    intro i hmem
    rcases List.mem_append.1 hmem with hmem | hmem
    · cases hnone.symm.trans (hf.told i hmem)
    · exact absurd (List.mem_singleton.1 hmem).symm (hd _)
  settled := by
    refine hf.settled.concat (fun i heq => absurd heq (hd _)) fun i hmem => ?_
    cases hnone.symm.trans (hf.told i hmem)

theorem work (hs : s.Sound) (hf : s.Faithful plan h) {before after : Stage}
    {events : List LaunchEvent}
    (hstage : s.callers.get? c = some before) (hwork : plan.Work before after events) :
    (s.moveTo c after).Faithful plan (h ++ (Deed.between before after).toList) := by
  have hpermit := hs.held c before hstage hwork.holdsPermit_before
  have hnone := (hs.handed c hpermit).1
  have hothers : ∀ c' stage, c ≠ c' → s.callers.get? c' = some stage → stage.holdsPermit = false :=
    fun _ _ hne hstage' => hs.holdsPermit_of_other hpermit hne hstage'
  have hbefore := hf.callers c before hstage
  cases hwork with
  | tick => exact hf.quiet_moveTo rfl rfl rfl hbefore
  | failed hup => exact hf.quiet_moveTo rfl rfl rfl trivial
  | @up number up hup hpost =>
    refine hf.quiet_moveTo rfl rfl rfl ⟨hbefore.1, ⟨up, hup, rfl⟩, fun prepare hprepare => ?_⟩
    cases hpost.symm.trans hprepare
  | @prepare number up prepare hup hpost =>
    have hnumbered := hf.numbered.prepare (i := SlotPlan.started number up)
      (Deed.mem_launches.2 hbefore.1) hbefore.2
    refine hf.attempt hnone hnone rfl hnumbered (fun _ => nofun) ?_ ?_
    · exact ⟨List.mem_append_left _ hbefore.1, by simp, ⟨up, hup, rfl⟩, prepare, hpost, rfl⟩
    · intro c' number' delay hne hstage'
      cases hothers c' _ hne hstage'
  | pause => exact hf.quiet_moveTo rfl rfl rfl hbefore
  | @prepared i rest =>
    obtain ⟨hlaunch, hbegun, hup, prepare, hpost, hresult⟩ := hbefore
    refine hf.attempt hnone hnone rfl (hf.numbered.concat rfl rfl) (fun _ => nofun) ?_
      fun _ _ _ _ _ => nofun
    refine ⟨List.mem_append_left _ hlaunch, hup, fun prepare' hprepare => ?_⟩
    obtain rfl : prepare = prepare' := Option.some.inj (hpost.symm.trans hprepare)
    exact ⟨List.mem_append_left _ hbegun, by simp, hresult.symm⟩
  | unprepared => exact hf.quiet_moveTo rfl rfl rfl trivial

theorem step (hs : s.Sound) (hf : s.Faithful plan h) {before after : Stage}
    {events : List LaunchEvent}
    (hstage : s.callers.get? c = some before) (hstep : Step plan s c before s' after events) :
    (s'.moveTo c after).Faithful plan (h ++ (Deed.between before after).toList) := by
  have hbefore := hf.callers c before hstage
  cases hstep with
  | @find _ i hwhich hstored =>
    have hbetween : Deed.between before (.finished (.ok i)) = some (.returned (.ok i)) := by
      rcases hwhich with rfl | rfl <;> rfl
    rw [hbetween]
    exact hf.tell rfl rfl hf.stored (fun _ => id) fun i' heq => Except.ok.inj heq ▸ hstored
  | take hstored hpermit => exact hf.quiet_moveTo (by rfl) (by rfl) (by rfl) trivial
  | wait hstored hpermit => exact hf.quiet_moveTo (by rfl) (by rfl) (by rfl) trivial
  | turn hstored hpermit => exact hf.quiet_moveTo rfl rfl rfl trivial
  | launch =>
    have hnone := (hs.handed c (hs.held c _ hstage rfl)).1
    have hlaunching : { s with starting := true, launches := s.launches + 1 }.stored = none := hnone
    refine hf.attempt hnone hlaunching rfl hf.numbered.launch (fun _ => nofun) ⟨by simp, ?_⟩
      fun _ _ _ _ _ => nofun
    rw [Deed.preparations_concat]
    simpa [Deed.preparedNumber?] using hf.numbered.not_mem_preparations
  | work hwork => exact hf.work hs hstage hwork
  | @leave result =>
    exact hf.quiet_moveTo (by rfl) (by rfl) (by rfl) (by cases result <;> exact hbefore)
  | @store i =>
    have hnone := (hs.handed c (hs.held c _ hstage rfl)).1
    refine hf.tell (by rfl) (by rfl) (fun i' heq => ?_) (fun i' heq => ?_) fun i' heq => ?_
    · exact Option.some.inj heq ▸ hbefore
    · cases hnone.symm.trans heq
    · exact congrArg some (Except.ok.inj heq)
  | @pass e =>
    refine hf.tell (callers_passPermit s) (launches_passPermit s) ?_ ?_ (by simp)
    · rw [stored_passPermit]
      exact hf.stored
    · rw [stored_passPermit]
      exact fun _ => id

end Faithful

end Slot

end QueryMapping
