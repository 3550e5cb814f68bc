import QueryMapping.Proofs.Launch.Log

/-! What the callers of `Databases` can rely on, however their calls are mixed and whichever are
given up. -/

namespace QueryMapping

def LaunchEvent.launchOf? (v : Vendor) : LaunchEvent → Option Nat
  | .launched w number => if w = v then some number else none
  | .administered .. | .dropped .. => none

theorem SlotPlan.Log.launches {plan : SlotPlan} {number : Nat} {events : List LaunchEvent}
    (h : plan.Log number events) :
    events.filterMap (LaunchEvent.launchOf? plan.launcher.vendor) = List.range' 1 number := by
  have hsent (sent : List String) :
    (sent.map (LaunchEvent.administered plan.launcher.vendor)).filterMap
      (LaunchEvent.launchOf? plan.launcher.vendor) = [] :=
    List.filterMap_eq_nil_iff.2 (List.forall_mem_map.2 fun _ _ => rfl)
  have hattempted (number : Nat) (sent : List String) : (plan.attempted number sent).filterMap
      (LaunchEvent.launchOf? plan.launcher.vendor) = [number] := by
    rw [SlotPlan.attempted, List.filterMap_cons, LaunchEvent.launchOf?, if_pos rfl, hsent]
  induction h with
  | nil => rfl
  | @attempt number events sent h hprefix ih =>
    rw [List.filterMap_append, ih, hattempted, List.range'_1_concat, Nat.add_comm]
  | @dropped number events sent h hprefix ih =>
    rw [List.filterMap_append, List.filterMap_append, ih, hattempted, List.range'_1_concat,
      Nat.add_comm]
    exact List.append_nil _

namespace Slot

variable {plan : SlotPlan} {s : Slot} {c : Nat}

theorem Step.of_error {before after : Stage} {s' : Slot} {events : List LaunchEvent}
    {e : LaunchError} (h : Step plan s c before s' after events)
    (hdeed : Deed.between before after = some (.returned (.error e))) :
    before = .settling (.error e) ∧ s' = s.passPermit := by
  cases h with
  | find hbefore _ => rcases hbefore with rfl | rfl <;> cases hdeed
  | work hwork => cases hwork <;> cases hdeed
  | pass =>
    cases hdeed
    exact ⟨rfl, rfl⟩
  | take _ _ | wait _ _ | turn _ _ | launch | leave | store => cases hdeed

theorem Sound.advance_of_error (h : s.Sound) {e : LaunchError}
    (hdeed : s.deed? plan c = some (.returned (.error e))) :
    (s.advance plan c).1.stored = none ∧ (s.advance plan c).1.starting = false ∧
      (s.advance plan c).1.permit = s.waiters.head? := by
  rcases s.advance_cases plan c with
    ⟨turn, heq, -⟩ | ⟨before, s', after, events, turn, hstage, hstep, heq, -⟩
  · rw [deed?_of_same heq] at hdeed
    cases hdeed
  · rw [deed?_of_step hstage heq] at hdeed
    obtain ⟨rfl, rfl⟩ := hstep.of_error hdeed
    have hpermit := h.held c _ hstage rfl
    rw [heq]
    refine ⟨(stored_passPermit s).trans (h.handed c hpermit).1, ?_, permit_passPermit s⟩
    exact (starting_passPermit s).trans (h.starting_of_permit hpermit hstage)

theorem Sound.cancel_of_holder (h : s.Sound) (plan : SlotPlan) (hpermit : s.permit = some c) :
    (s.cancel plan c).1.stored = none ∧ (s.cancel plan c).1.starting = false ∧
      (s.cancel plan c).1.permit = s.waiters.head? := by
  rw [h.cancel_of_permit hpermit]
  exact ⟨(stored_passPermit _).trans (h.handed c hpermit).1, starting_passPermit _,
    permit_passPermit _⟩

def Next (s : Slot) (c : Nat) : Prop :=
  s.stored = none ∧ (s.permit = some c ∧ s.callers.get? c = some .queued ∨
    s.permit = none ∧ s.callers.get? c = some .entering)

theorem deed?_of_permitted (hstage : s.callers.get? c = some .permitted) :
    s.deed? plan c = some (.launch (s.launches + 1)) := by
  simp [deed?, advance, hstage, Deed.between]

theorem Next.deeds (h : s.Next c) (plan : SlotPlan) : s.deed? plan c = none ∧
    (s.advance plan c).1.deed? plan c = some (.launch (s.launches + 1)) := by
  obtain ⟨hstored, ⟨hpermit, hstage⟩ | ⟨hpermit, hstage⟩⟩ := h
  · have heq : s.advance plan c = (s.moveTo c .permitted, [], .more) := by
      simp [advance, hstage, hstored, hpermit]
    rw [deed?_of_step hstage heq, heq]
    exact ⟨rfl, deed?_of_permitted (Table.get?_set_self ..)⟩
  · have heq : s.advance plan c = ({ s with permit := some c }.moveTo c .permitted, [], .more) := by
      simp [advance, hstage, hstored, hpermit]
    rw [deed?_of_step hstage heq, heq]
    exact ⟨rfl, deed?_of_permitted (Table.get?_set_self ..)⟩

end Slot

namespace Databases

variable {d : Databases} {v : Vendor} {plan : SlotPlan} {slot : Slot} {launchers : List Launcher}
  {preparations : List (Vendor × PostStart)}

theorem vendor_of_get?_foldl {prepared : Table Vendor PostStart}
    (h : (launchers.foldl (fun (t : Table Vendor SlotPlan) l =>
      t.set l.vendor ⟨l, prepared.get? l.vendor⟩) []).get? v = some plan) :
      plan.launcher.vendor = v := by
  induction launchers using List.reverseRecOn with
  | nil => cases h
  | append_singleton launchers l ih =>
    rw [List.foldl_concat, Table.get?_set] at h
    split at h
    · next heq =>
      cases h
      exact heq
    · exact ih h

theorem exists_plan {prepared : Table Vendor PostStart} {l : Launcher} (hl : l ∈ launchers) :
    ∃ plan, (launchers.foldl (fun (t : Table Vendor SlotPlan) l =>
      t.set l.vendor ⟨l, prepared.get? l.vendor⟩) []).get? l.vendor = some plan := by
  induction launchers using List.reverseRecOn with
  | nil => cases hl
  | append_singleton launchers l' ih =>
    rw [List.foldl_concat, Table.get?_set]
    split
    · exact ⟨_, rfl⟩
    · next hne =>
      rcases List.mem_append.1 hl with hl | hl
      · exact ih hl
      · exact absurd (congrArg Launcher.vendor (List.mem_singleton.1 hl).symm) hne

theorem vendor_of_get?_plans (h : (ofLaunchers launchers preparations).plans.get? v = some plan) :
    plan.launcher.vendor = v :=
  vendor_of_get?_foldl h

theorem slot_ofLaunchers (h : (ofLaunchers launchers preparations).slot? v = some (plan, slot)) :
    slot = .fresh := by
  have hslot := (slot?_eq_some_iff.1 h).2
  have hmap := Table.get?_map (ofLaunchers launchers preparations).plans (fun _ => Slot.fresh) v
  obtain ⟨-, -, heq⟩ := Option.map_eq_some_iff.1 (hmap.symm.trans hslot)
  exact heq.symm

theorem exists_slot_ofLaunchers {l : Launcher} (hl : l ∈ launchers) :
    ∃ plan slot, (ofLaunchers launchers preparations).slot? l.vendor = some (plan, slot) := by
  obtain ⟨plan, hplan⟩ :
      ∃ plan, (ofLaunchers launchers preparations).plans.get? l.vendor = some plan :=
    exists_plan hl
  refine ⟨plan, .fresh, slot?_eq_some_iff.2 ⟨hplan, ?_⟩⟩
  have hmap :=
    Table.get?_map (ofLaunchers launchers preparations).plans (fun _ => Slot.fresh) l.vendor
  rw [hplan] at hmap
  exact hmap

theorem exists_slot_run (moves : List Move) (hd : ∃ plan slot, d.slot? v = some (plan, slot)) :
    ∃ plan slot, (d.run moves).slot? v = some (plan, slot) := by
  induction moves generalizing d with
  | nil => exact hd
  | cons m moves ih =>
    refine ih (d := d.move m) ?_
    obtain ⟨plan, slot, hslot⟩ := hd
    by_cases heq : m.vendor = v
    · exact ⟨_, _, slot?_move_of_some heq hslot⟩
    · exact ⟨plan, slot, by rw [slot?_move, if_neg heq, hslot]⟩

theorem setSlot_self (hd : d.slot? v = some (plan, slot)) : d.setSlot v slot [] = d := by
  rw [setSlot, Table.set_of_get? (slot?_eq_some_iff.1 hd).2, List.append_nil]

theorem setSlot_setSlot (slot slot' : Slot) (events events' : List LaunchEvent) :
    (d.setSlot v slot events).setSlot v slot' events' = d.setSlot v slot' (events ++ events') := by
  simp [setSlot, Table.set_set]

theorem kept_ofLaunchers (h : (ofLaunchers launchers preparations).slot? v = some (plan, slot)) :
    slot.Kept plan 0 [] := by
  obtain rfl := slot_ofLaunchers h
  exact ⟨Slot.sound_fresh, Slot.faithful_fresh, by simp [Slot.fresh]⟩

theorem run_steps {c : Call} (fuel : Nat) (hd : d.slot? c.vendor = some (plan, slot)) :
    ∃ n slot' events result, Slot.advanceUpTo plan c.caller fuel slot = (slot', events, result) ∧
      d.run (List.replicate n (.step c)) = d.setSlot c.vendor slot' events ∧
      ∀ r, result = some r → slot'.callers.get? c.caller = some (.finished r) := by
  induction fuel generalizing d slot with
  | zero => exact ⟨0, slot, [], none, rfl, (setSlot_self hd).symm, nofun⟩
  | succ fuel ih =>
    obtain ⟨slot', events, turn, hadvance⟩ : ∃ slot' events turn,
        slot.advance plan c.caller = (slot', events, turn) := ⟨_, _, _, rfl⟩
    have hstep : d.move (.step c) = d.setSlot c.vendor slot' events := by
      simp only [move, advance, hd, hadvance]
    -- A step after which the caller pauses or is done is the last one.
    cases turn with
    | more =>
      have hd' : (d.setSlot c.vendor slot' events).slot? c.vendor = some (plan, slot') := by
        rw [slot?_setSlot hd, if_pos rfl]
      obtain ⟨n, slot'', events', result, hrest, hrun, hresult⟩ := ih hd'
      refine ⟨n + 1, slot'', events ++ events', result, ?_, ?_, hresult⟩
      · simp only [Slot.advanceUpTo, hadvance, hrest]
      · rw [← setSlot_setSlot, ← hrun, ← hstep]
        rfl
    | pause =>
      exact ⟨1, slot', events, none, by simp only [Slot.advanceUpTo, hadvance], hstep, nofun⟩
    | done result =>
      refine ⟨1, slot', events, some result, by simp only [Slot.advanceUpTo, hadvance], hstep, ?_⟩
      rintro r heq
      obtain rfl : result = r := Option.some.inj heq
      rcases slot.advance_cases plan c.caller with
        ⟨turn, hsame, hdone⟩ | ⟨before, s', after, events', turn, hstage, _, hmoved, hmore⟩
      · rw [hadvance] at hsame
        cases hsame
        exact hdone _ rfl
      · rw [hadvance] at hmoved
        cases hmoved
        exact absurd rfl (hmore _)

theorem poll_eq_run {c : Call} (hd : d.slot? c.vendor = some (plan, slot)) :
    ∃ n, d.poll c = (none, d.run (List.replicate n (.step c))) ∨
      ∃ result slot', d.poll c = (some result, d.run (List.replicate n (.step c) ++ [.cancel c])) ∧
        (d.run (List.replicate n (.step c))).slot? c.vendor = some (plan, slot') ∧
        slot'.callers.get? c.caller = some (.finished result) := by
  obtain ⟨n, slot', events, result, hsteps, hrun, hresult⟩ := run_steps Slot.stepsPerPoll hd
  refine ⟨n, ?_⟩
  cases result with
  | none =>
    refine .inl ?_
    rw [hrun]
    simp only [poll, hd, Slot.poll, hsteps]
  | some result =>
    have hfinished := hresult result rfl
    have hd' : (d.setSlot c.vendor slot' events).slot? c.vendor = some (plan, slot') := by
      rw [slot?_setSlot hd, if_pos rfl]
    refine .inr ⟨result, slot', ?_, hrun ▸ hd', hfinished⟩
    have hcancel : d.run (List.replicate n (.step c) ++ [.cancel c]) =
        (d.setSlot c.vendor slot' events).cancel c := by
      rw [run_append, hrun]
      rfl
    rw [hcancel]
    simp only [poll, cancel, hd, hd', Slot.poll, hsteps, Slot.cancel, hfinished, setSlot_setSlot,
      List.append_nil]

theorem plans_run (d : Databases) (moves : List Move) : (d.run moves).plans = d.plans := by
  induction moves generalizing d with
  | nil => rfl
  | cons m moves ih =>
    refine (ih (d.move m)).trans ?_
    cases hd : d.slot? m.vendor with
    | none => rw [move_of_none hd]
    | some p => rw [move_of_some hd]; rfl

theorem filter_events_move {m : Move} (hd : d.slot? m.vendor = some (plan, slot))
    (hvendor : plan.launcher.vendor = m.vendor) (v : Vendor) :
    (d.move m).events.filter (·.vendor = v) =
      d.events.filter (·.vendor = v) ++ if m.vendor = v then slot.events plan m else [] := by
  rw [move_of_some hd]
  change (d.events ++ slot.events plan m).filter _ = _
  rw [List.filter_append]
  congr 1
  split
  · next heq =>
    refine List.filter_eq_self.2 fun event hevent => decide_eq_true ?_
    rw [Slot.vendor_of_mem_events hevent, hvendor, heq]
  · next hne =>
    refine List.filter_eq_nil_iff.2 fun event hevent => ?_
    rw [Slot.vendor_of_mem_events hevent, hvendor, decide_eq_true_eq]
    exact hne

theorem logged_run (moves : List Move)
    (hslot : ((ofLaunchers launchers preparations).run moves).slot? v = some (plan, slot)) :
    slot.Logged plan
      (((ofLaunchers launchers preparations).run moves).events.filter (·.vendor = v)) := by
  induction moves using List.reverseRecOn generalizing slot with
  | nil =>
    obtain rfl := slot_ofLaunchers hslot
    exact Slot.logged_fresh
  | append_singleton moves m ih =>
    have hkept := kept_run (v := v) (fun _ _ => kept_ofLaunchers) moves
      (d := ofLaunchers launchers preparations)
    have hplans := plans_run (ofLaunchers launchers preparations) moves
    rw [run_append] at hslot ⊢
    generalize (ofLaunchers launchers preparations).run moves = d at hkept hplans hslot ih ⊢
    change slot.Logged plan ((d.move m).events.filter _)
    change (d.move m).slot? v = _ at hslot
    cases hd : d.slot? m.vendor with
    | none =>
      rw [move_of_none hd] at hslot ⊢
      exact ih hslot
    | some p =>
      obtain ⟨plan', slot'⟩ := p
      have hplan := (slot?_eq_some_iff.1 hd).1
      rw [hplans] at hplan
      rw [slot?_move] at hslot
      rw [filter_events_move hd (vendor_of_get?_plans hplan)]
      by_cases heq : m.vendor = v
      · subst heq
        rw [if_pos rfl, hd] at hslot
        obtain ⟨rfl, rfl⟩ := Prod.mk.inj (Option.some.inj hslot)
        rw [if_pos rfl]
        exact (ih hd).move (hkept plan' slot' hd) m
      · rw [if_neg heq] at hslot ⊢
        rw [List.append_nil]
        exact ih hslot

theorem launched_of_logged {events : List LaunchEvent} (hvendor : plan.launcher.vendor = v)
    (h : slot.Logged plan (events.filter (·.vendor = v))) :
    events.filterMap (LaunchEvent.launchOf? v) = List.range' 1 slot.launches := by
  have hlaunches := h.log.launches
  rw [hvendor, List.filterMap_filter] at hlaunches
  rw [← hlaunches]
  refine List.filterMap_congr fun event _ => ?_
  cases event with
  | launched w number =>
    by_cases heq : w = v <;> simp [LaunchEvent.launchOf?, LaunchEvent.vendor, heq]
  | administered w statement | dropped w number => exact (ite_self _).symm

theorem step_of_error {m : Move} {e : LaunchError} (hd : d.slot? v = some (plan, slot))
    (h : .returned (.error e) ∈ d.deeds v m) :
    ∃ c, m = .step ⟨v, c⟩ ∧ slot.deed? plan c = some (.returned (.error e)) := by
  by_cases heq : m.vendor = v
  · rw [deeds_of_some heq hd] at h
    cases m with
    | call w => cases h
    | cancel c => cases h
    | step c =>
      obtain ⟨w, c⟩ := c
      cases heq
      exact ⟨c, rfl, Option.mem_toList.1 h⟩
  · rw [deeds_of_ne heq] at h
    cases h

/-- However the callers of any vendors take turns, and whichever of them are given up and when: one
attempt at most goes on for a vendor, and all who are told of an instance are told of the same
one. -/
theorem calls_share_instance (launchers : List Launcher) (preparations : List (Vendor × PostStart))
    (moves : List Move) :
    let d₀ := ofLaunchers launchers preparations
    let d := d₀.run moves
    (∀ l ∈ launchers, ∃ plan slot, d.slot? l.vendor = some (plan, slot)) ∧
    (∀ v plan slot, d.slot? v = some (plan, slot) →
      let h := d₀.history v moves
      (∀ c c' stage stage', slot.callers.get? c = some stage → slot.callers.get? c' = some stage' →
        stage.holdsPermit = true → stage'.holdsPermit = true → c = c') ∧
      (Deed.launches h = List.range' 1 slot.launches ∧
        d.events.filterMap (LaunchEvent.launchOf? v) = Deed.launches h ∧
        (Deed.preparations h).Nodup) ∧
      -- Of each attempt there is its launch, and after it what is sent to the instance, in order
      -- and once; all of it has been sent by the time that a caller is told of the instance, and
      -- nothing comes after.
      plan.Log slot.launches (d.events.filter (·.vendor = v)) ∧
      (∀ i, .returned (.ok i) ∈ h →
        plan.Initialised slot.launches (d.events.filter (·.vendor = v)) i) ∧
      (∀ before i after, h = before ++ .returned (.ok i) :: after →
        plan.Delivered before i ∧ (∀ deed ∈ after, ∃ result, deed = .returned result) ∧
          ∀ i', .returned (.ok i') ∈ h → i' = i) ∧
      -- An attempt ends without an instance when its caller is given up, or is told of a failure.
      (∀ m, (∃ c stage, slot.callers.get? c = some stage ∧ stage.holdsPermit = true ∧
            m = .cancel ⟨v, c⟩) ∨ (∃ e, .returned (.error e) ∈ d.deeds v m) →
        ∃ slot', (d.move m).slot? v = some (plan, slot') ∧ slot'.stored = none ∧
          slot'.starting = false ∧ slot'.permit = slot.waiters.head?) ∧
      (∀ c, slot.Next c →
        d.history v [.step ⟨v, c⟩, .step ⟨v, c⟩] = [.launch (slot.launches + 1)]) ∧
      -- Polls are runs of steps, and a result that they yield is one that the history tells of.
      (∀ c, c.vendor = v → ∃ n, d.poll c = (none, d.run (List.replicate n (.step c))) ∨
        ∃ result, d.poll c = (some result, d.run (List.replicate n (.step c) ++ [.cancel c])) ∧
          .returned result ∈ d₀.history v (moves ++ List.replicate n (.step c)))) ∧
    ∀ m v, m.vendor ≠ v → (d.move m).slot? v = d.slot? v := by
  intro d₀ d
  have hkept : ∀ v moves plan slot, (d₀.run moves).slot? v = some (plan, slot) →
      slot.Kept plan (d₀.run moves).calls (d₀.history v moves) := fun v moves =>
    kept_run (fun _ _ => kept_ofLaunchers) moves
  refine ⟨fun l hl => exists_slot_run moves (exists_slot_ofLaunchers hl),
    fun v plan slot hslot => ?_, fun m v hne => by rw [slot?_move, if_neg hne]⟩
  have hk := hkept v moves plan slot hslot
  have hlogged := logged_run moves hslot
  have hplan := (slot?_eq_some_iff.1 hslot).1
  rw [plans_run] at hplan
  have hlaunched := (launched_of_logged (vendor_of_get?_plans hplan) hlogged).trans
    hk.faithful.numbered.launched.symm
  refine ⟨?_, ⟨hk.faithful.numbered.launched, hlaunched, hk.faithful.numbered.once⟩, hlogged.log,
    fun i hi => hlogged.stored i (hk.faithful.told i hi), ?_, ?_, ?_, ?_⟩
  · intro c c' stage stage' hstage hstage' hholds hholds'
    have hpermit := hk.sound.held c stage hstage hholds
    exact hk.sound.eq_of_holdsPermit hpermit hstage' hholds'
  · intro before i after heq
    obtain ⟨hbefore, hafter⟩ := hk.faithful.settled before i after heq
    refine ⟨hbefore, hafter, fun i' hmem => ?_⟩
    have hi := hk.faithful.told i (by simp [heq])
    have hi' := hk.faithful.told i' hmem
    exact Option.some.inj (hi'.symm.trans hi)
  · rintro m (⟨c, stage, hstage, hholds, rfl⟩ | ⟨e, herror⟩)
    · have hpermit := hk.sound.held c stage hstage hholds
      exact ⟨_, slot?_move_of_some rfl hslot, hk.sound.cancel_of_holder plan hpermit⟩
    · obtain ⟨c, rfl, hdeed⟩ := step_of_error hslot herror
      exact ⟨_, slot?_move_of_some rfl hslot, hk.sound.advance_of_error hdeed⟩
  · intro c hnext
    obtain ⟨hfirst, hsecond⟩ := hnext.deeds plan
    have hturn : d.deeds v (.step ⟨v, c⟩) = (slot.deed? plan c).toList := deeds_of_some rfl hslot
    have hlaunch : (d.move (.step ⟨v, c⟩)).deeds v (.step ⟨v, c⟩) =
        ((slot.advance plan c).1.deed? plan c).toList :=
      deeds_of_some rfl (slot?_move_of_some rfl hslot)
    rw [history, history, history, hturn, hlaunch, hfirst, hsecond]
    rfl
  · rintro c rfl
    obtain ⟨n, hpoll | ⟨result, slot', hpoll, hslot', hfinished⟩⟩ := poll_eq_run hslot
    · exact ⟨n, .inl hpoll⟩
    · refine ⟨n, .inr ⟨result, hpoll, ?_⟩⟩
      rw [← run_append] at hslot'
      exact (hkept c.vendor _ plan slot' hslot').faithful.callers c.caller _ hfinished

end Databases

end QueryMapping
