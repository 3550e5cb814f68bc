import QueryMapping.Proofs.Launch.Databases
import QueryMapping.Sample.Launcher

/-! What an observer sees of a slot while its callers go on. It reads whether the instance is there,
and then whether the slot is marked, and anything may happen in between. -/

namespace QueryMapping

open Databases (Move)

theorem Stage.holdsPermit_of_marked {stage : Stage} (h : stage.marked = true) :
    stage.holdsPermit = true := by
  cases stage with
  | launching number delay | preparing i left | leaving result => rfl
  | entering | queued | permitted | settling result | finished result => cases h

namespace Slot

/-- Whether a caller is in the part of its attempt that is marked. -/
def Attempting (s : Slot) (c : Nat) : Prop :=
  ∃ stage, s.callers.get? c = some stage ∧ stage.marked = true

inductive Ends (s : Slot) (v : Vendor) (c : Nat) : Move → Prop where
  | cancelled (h : s.Attempting c) : Ends s v c (.cancel ⟨v, c⟩)
  | failed {e : LaunchError} (h : s.callers.get? c = some (.leaving (.error e))) :
    Ends s v c (.step ⟨v, c⟩)
  | succeeded {i : Instance} (h : s.callers.get? c = some (.leaving (.ok i))) :
    Ends s v c (.step ⟨v, c⟩)

theorem observed_eq_ready_iff {stored : Option Instance} {starting : Bool} :
    observed stored starting = .ready ↔ ∃ i, stored = some i := by
  cases stored <;> cases starting <;> simp [observed]

theorem observed_eq_starting_iff {stored : Option Instance} {starting : Bool} :
    observed stored starting = .starting ↔ stored = none ∧ starting = true := by
  cases stored <;> cases starting <;> simp [observed]

variable {plan : SlotPlan} {s : Slot} {fresh c : Nat} {h : List Deed}

theorem Sound.starting_iff (hs : s.Sound) : s.starting = true ↔ ∃ c, s.Attempting c := by
  constructor
  · intro hstarting
    cases hpermit : s.permit with
    | none => cases hstarting.symm.trans (hs.free hpermit).2
    | some c =>
      obtain ⟨-, stage, hstage, -, hmark⟩ := hs.handed c hpermit
      exact ⟨c, stage, hstage, hmark.symm.trans hstarting⟩
  · rintro ⟨c, stage, hstage, hmarked⟩
    have hpermit := hs.held c stage hstage (Stage.holdsPermit_of_marked hmarked)
    exact (hs.starting_of_permit hpermit hstage).trans hmarked

theorem Sound.stored_of_starting (hs : s.Sound) (hstarting : s.starting = true) :
    s.stored = none := by
  cases hstored : s.stored with
  | none => rfl
  | some i => cases hstarting.symm.trans (hs.free (hs.permit_of_stored hstored)).2

theorem Step.marked_or_leaving {before after : Stage} {s' : Slot} {events : List LaunchEvent}
    (hstep : Step plan s c before s' after events) (hmarked : before.marked = true) :
    after.marked = true ∨ ∃ result, before = .leaving result := by
  cases hstep with
  | find hbefore _ => rcases hbefore with rfl | rfl <;> cases hmarked
  | work hwork => exact .inl (hwork.marked.symm.trans hmarked)
  | @leave result => exact .inr ⟨result, rfl⟩
  | take _ _ | wait _ _ | turn _ _ | launch | store | pass => cases hmarked

/-- No move ends an attempt but its caller's own last step, and giving the caller up. -/
theorem Attempting.move (hk : s.Kept plan fresh h) (ha : s.Attempting c) {m : Move} {v : Vendor}
    (hm : m.vendor = v) : (s.move plan fresh m).Attempting c ∨ s.Ends v c m := by
  obtain ⟨stage, hstage, hmarked⟩ := ha
  cases m with
  | call w =>
    have hne : fresh ≠ c := Nat.ne_of_gt (hk.known c stage hstage)
    exact .inl ⟨stage, (Table.get?_set_of_ne hne ..).trans hstage, hmarked⟩
  | step c' =>
    obtain ⟨w, c'⟩ := c'
    cases hm
    change (s.advance plan c').1.Attempting c ∨ _
    rcases s.advance_cases plan c' with
      ⟨turn, heq, -⟩ | ⟨before, s', after, events, turn, hbefore, hstep, heq, -⟩
    · rw [heq]
      exact .inl ⟨stage, hstage, hmarked⟩
    · rw [heq]
      by_cases hc : c' = c
      · subst hc
        obtain rfl : before = stage := Option.some.inj (hbefore.symm.trans hstage)
        obtain hafter | ⟨result, rfl⟩ := hstep.marked_or_leaving hmarked
        · exact .inl ⟨after, Table.get?_set_self .., hafter⟩
        · cases result with
          | error e => exact .inr (.failed hstage)
          | ok i => exact .inr (.succeeded hstage)
      · refine .inl ⟨stage, ?_, hmarked⟩
        rw [get?_moveTo, if_neg hc, hstep.callers_eq, hstage]
  | cancel c' =>
    obtain ⟨w, c'⟩ := c'
    cases hm
    by_cases hc : c' = c
    · subst hc
      exact .inr (.cancelled ⟨stage, hstage, hmarked⟩)
    · refine .inl ⟨stage, ?_, hmarked⟩
      change (s.cancel plan c').1.callers.get? c = some stage
      rw [(Kept.cancel_eq hk.sound plan c').1, Table.get?_erase_of_ne _ hc, hstage]

theorem Kept.stored_move (hk : s.Kept plan fresh h) (m : Move) {i : Instance}
    (hstored : s.stored = some i) :
    (s.move plan fresh m).stored = some i := by
  cases m with
  | call w => exact hstored
  | cancel c' => exact (Kept.cancel_eq hk.sound plan c'.caller).2.1.trans hstored
  | step c' =>
    change (s.advance plan c'.caller).1.stored = some i
    rcases s.advance_cases plan c'.caller with
      ⟨turn, heq, -⟩ | ⟨before, s', after, events, turn, hbefore, hstep, heq, -⟩
    · rw [heq]
      exact hstored
    · rw [heq]
      cases hstep with
      | store =>
        -- Whoever is about to store an instance has the permit, which nobody has any more.
        cases (hk.sound.held _ _ hbefore rfl).symm.trans (hk.sound.permit_of_stored hstored)
      | pass => exact (stored_passPermit s).trans hstored
      | find _ _ | take _ _ | wait _ _ | turn _ _ | launch | work _ | leave => exact hstored

end Slot

namespace Databases

/-- What an observer sees of a vendor's slot whose first read finds it as it is here, with moves
made before the second. -/
def seen (d : Databases) (v : Vendor) (between : List Move) : SlotState :=
  Slot.observed ((d.slots.get? v).bind Slot.stored)
    (((d.run between).slots.get? v).elim false Slot.starting)

variable {launchers : List Launcher} {preparations : List (Vendor × PostStart)} {d : Databases}
    {v : Vendor}
  {plan : SlotPlan} {slot : Slot} {c : Nat}

def Reached (launchers : List Launcher) (preparations : List (Vendor × PostStart))
    (d : Databases) : Prop :=
  ∃ moves, (ofLaunchers launchers preparations).run moves = d

namespace Reached

theorem run (hd : Reached launchers preparations d) (moves : List Move) :
    Reached launchers preparations (d.run moves) := by
  obtain ⟨earlier, rfl⟩ := hd
  exact ⟨earlier ++ moves, run_append ..⟩

theorem move (hd : Reached launchers preparations d) (m : Move) :
    Reached launchers preparations (d.move m) :=
  hd.run [m]

theorem kept (hd : Reached launchers preparations d) (hslot : d.slot? v = some (plan, slot)) :
    ∃ h, slot.Kept plan d.calls h := by
  obtain ⟨moves, rfl⟩ := hd
  exact ⟨_, kept_run (fun _ _ => kept_ofLaunchers) moves plan slot hslot⟩

theorem get?_slots (hd : Reached launchers preparations d) (v : Vendor) :
    d.slots.get? v = (d.slot? v).map Prod.snd := by
  obtain ⟨moves, rfl⟩ := hd
  induction moves using List.reverseRecOn generalizing v with
  | nil =>
    have hslots := Table.get?_map (ofLaunchers launchers preparations).plans (fun _ => Slot.fresh) v
    change (ofLaunchers launchers preparations).slots.get? v =
      ((ofLaunchers launchers preparations).plans.get? v).map fun _ => Slot.fresh at hslots
    change (ofLaunchers launchers preparations).slots.get? v =
      ((ofLaunchers launchers preparations).slot? v).map _
    rw [slot?, hslots]
    cases (ofLaunchers launchers preparations).plans.get? v <;> rfl
  | append_singleton moves m ih =>
    rw [run_append]
    change (Databases.move _ m).slots.get? v = ((Databases.move _ m).slot? v).map Prod.snd
    generalize (ofLaunchers launchers preparations).run moves = d at ih ⊢
    cases hslot : d.slot? m.vendor with
    | none =>
      rw [move_of_none hslot]
      exact ih v
    | some p =>
      have hslot' : { d with calls := d.calls + m.made }.slot? m.vendor = some p := hslot
      rw [move_of_some hslot, slot?_setSlot hslot', setSlot, Table.get?_set]
      split
      · rfl
      · exact ih v

theorem attempting_or_ends (hd : Reached launchers preparations d) (moves : List Move)
    (hslot : d.slot? v = some (plan, slot)) (ha : slot.Attempting c) :
    (∃ slot', (d.run moves).slot? v = some (plan, slot') ∧ slot'.Attempting c) ∨
      ∃ before m after slot', moves = before ++ m :: after ∧
        (d.run before).slot? v = some (plan, slot') ∧ slot'.Ends v c m := by
  induction moves generalizing d slot with
  | nil => exact .inl ⟨slot, hslot, ha⟩
  | cons m moves ih =>
    -- As long as the attempt goes on, the rest of the run decides.
    have hrest : ∀ slot', (d.move m).slot? v = some (plan, slot') → slot'.Attempting c →
        (∃ slot'', (d.run (m :: moves)).slot? v = some (plan, slot'') ∧ slot''.Attempting c) ∨
          ∃ before m' after slot'', m :: moves = before ++ m' :: after ∧
            (d.run before).slot? v = some (plan, slot'') ∧ slot''.Ends v c m' := by
      intro slot' hslot' ha'
      obtain hgoes | ⟨before, m', after, slot'', rfl, hbefore, hends⟩ := ih (hd.move m) hslot' ha'
      · exact .inl hgoes
      · exact .inr ⟨m :: before, m', after, slot'', rfl, hbefore, hends⟩
    by_cases hm : m.vendor = v
    · obtain ⟨h, hk⟩ := hd.kept hslot
      obtain hgoes | hends := ha.move hk hm
      · exact hrest _ (slot?_move_of_some hm hslot) hgoes
      · exact .inr ⟨[], m, moves, slot, rfl, hslot, hends⟩
    · exact hrest slot (by rw [slot?_move, if_neg hm, hslot]) ha

theorem exists_plan (hd : Reached launchers preparations d) (hslot : d.slots.get? v = some slot) :
    ∃ plan, d.slot? v = some (plan, slot) := by
  rw [hd.get?_slots] at hslot
  obtain ⟨⟨plan, slot'⟩, hslot', rfl⟩ := Option.map_eq_some_iff.1 hslot
  exact ⟨plan, hslot'⟩

theorem stored_run (hd : Reached launchers preparations d) (moves : List Move) {i : Instance}
    (hslot : d.slots.get? v = some slot) (hstored : slot.stored = some i) :
    ∃ slot', (d.run moves).slots.get? v = some slot' ∧ slot'.stored = some i := by
  induction moves generalizing d slot with
  | nil => exact ⟨slot, hslot, hstored⟩
  | cons m moves ih =>
    obtain ⟨plan, hslot⟩ := hd.exists_plan hslot
    have hmove := slot?_move d m v
    by_cases hm : m.vendor = v
    · obtain ⟨h, hk⟩ := hd.kept hslot
      rw [if_pos hm, hslot] at hmove
      exact ih (hd.move m) (slot?_eq_some_iff.1 hmove).2 (hk.stored_move m hstored)
    · rw [if_neg hm, hslot] at hmove
      exact ih (hd.move m) (slot?_eq_some_iff.1 hmove).2 hstored

theorem seen_eq_ready_iff (d : Databases) (v : Vendor) (between : List Move) :
    d.seen v between = .ready ↔ ∃ slot i, d.slots.get? v = some slot ∧ slot.stored = some i := by
  simp only [seen, Slot.observed_eq_ready_iff, Option.bind_eq_some_iff, exists_comm,
    exists_and_left]

theorem seen_eq_starting_iff (hd : Reached launchers preparations d) (between : List Move) :
    d.seen v between = .starting ↔
      ∃ slot c, (d.run between).slots.get? v = some slot ∧ slot.Attempting c := by
  rw [seen, Slot.observed_eq_starting_iff]
  constructor
  · rintro ⟨-, hstarting⟩
    cases hslot : (d.run between).slots.get? v with
    | none =>
      rw [hslot] at hstarting
      cases hstarting
    | some slot =>
      rw [hslot] at hstarting
      obtain ⟨plan, hslot'⟩ := (hd.run between).exists_plan hslot
      obtain ⟨h, hk⟩ := (hd.run between).kept hslot'
      obtain ⟨c, hc⟩ := hk.sound.starting_iff.1 hstarting
      exact ⟨slot, c, rfl, hc⟩
  · rintro ⟨slot, c, hslot, hc⟩
    obtain ⟨plan, hslot'⟩ := (hd.run between).exists_plan hslot
    obtain ⟨h, hk⟩ := (hd.run between).kept hslot'
    have hstarting := hk.sound.starting_iff.2 ⟨c, hc⟩
    -- What was stored at the first read would be stored still, and no attempt go on.
    have hstored : (d.slots.get? v).bind Slot.stored = none := by
      refine Option.eq_none_iff_forall_ne_some.2 fun i hi => ?_
      obtain ⟨slot₀, hslot₀, hi⟩ := Option.bind_eq_some_iff.1 hi
      obtain ⟨slot₁, hslot₁, hi⟩ := hd.stored_run between hslot₀ hi
      obtain rfl : slot = slot₁ := Option.some.inj (hslot.symm.trans hslot₁)
      cases (hk.sound.stored_of_starting hstarting).symm.trans hi
    rw [hslot]
    exact ⟨hstored, hstarting⟩

end Reached

/-- However callers take turns, and whatever they do between the two reads of an observer: it sees
Ready when its first read comes after the instance is stored, and for ever after, and it sees
Starting when its second read comes while an attempt is marked. An attempt that it has seen so has
come to its end when it sees Unstarted. -/
theorem states_seen (launchers : List Launcher) (preparations : List (Vendor × PostStart))
    (v : Vendor) (moves during : List Move) :
    let d := (ofLaunchers launchers preparations).run moves
    (d.seen v during = .ready ↔ ∃ slot i, d.slots.get? v = some slot ∧ slot.stored = some i) ∧
      (d.seen v during = .starting ↔
        ∃ slot c, (d.run during).slots.get? v = some slot ∧ slot.Attempting c) ∧
      (∀ slot c i, d.slots.get? v = some slot → slot.callers.get? c = some (.finished (.ok i)) →
        d.seen v during = .ready) ∧
      -- The same observer looks again, after other moves.
      ∀ meanwhile during', let d' := d.run (during ++ meanwhile)
        (d.seen v during = .ready → d'.seen v during' = .ready) ∧
          (d.seen v during = .starting → d'.seen v during' = .unstarted →
            ∃ c before m after slot, meanwhile ++ during' = before ++ m :: after ∧
              (d.run (during ++ before)).slots.get? v = some slot ∧ slot.Ends v c m) := by
  intro d
  have hd : Reached launchers preparations d := ⟨moves, rfl⟩
  refine ⟨Reached.seen_eq_ready_iff .., hd.seen_eq_starting_iff during,
    fun slot c i hslot hstage => ?_, fun meanwhile during' =>
      ⟨fun hready => ?_, fun hstarting hunstarted => ?_⟩⟩
  · obtain ⟨plan, hslot'⟩ := hd.exists_plan hslot
    obtain ⟨h, hk⟩ := hd.kept hslot'
    exact (Reached.seen_eq_ready_iff ..).2
      ⟨slot, i, hslot, hk.faithful.told i (hk.faithful.callers c _ hstage)⟩
  · obtain ⟨slot, i, hslot, hstored⟩ := (Reached.seen_eq_ready_iff ..).1 hready
    obtain ⟨slot', hslot', hstored'⟩ := hd.stored_run (during ++ meanwhile) hslot hstored
    exact (Reached.seen_eq_ready_iff ..).2 ⟨slot', i, hslot', hstored'⟩
  · obtain ⟨slot, c, hslot, hc⟩ := (hd.seen_eq_starting_iff during).1 hstarting
    obtain ⟨plan, hslot⟩ := (hd.run during).exists_plan hslot
    obtain ⟨slot', hslot', hc'⟩ | ⟨before, m, after, slot', heq, hslot', hends⟩ :=
      (hd.run during).attempting_or_ends (meanwhile ++ during') hslot hc
    · rw [← run_append, ← List.append_assoc, run_append] at hslot'
      have hstill := ((hd.run (during ++ meanwhile)).seen_eq_starting_iff during').2
        ⟨slot', c, (slot?_eq_some_iff.1 hslot').2, hc'⟩
      cases hunstarted.symm.trans hstill
    · rw [← run_append] at hslot'
      exact ⟨c, before, m, after, slot', heq, (slot?_eq_some_iff.1 hslot').2, hends⟩

open Sample in
/-- An attempt succeeds, and yet an observer that has seen it Starting sees Unstarted before it sees
Ready. -/
theorem unstarted_before_ready :
    let launcher : PlannedLauncher := ⟨.postgres, "postgres://localhost/db", "app", none, 0, []⟩
    let d := ofLaunchers [launcher.launcher] []
    let step : Move := .step ⟨.postgres, 0⟩
    let launching : List Move := [.call .postgres, step, step]
    let unmarked := launching ++ [step, step]
    let stored := unmarked ++ [step]
    (d.run launching).seen .postgres [] = .starting ∧
      (d.run unmarked).seen .postgres [] = .unstarted ∧
      (d.run stored).seen .postgres [] = .ready ∧
      -- With one read on each side of it, a call sees Unstarted though the instance is there by
      -- then.
      (d.run launching).seen .postgres [step, step, step] = .unstarted ∧
      d.history .postgres stored =
        [.launch 1, .returned (.ok ⟨1, launcher.source 1, some ⟨none⟩⟩)] :=
  ⟨rfl, rfl, rfl, rfl, rfl⟩

end Databases

end QueryMapping
