import Mathlib.Data.List.Nodup
import QueryMapping.Proofs.Launch.Step

/-! The invariant of a slot. Whoever works has the permit, the permit is either with a caller or
free, and the mark is on while its holder is in the part of its attempt that is marked. -/

namespace QueryMapping

namespace Slot

structure Sound (s : Slot) : Prop where
  held : ∀ c stage, s.callers.get? c = some stage → stage.holdsPermit = true → s.permit = some c
  handed : ∀ c, s.permit = some c → s.stored = none ∧ ∃ stage, s.callers.get? c = some stage ∧
    (stage = .queued ∨ stage.holdsPermit = true) ∧ s.starting = stage.marked
  free : s.permit = none → s.waiters = [] ∧ s.starting = false
  waiting : ∀ c ∈ s.waiters, s.callers.get? c = some .queued ∧ s.permit ≠ some c
  once : s.waiters.Nodup

theorem sound_fresh : fresh.Sound where
  held := by simp [fresh]
  handed := by simp [fresh]
  free := by simp [fresh]
  waiting := by simp [fresh]
  once := List.nodup_nil

variable {plan : SlotPlan} {s : Slot} {c : Nat}

theorem holdsPermit_of_set {callers : Table Nat Stage} {own stage : Stage}
    (hown : own.holdsPermit = false) (hstage : (callers.set c own).get? c = some stage) :
    stage.holdsPermit = false := by
  rw [Table.get?_set_self] at hstage
  cases hstage
  exact hown

namespace Sound

theorem permit_of_stored (h : s.Sound) {i : Instance} (hstored : s.stored = some i) :
    s.permit = none := by
  cases hpermit : s.permit with
  | none => rfl
  | some c =>
    have hnone := (h.handed c hpermit).1
    rw [hstored] at hnone
    cases hnone

theorem starting_of_permit (h : s.Sound) (hpermit : s.permit = some c) {stage : Stage}
    (hstage : s.callers.get? c = some stage) : s.starting = stage.marked := by
  obtain ⟨-, stage', hstage', -, hstarting⟩ := h.handed c hpermit
  rw [hstage] at hstage'
  cases hstage'
  exact hstarting

theorem holdsPermit_of_ne (h : s.Sound) (hpermit : s.permit ≠ some c) {stage : Stage}
    (hstage : s.callers.get? c = some stage) : stage.holdsPermit = false := by
  cases hholds : stage.holdsPermit with
  | false => rfl
  | true => exact absurd (h.held c stage hstage hholds) hpermit

theorem eq_of_holdsPermit (h : s.Sound) (hpermit : s.permit = some c) {c' : Nat} {stage : Stage}
    (hstage : s.callers.get? c' = some stage) (hholds : stage.holdsPermit = true) : c = c' :=
  Option.some.inj (hpermit.symm.trans (h.held c' stage hstage hholds))

theorem holdsPermit_of_other (h : s.Sound) (hpermit : s.permit = some c) {c' : Nat} (hne : c ≠ c')
    {stage : Stage} (hstage : s.callers.get? c' = some stage) : stage.holdsPermit = false :=
  Bool.eq_false_iff.2 fun hholds => hne (h.eq_of_holdsPermit hpermit hstage hholds)

theorem queued_of_waiting (h : s.Sound) (hpermit : s.permit = some c) {c' : Nat}
    (hmem : c' ∈ s.waiters) :
    c ≠ c' ∧ s.callers.get? c' = some .queued := by
  obtain ⟨hstage, hne⟩ := h.waiting c' hmem
  exact ⟨fun heq => hne (heq ▸ hpermit), hstage⟩

theorem keep (h : s.Sound) (hpermit : s.permit = some c) {after : Stage}
    (hafter : after.holdsPermit = true) {starting : Bool} (hstarting : starting = after.marked)
    (launches : Nat) :
    ({ s with starting := starting, launches := launches }.moveTo c after).Sound where
  held := by
    intro c' stage hstage hholds
    rw [get?_moveTo] at hstage
    split at hstage
    · next heq => exact heq ▸ hpermit
    · exact h.held c' stage hstage hholds
  handed := by
    intro c' hpermit'
    obtain rfl : c = c' := Option.some.inj (hpermit.symm.trans hpermit')
    exact ⟨(h.handed c hpermit).1, after, by rw [get?_moveTo, if_pos rfl], .inr hafter, hstarting⟩
  free := by
    intro hfree
    cases hpermit.symm.trans hfree
  waiting := by
    intro c' hmem
    obtain ⟨hne, hstage⟩ := h.queued_of_waiting hpermit hmem
    exact ⟨by rw [get?_moveTo, if_neg hne]; exact hstage, (h.waiting c' hmem).2⟩
  once := h.once

theorem release (h : s.Sound) (hpermit : s.permit = some c) {callers : Table Nat Stage}
    (hother : ∀ c', c ≠ c' → callers.get? c' = s.callers.get? c')
    (hown : ∀ stage, callers.get? c = some stage → stage.holdsPermit = false) :
    { s with starting := false, callers := callers }.passPermit.Sound where
  held := by
    intro c' stage hstage hholds
    rw [callers_passPermit] at hstage
    by_cases heq : c = c'
    · subst heq
      rw [hown stage hstage] at hholds
      cases hholds
    · rw [hother c' heq] at hstage
      exact absurd (h.eq_of_holdsPermit hpermit hstage hholds) heq
  handed := by
    intro c' hhead
    rw [permit_passPermit] at hhead
    obtain ⟨hne, hstage⟩ := h.queued_of_waiting hpermit (List.mem_of_head? hhead)
    rw [stored_passPermit, starting_passPermit, callers_passPermit]
    exact ⟨(h.handed c hpermit).1, .queued, (hother c' hne).trans hstage, .inl rfl, rfl⟩
  free := by
    intro hhead
    rw [permit_passPermit, List.head?_eq_none_iff] at hhead
    rw [waiters_passPermit, starting_passPermit]
    exact ⟨congrArg List.tail hhead, rfl⟩
  waiting := by
    intro c' hmem
    rw [waiters_passPermit] at hmem
    obtain ⟨hne, hstage⟩ := h.queued_of_waiting hpermit (List.mem_of_mem_tail hmem)
    rw [callers_passPermit, permit_passPermit]
    refine ⟨(hother c' hne).trans hstage, fun hhead => ?_⟩
    -- The one who got the permit waits no longer, as nobody waits twice.
    have honce := h.once
    rw [List.eq_cons_of_mem_head? hhead] at honce
    exact (List.nodup_cons.1 honce).1 hmem
  once := by
    rw [waiters_passPermit]
    exact h.once.tail

theorem aside (h : s.Sound) (hpermit : s.permit ≠ some c) {callers : Table Nat Stage}
    (hother : ∀ c', c ≠ c' → callers.get? c' = s.callers.get? c')
    (hown : ∀ stage, callers.get? c = some stage → stage.holdsPermit = false) :
    { s with callers := callers, waiters := s.waiters.erase c }.Sound where
  held := by
    intro c' stage hstage hholds
    by_cases heq : c = c'
    · subst heq
      rw [hown stage hstage] at hholds
      cases hholds
    · exact h.held c' stage ((hother c' heq).symm.trans hstage) hholds
  handed := by
    intro c' hpermit'
    have hne : c ≠ c' := fun heq => hpermit (heq ▸ hpermit')
    obtain ⟨hstored, stage, hstage, hrest⟩ := h.handed c' hpermit'
    exact ⟨hstored, stage, (hother c' hne).trans hstage, hrest⟩
  free := by
    intro hfree
    obtain ⟨hwaiters, hstarting⟩ := h.free hfree
    exact ⟨by rw [hwaiters]; rfl, hstarting⟩
  waiting := by
    intro c' hmem
    obtain ⟨hne, hmem⟩ := h.once.mem_erase_iff.1 hmem
    obtain ⟨hstage, hrest⟩ := h.waiting c' hmem
    exact ⟨(hother c' (Ne.symm hne)).trans hstage, hrest⟩
  once := h.once.erase c

theorem take (h : s.Sound) (hstored : s.stored = none) (hpermit : s.permit = none) :
    ({ s with permit := some c }.moveTo c .permitted).Sound where
  held := by
    intro c' stage hstage hholds
    rw [get?_moveTo] at hstage
    split at hstage
    · next heq => exact congrArg some heq
    · cases hpermit.symm.trans (h.held c' stage hstage hholds)
  handed := by
    intro c' hpermit'
    obtain rfl : c = c' := Option.some.inj hpermit'
    exact ⟨hstored, .permitted, by rw [get?_moveTo, if_pos rfl], .inr rfl, (h.free hpermit).2⟩
  free := by
    intro hfree
    cases hfree
  waiting := by
    intro c' hmem
    change c' ∈ s.waiters at hmem
    rw [(h.free hpermit).1] at hmem
    cases hmem
  once := h.once

theorem wait (h : s.Sound) {holder : Nat} (hpermit : s.permit = some holder)
    (hstage : s.callers.get? c = some .entering) :
    ({ s with waiters := s.waiters ++ [c] }.moveTo c .queued).Sound := by
  have hne : s.permit ≠ some c := by
    intro hpermit'
    obtain ⟨-, stage, hstage', hwhich, -⟩ := h.handed c hpermit'
    rw [hstage] at hstage'
    cases hstage'
    rcases hwhich with hwhich | hwhich <;> cases hwhich
  have hnew : c ∉ s.waiters := by
    intro hmem
    cases hstage.symm.trans (h.waiting c hmem).1
  constructor
  case held =>
    intro c' stage hstage' hholds
    rw [get?_moveTo] at hstage'
    split at hstage'
    · cases hstage'
      cases hholds
    · exact h.held c' stage hstage' hholds
  case handed =>
    intro c' hpermit'
    have hother : c ≠ c' := fun heq => hne (heq ▸ hpermit')
    rw [get?_moveTo, if_neg hother]
    exact h.handed c' hpermit'
  case free =>
    intro hfree
    cases hpermit.symm.trans hfree
  case waiting =>
    intro c' hmem
    rw [get?_moveTo]
    rcases List.mem_append.1 hmem with hmem | hmem
    · have hother : c ≠ c' := fun heq => hnew (heq ▸ hmem)
      rw [if_neg hother]
      exact h.waiting c' hmem
    · obtain rfl := List.mem_singleton.1 hmem
      exact ⟨if_pos rfl, hne⟩
  case once =>
    refine List.nodup_append.2 ⟨h.once, List.nodup_singleton c, ?_⟩
    rintro c' hmem c'' hmem' rfl
    exact hnew (List.mem_singleton.1 hmem' ▸ hmem)

theorem store (h : s.Sound) {i : Instance} (hstage : s.callers.get? c = some (.settling (.ok i))) :
    ((s.store i).moveTo c (.finished (.ok i))).Sound where
  held := by
    intro c' stage hstage' hholds
    have hpermit := h.held c _ hstage rfl
    rw [get?_moveTo] at hstage'
    split at hstage'
    · cases hstage'
      cases hholds
    · next hne =>
        exact absurd (h.eq_of_holdsPermit hpermit hstage' hholds) hne
  handed := by
    intro c' hpermit
    cases hpermit
  free := fun _ => ⟨rfl, h.starting_of_permit (h.held c _ hstage rfl) hstage⟩
  waiting := by
    intro c' hmem
    cases hmem
  once := List.nodup_nil

theorem step (h : s.Sound) {before after : Stage} {s' : Slot} {events : List LaunchEvent}
    (hstage : s.callers.get? c = some before) (hstep : Step plan s c before s' after events) :
    (s'.moveTo c after).Sound := by
  cases hstep with
  | find hbefore hstored =>
    -- As the instance is there, the permit is free and nobody waits.
    have hpermit := h.permit_of_stored hstored
    have hwaiters : s.waiters = s.waiters.erase c := by
      rw [(h.free hpermit).1]
      rfl
    rw [moveTo, hwaiters]
    have hnot : s.permit ≠ some c := by simp [hpermit]
    exact h.aside hnot (fun _ hne => Table.get?_set_of_ne hne ..) fun _ => holdsPermit_of_set rfl
  | take hstored hpermit => exact h.take hstored hpermit
  | wait hstored hpermit => exact h.wait hpermit hstage
  | turn hstored hpermit =>
    have hstarting := h.starting_of_permit hpermit hstage
    have hmark : s.starting = Stage.permitted.marked := hstarting
    exact h.keep hpermit rfl hmark s.launches
  | launch => exact h.keep (h.held c _ hstage rfl) (by rfl) (by rfl) _
  | work hwork =>
    have hpermit := h.held c _ hstage hwork.holdsPermit_before
    have hstarting := h.starting_of_permit hpermit hstage
    exact h.keep hpermit hwork.holdsPermit_after (hstarting.trans hwork.marked) s.launches
  | leave => exact h.keep (h.held c _ hstage rfl) (by rfl) (by rfl) _
  | store => exact h.store hstage
  | @pass e =>
    have hpermit := h.held c _ hstage rfl
    have hstarting := h.starting_of_permit hpermit hstage
    rw [moveTo_passPermit, moveTo, hstarting]
    exact h.release hpermit (fun _ hne => Table.get?_set_of_ne hne ..) fun _ =>
      holdsPermit_of_set rfl

theorem enter (h : s.Sound) (hnew : s.callers.get? c = none) : (s.enter c).Sound := by
  have hpermit : s.permit ≠ some c := by
    intro hpermit
    obtain ⟨-, stage, hstage, -⟩ := h.handed c hpermit
    cases hnew.symm.trans hstage
  have hwaiters : c ∉ s.waiters := by
    intro hmem
    cases hnew.symm.trans (h.waiting c hmem).1
  rw [Slot.enter, ← List.erase_of_not_mem hwaiters]
  exact h.aside hpermit (fun _ hne => Table.get?_set_of_ne hne ..) fun _ => holdsPermit_of_set rfl

/-- Whoever has the permit is given up in one way, whatever it works at. -/
theorem cancel_of_permit (h : s.Sound) (hpermit : s.permit = some c) :
    (s.cancel plan c).1 =
      { s with starting := false, callers := s.callers.erase c }.passPermit := by
  obtain ⟨-, stage, hstage, hwhich, hstarting⟩ := h.handed c hpermit
  cases stage with
  | entering | finished result => rcases hwhich with hwhich | hwhich <;> cases hwhich
  | queued =>
    have hmark : s.starting = false := hstarting
    simp only [cancel, hstage, if_pos hpermit, ← hmark]
  | permitted =>
    have hmark : s.starting = false := hstarting
    simp only [cancel, hstage, ← hmark]
  | launching number delay | preparing i left => simp only [cancel, hstage]
  | leaving result | settling result => cases result <;> simp only [cancel, hstage]

theorem cancel_of_not_permit (h : s.Sound) (hpermit : s.permit ≠ some c) :
    (s.cancel plan c).1 =
      { s with callers := s.callers.erase c, waiters := s.waiters.erase c } := by
  have hwaiters : s.callers.get? c ≠ some .queued → s.waiters.erase c = s.waiters := fun hne =>
    List.erase_of_not_mem fun hmem => hne (h.waiting c hmem).1
  cases hstage : s.callers.get? c with
  | none => rw [hwaiters (by simp [hstage])]; simp only [Slot.cancel, hstage]
  | some stage =>
    have hholds := h.holdsPermit_of_ne hpermit hstage
    cases stage with
    | queued => simp only [Slot.cancel, hstage, if_neg hpermit]
    | entering | finished result =>
      rw [hwaiters (by simp [hstage])]; simp only [Slot.cancel, hstage]
    | permitted | launching number delay | preparing i left | leaving result | settling result =>
      cases hholds

theorem cancel (h : s.Sound) : (s.cancel plan c).1.Sound := by
  have hother : ∀ c', c ≠ c' → (s.callers.erase c).get? c' = s.callers.get? c' := fun c' hne =>
    Table.get?_erase_of_ne s.callers hne
  have hown : ∀ stage, (s.callers.erase c).get? c = some stage → stage.holdsPermit = false := by
    intro stage hstage
    cases (Table.get?_erase_self s.callers c).symm.trans hstage
  by_cases hpermit : s.permit = some c
  · rw [h.cancel_of_permit hpermit]
    exact h.release hpermit hother hown
  · rw [h.cancel_of_not_permit hpermit]
    exact h.aside hpermit hother hown

end Sound

end Slot

end QueryMapping
