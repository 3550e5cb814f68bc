import Mathlib.Data.List.Induction
import QueryMapping.Launch.Databases
import QueryMapping.Proofs.Launch.History

/-! Runs of calls for instances, in which the steps of all callers are mixed in any order and any of
them may be given up at any time. -/

namespace QueryMapping

namespace Databases

inductive Move where
  | call (v : Vendor)
  | step (c : Call)
  | cancel (c : Call)

namespace Move

def vendor : Move → Vendor
  | .call v => v
  | .step c | .cancel c => c.vendor

def made : Move → Nat
  | .call _ => 1
  | .step _ | .cancel _ => 0

end Move

def move (d : Databases) : Move → Databases
  | .call v => (d.call v).2
  | .step c => d.advance c
  | .cancel c => d.cancel c

def run (d : Databases) (moves : List Move) : Databases := moves.foldl move d

end Databases

open Databases (Move)

namespace Slot

def move (plan : SlotPlan) (s : Slot) (fresh : Nat) : Move → Slot
  | .call _ => s.enter fresh
  | .step c => (s.advance plan c.caller).1
  | .cancel c => (s.cancel plan c.caller).1

def deed? (plan : SlotPlan) (s : Slot) (caller : Nat) : Option Deed :=
  (s.callers.get? caller).bind fun before =>
    ((s.advance plan caller).1.callers.get? caller).bind fun after => Deed.between before after

def deeds (plan : SlotPlan) (s : Slot) : Move → List Deed
  | .step c => (s.deed? plan c.caller).toList
  | .call _ | .cancel _ => []

structure Kept (plan : SlotPlan) (s : Slot) (fresh : Nat) (h : List Deed) : Prop where
  sound : s.Sound
  faithful : s.Faithful plan h
  known : ∀ c stage, s.callers.get? c = some stage → c < fresh

variable {plan : SlotPlan} {s : Slot} {fresh c : Nat} {h : List Deed}

def events (plan : SlotPlan) (s : Slot) : Move → List LaunchEvent
  | .call _ => []
  | .step c => (s.advance plan c.caller).2.1
  | .cancel c => (s.cancel plan c.caller).2

theorem deed?_of_same {events : List LaunchEvent} {turn : Turn}
    (h : s.advance plan c = (s, events, turn)) : s.deed? plan c = none := by
  rw [deed?, h]
  cases s.callers.get? c with
  | none => rfl
  | some stage => exact Deed.between_self stage

theorem deed?_of_step {before after : Stage} {s' : Slot} {events : List LaunchEvent} {turn : Turn}
    (hstage : s.callers.get? c = some before)
    (h : s.advance plan c = (s'.moveTo c after, events, turn)) :
    s.deed? plan c = Deed.between before after := by
  simp [deed?, h, hstage]

namespace Kept

theorem mono (hk : s.Kept plan fresh h) {fresh' : Nat} (hle : fresh ≤ fresh') :
    s.Kept plan fresh' h where
  sound := hk.sound
  faithful := hk.faithful
  known := fun c stage hstage => Nat.lt_of_lt_of_le (hk.known c stage hstage) hle

theorem enter (hk : s.Kept plan fresh h) : (s.enter fresh).Kept plan (fresh + 1) h where
  sound := by
    refine hk.sound.enter ?_
    cases hstage : s.callers.get? fresh with
    | none => rfl
    | some stage => exact absurd (hk.known fresh stage hstage) (Nat.lt_irrefl fresh)
  faithful := by
    refine hk.faithful.quiet rfl rfl
      (Faithful.justified_moveTo (rfl : s.callers = s.callers) ?_ trivial)
    exact fun c stage _ => hk.faithful.callers c stage
  known := by
    intro c stage hstage
    change (s.moveTo fresh .entering).callers.get? c = some stage at hstage
    rw [get?_moveTo] at hstage
    split at hstage
    · omega
    · exact Nat.lt_succ_of_lt (hk.known c stage hstage)

theorem advance (hk : s.Kept plan fresh h) (c : Nat) :
    (s.advance plan c).1.Kept plan fresh (h ++ (s.deed? plan c).toList) := by
  rcases s.advance_cases plan c with
    ⟨turn, heq, -⟩ | ⟨before, s', after, events, turn, hstage, hstep, heq, -⟩
  · rw [deed?_of_same heq, heq]
    simpa using hk
  · rw [deed?_of_step hstage heq, heq]
    refine ⟨hk.sound.step hstage hstep, hk.faithful.step hk.sound hstage hstep,
      fun c' stage hstage' => ?_⟩
    rw [get?_moveTo, hstep.callers_eq] at hstage'
    split at hstage'
    · next hc => exact hc ▸ hk.known c before hstage
    · exact hk.known c' stage hstage'

theorem cancel_eq (hs : s.Sound) (plan : SlotPlan) (c : Nat) :
    (s.cancel plan c).1.callers = s.callers.erase c ∧
    (s.cancel plan c).1.stored = s.stored ∧ (s.cancel plan c).1.launches = s.launches := by
  by_cases hpermit : s.permit = some c
  · rw [hs.cancel_of_permit hpermit]
    exact ⟨callers_passPermit _, stored_passPermit _, launches_passPermit _⟩
  · rw [hs.cancel_of_not_permit hpermit]
    exact ⟨rfl, rfl, rfl⟩

theorem cancel (hk : s.Kept plan fresh h) (c : Nat) : (s.cancel plan c).1.Kept plan fresh h := by
  obtain ⟨hcallers, hstored, hlaunches⟩ := cancel_eq hk.sound plan c
  have hold : ∀ c' stage, (s.cancel plan c).1.callers.get? c' = some stage →
      s.callers.get? c' = some stage := by
    intro c' stage hstage
    rw [hcallers] at hstage
    by_cases heq : c = c'
    · subst heq
      cases (Table.get?_erase_self s.callers c).symm.trans hstage
    · rwa [Table.get?_erase_of_ne s.callers heq] at hstage
  exact ⟨hk.sound.cancel,
    hk.faithful.quiet hstored hlaunches fun c' stage hstage =>
      hk.faithful.callers c' stage (hold c' stage hstage),
    fun c' stage hstage => hk.known c' stage (hold c' stage hstage)⟩

theorem move (hk : s.Kept plan fresh h) (m : Move) :
    (s.move plan fresh m).Kept plan (fresh + m.made) (h ++ s.deeds plan m) := by
  cases m with
  | call v => simpa [deeds, Slot.move, Move.made] using hk.enter
  | step c => exact hk.advance c.caller
  | cancel c => simpa [deeds, Slot.move, Move.made] using hk.cancel c.caller

end Kept

end Slot

namespace Databases

def deeds (d : Databases) (v : Vendor) (m : Move) : List Deed :=
  match d.slot? v with
  | some (plan, slot) => if m.vendor = v then slot.deeds plan m else []
  | none => []

def history (v : Vendor) : Databases → List Move → List Deed
  | _, [] => []
  | d, m :: moves => d.deeds v m ++ history v (d.move m) moves

variable {d : Databases} {v : Vendor} {plan : SlotPlan} {slot : Slot}

theorem run_append (d : Databases) (moves moves' : List Move) :
    d.run (moves ++ moves') = (d.run moves).run moves' :=
  List.foldl_append ..

theorem history_append (d : Databases) (v : Vendor) (moves moves' : List Move) :
    d.history v (moves ++ moves') = d.history v moves ++ (d.run moves).history v moves' := by
  induction moves generalizing d with
  | nil => rfl
  | cons m moves ih => rw [List.cons_append, history, ih, history, List.append_assoc]; rfl

theorem history_concat (d : Databases) (v : Vendor) (moves : List Move) (m : Move) :
    d.history v (moves ++ [m]) = d.history v moves ++ (d.run moves).deeds v m := by
  rw [history_append, history, history, List.append_nil]

theorem deeds_of_ne {m : Move} (h : m.vendor ≠ v) : d.deeds v m = [] := by
  unfold deeds
  cases d.slot? v with
  | none => rfl
  | some p => exact if_neg h

theorem deeds_of_some {m : Move} (hm : m.vendor = v) (hd : d.slot? v = some (plan, slot)) :
    d.deeds v m = slot.deeds plan m := by
  simp only [deeds, hd, if_pos hm]

theorem slot?_eq_some_iff :
    d.slot? v = some (plan, slot) ↔ d.plans.get? v = some plan ∧ d.slots.get? v = some slot := by
  unfold slot?
  cases d.plans.get? v <;> cases d.slots.get? v <;> simp

theorem slot?_setSlot {w : Vendor} (hd : d.slot? w = some (plan, slot)) (slot' : Slot)
    (events : List LaunchEvent) (v : Vendor) :
    (d.setSlot w slot' events).slot? v = if w = v then some (plan, slot') else d.slot? v := by
  by_cases heq : w = v
  · subst heq
    rw [if_pos rfl, slot?_eq_some_iff]
    exact ⟨(slot?_eq_some_iff.1 hd).1, Table.get?_set_self ..⟩
  · rw [if_neg heq, slot?, setSlot, Table.get?_set_of_ne heq]
    rfl

theorem move_of_some {m : Move} (hd : d.slot? m.vendor = some (plan, slot)) :
    d.move m = { d with calls := d.calls + m.made }.setSlot m.vendor (slot.move plan d.calls m)
      (slot.events plan m) := by
  cases m with
  | call v =>
    have hd' : { d with calls := d.calls + 1 }.slot? v = some (plan, slot) := hd
    simp only [move, call, hd']
    rfl
  | step c =>
    simp only [Move.vendor] at hd
    simp only [move, advance, hd]
    rfl
  | cancel c =>
    simp only [Move.vendor] at hd
    simp only [move, cancel, hd]
    rfl

theorem move_of_none {m : Move} (hd : d.slot? m.vendor = none) :
    d.move m = { d with calls := d.calls + m.made } := by
  cases m with
  | call v =>
    have hd' : { d with calls := d.calls + 1 }.slot? v = none := hd
    simp only [move, call, hd']
    rfl
  | step c =>
    simp only [Move.vendor] at hd
    simp only [move, advance, hd]
    rfl
  | cancel c =>
    simp only [Move.vendor] at hd
    simp only [move, cancel, hd]
    rfl

theorem calls_move (d : Databases) (m : Move) : (d.move m).calls = d.calls + m.made := by
  cases hd : d.slot? m.vendor with
  | none => rw [move_of_none hd]
  | some p => rw [move_of_some hd]; rfl

theorem slot?_move (d : Databases) (m : Move) (v : Vendor) : (d.move m).slot? v =
    if m.vendor = v then (d.slot? v).map fun p => (p.1, p.2.move p.1 d.calls m) else d.slot? v := by
  cases hd : d.slot? m.vendor with
  | none =>
    rw [move_of_none hd]
    change d.slot? v = _
    by_cases heq : m.vendor = v
    · rw [if_pos heq, ← heq, hd]
      rfl
    · rw [if_neg heq]
  | some p =>
    have hd' : { d with calls := d.calls + m.made }.slot? m.vendor = some p := hd
    rw [move_of_some hd, slot?_setSlot hd']
    by_cases heq : m.vendor = v
    · rw [if_pos heq, if_pos heq, ← heq, hd]
      rfl
    · rw [if_neg heq, if_neg heq]
      rfl

theorem slot?_move_of_some {m : Move} (hm : m.vendor = v) (hd : d.slot? v = some (plan, slot)) :
    (d.move m).slot? v = some (plan, slot.move plan d.calls m) := by
  rw [slot?_move, if_pos hm, hd]
  rfl

theorem kept_run {d : Databases}
    (hd : ∀ plan slot, d.slot? v = some (plan, slot) → slot.Kept plan d.calls [])
    (moves : List Move) :
    ∀ plan slot, (d.run moves).slot? v = some (plan, slot) →
      slot.Kept plan (d.run moves).calls (d.history v moves) := by
  -- The history grows at its end, so the induction takes the last move off.
  induction moves using List.reverseRecOn with
  | nil => exact hd
  | append_singleton moves m ih =>
    intro plan slot hslot
    have hrun : d.run (moves ++ [m]) = (d.run moves).move m := run_append ..
    rw [hrun, slot?_move] at hslot
    rw [hrun, calls_move, history_concat]
    by_cases heq : m.vendor = v
    · rw [if_pos heq] at hslot
      obtain ⟨⟨plan', slot'⟩, hold, hnew⟩ := Option.map_eq_some_iff.1 hslot
      obtain ⟨rfl, rfl⟩ := Prod.mk.inj hnew
      rw [deeds_of_some heq hold]
      exact (ih plan' slot' hold).move m
    · rw [if_neg heq] at hslot
      rw [deeds_of_ne heq, List.append_nil]
      exact (ih plan slot hslot).mono (Nat.le_add_right ..)

end Databases

end QueryMapping
