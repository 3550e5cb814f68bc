import QueryMapping.Launch.Slot

/-! The instances of a test run: a slot for each vendor that has a launcher. Calls for an instance
are made first and then polled, and can be cancelled in between. -/

namespace QueryMapping

structure Call where
  vendor : Vendor
  caller : Nat
deriving DecidableEq, Repr

structure Databases where
  plans : Table Vendor SlotPlan
  slots : Table Vendor Slot
  calls : Nat
  events : List LaunchEvent

namespace Databases

/-- The last launcher given for a vendor counts, and so does the last preparation. -/
def ofLaunchers (launchers : List Launcher) (preparations : List (Vendor × PostStart)) :
    Databases :=
  let prepared : Table Vendor PostStart :=
    preparations.foldl (fun t p => t.set p.1 p.2) []
  let plans : Table Vendor SlotPlan :=
    launchers.foldl (fun t l => t.set l.vendor ⟨l, prepared.get? l.vendor⟩) []
  ⟨plans, plans.map fun entry => (entry.1, Slot.fresh), 0, []⟩

def state (d : Databases) (v : Vendor) : SlotState :=
  (d.slots.get? v).elim .unstarted Slot.state

def vendors (d : Databases) : List Vendor := Vendor.all.filter fun v => d.plans.contains v

def display (d : Databases) : String :=
  let shown := d.vendors.map fun v => "(" ++ v.display ++ ", " ++ (d.state v).display ++ ")"
  "TestDatabases \x7b slots: [" ++ ", ".intercalate shown ++ "] \x7d"

def slot? (d : Databases) (v : Vendor) : Option (SlotPlan × Slot) :=
  match d.plans.get? v, d.slots.get? v with
  | some plan, some slot => some (plan, slot)
  | _, _ => none

def setSlot (d : Databases) (v : Vendor) (slot : Slot) (events : List LaunchEvent) : Databases :=
  { d with slots := d.slots.set v slot, events := d.events ++ events }

def call (d : Databases) (v : Vendor) : Call × Databases :=
  let c : Call := ⟨v, d.calls⟩
  let d := { d with calls := d.calls + 1 }
  match d.slot? v with
  | some (_, slot) => (c, d.setSlot v (slot.enter c.caller) [])
  | none => (c, d)

def advance (d : Databases) (c : Call) : Databases :=
  match d.slot? c.vendor with
  | some (plan, slot) =>
    let (slot, events, _) := slot.advance plan c.caller
    d.setSlot c.vendor slot events
  | none => d

def poll (d : Databases) (c : Call) : Option (Except LaunchError Instance) × Databases :=
  match d.slot? c.vendor with
  | some (plan, slot) =>
    let (slot, events, result) := slot.poll plan c.caller
    (result, d.setSlot c.vendor slot events)
  | none => (some (.error (.noLauncher c.vendor)), d)

def cancel (d : Databases) (c : Call) : Databases :=
  match d.slot? c.vendor with
  | some (plan, slot) =>
    let (slot, events) := slot.cancel plan c.caller
    d.setSlot c.vendor slot events
  | none => d

def pollUpTo (c : Call) : Nat → Databases → Option (Except LaunchError Instance) × Databases
  | 0, d => (none, d)
  | polls + 1, d =>
    match d.poll c with
    | (some result, d) => (some result, d)
    | (none, d) => pollUpTo c polls d

/-- Makes a call and polls it up to a number of times; without a result by then it is given up. -/
def getWithin (d : Databases) (polls : Nat) (v : Vendor) :
    Option (Except LaunchError Instance) × Databases :=
  let (c, d) := d.call v
  match pollUpTo c polls d with
  | (some result, d) => (some result, d)
  | (none, d) => (none, d.cancel c)

def pollsNeeded (d : Databases) (v : Vendor) : Nat :=
  match d.slot? v with
  | some (plan, slot) => plan.polls (slot.launches + 1)
  | none => 1

def get (d : Databases) (v : Vendor) : Except LaunchError Instance × Databases :=
  let (result, d) := d.getWithin (d.pollsNeeded v) v
  (result.getD (.error (.launch v)), d)

end Databases

end QueryMapping
