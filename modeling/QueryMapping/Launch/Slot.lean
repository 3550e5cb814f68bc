import QueryMapping.Launch.Basic
import QueryMapping.Table

/-! The slot of one vendor: callers ask it for the vendor's instance, and the first of them starts
it. One permit goes around. Its holder launches, the others wait in the order in which they came,
and a holder that fails or is cancelled hands the permit to the first who waits. `Slot.advance`
takes one caller one small step, so that the steps of several callers can be mixed in any order. -/

namespace QueryMapping

inductive Stage where
  | entering
  /-- Waits for the permit, or for the instance. -/
  | queued
  | permitted
  | launching (number delay : Nat)
  | preparing (i : Instance) (left : Preparation)
  /-- The attempt is over, and the slot is still marked as starting. -/
  | leaving (result : Except LaunchError Instance)
  /-- The mark is gone, and the result has yet to be stored. -/
  | settling (result : Except LaunchError Instance)
  | finished (result : Except LaunchError Instance)

namespace Stage

def holdsPermit : Stage → Bool
  | .permitted | .launching .. | .preparing .. | .leaving _ | .settling _ => true
  | .entering | .queued | .finished _ => false

end Stage

structure SlotPlan where
  launcher : Launcher
  postStart : Option PostStart

namespace SlotPlan

def started (number : Nat) (up : DataSource × Option AdminSession) : Instance :=
  ⟨number, up.1, up.2⟩

def polls (plan : SlotPlan) (number : Nat) : Nat :=
  let attempt := plan.launcher.attempt number
  match attempt.outcome, plan.postStart with
  | .ok up, some prepare => attempt.delay + (prepare (started number up)).pauses.length + 1
  | _, _ => attempt.delay + 1

end SlotPlan

inductive SlotState where
  | unstarted
  | starting
  | ready
deriving DecidableEq, Repr

namespace SlotState

def display : SlotState → String
  | .unstarted => "Unstarted"
  | .starting => "Starting"
  | .ready => "Ready"

end SlotState

structure Slot where
  /-- Set at most once, and never changed after that. -/
  stored : Option Instance
  starting : Bool
  launches : Nat
  /-- The caller that has the permit, or was handed it while it waits. -/
  permit : Option Nat
  /-- Those who wait for the permit, the first to come first. -/
  waiters : List Nat
  callers : Table Nat Stage

namespace Slot

def fresh : Slot := ⟨none, false, 0, none, [], []⟩

/-- What an observer makes of the instance, read first, and of the mark, read after it. -/
def observed (stored : Option Instance) (starting : Bool) : SlotState :=
  if stored.isSome then .ready else if starting then .starting else .unstarted

def state (s : Slot) : SlotState := observed s.stored s.starting

def enter (s : Slot) (caller : Nat) : Slot :=
  { s with callers := s.callers.set caller .entering }

def moveTo (s : Slot) (caller : Nat) (stage : Stage) : Slot :=
  { s with callers := s.callers.set caller stage }

def passPermit (s : Slot) : Slot :=
  match s.waiters with
  | [] => { s with permit := none }
  | next :: rest => { s with permit := some next, waiters := rest }

def store (s : Slot) (i : Instance) : Slot :=
  { s with stored := some i, permit := none, waiters := [] }

inductive Turn where
  | more
  | pause
  | done (result : Except LaunchError Instance)

def advance (plan : SlotPlan) (s : Slot) (caller : Nat) : Slot × List LaunchEvent × Turn :=
  let v := plan.launcher.vendor
  match s.callers.get? caller with
  | none => (s, [], .pause)
  | some .entering =>
    match s.stored, s.permit with
    | some i, _ => (s.moveTo caller (.finished (.ok i)), [], .more)
    | none, none => ({ s with permit := some caller }.moveTo caller .permitted, [], .more)
    | none, some _ =>
      ({ s with waiters := s.waiters ++ [caller] }.moveTo caller .queued, [], .more)
  | some .queued =>
    match s.stored with
    | some i => (s.moveTo caller (.finished (.ok i)), [], .more)
    | none =>
      if s.permit = some caller then (s.moveTo caller .permitted, [], .more) else (s, [], .pause)
  | some .permitted =>
    let number := s.launches + 1
    ({ s with starting := true, launches := number }.moveTo caller
      (.launching number (plan.launcher.attempt number).delay), [.launched v number], .more)
  | some (.launching number (delay + 1)) => (s.moveTo caller (.launching number delay), [], .pause)
  | some (.launching number 0) =>
    match (plan.launcher.attempt number).outcome with
    | .error e => (s.moveTo caller (.leaving (.error e)), [], .more)
    | .ok up =>
      let i := SlotPlan.started number up
      match plan.postStart with
      | none => (s.moveTo caller (.leaving (.ok i)), [], .more)
      | some prepare => (s.moveTo caller (.preparing i (prepare i)), [], .more)
  | some (.preparing i ⟨statements :: pauses, rest, result⟩) =>
    (s.moveTo caller (.preparing i ⟨pauses, rest, result⟩),
      statements.map (.administered v), .pause)
  | some (.preparing i ⟨[], rest, result⟩) =>
    let sent := rest.map (.administered v)
    match result with
    | .ok () => (s.moveTo caller (.leaving (.ok i)), sent, .more)
    | .error e => (s.moveTo caller (.leaving (.error e)), sent ++ [.dropped v i.launch], .more)
  | some (.leaving result) =>
    ({ s with starting := false }.moveTo caller (.settling result), [], .more)
  | some (.settling (.ok i)) => ((s.store i).moveTo caller (.finished (.ok i)), [], .more)
  | some (.settling (.error e)) => (s.passPermit.moveTo caller (.finished (.error e)), [], .more)
  | some (.finished result) => (s, [], .done result)

/-- Gives a caller up. One that works with the permit takes its mark off and hands the permit on; an
instance that it has started and not yet handed over is dropped. -/
def cancel (plan : SlotPlan) (s : Slot) (caller : Nat) : Slot × List LaunchEvent :=
  let v := plan.launcher.vendor
  let rest := { s with callers := s.callers.erase caller }
  match s.callers.get? caller with
  | some .queued =>
    if s.permit = some caller then (rest.passPermit, [])
    else ({ rest with waiters := rest.waiters.erase caller }, [])
  | some .permitted => (rest.passPermit, [])
  | some (.launching ..) | some (.leaving (.error _)) | some (.settling (.error _)) =>
    ({ rest with starting := false }.passPermit, [])
  | some (.preparing i _) | some (.leaving (.ok i)) | some (.settling (.ok i)) =>
    ({ rest with starting := false }.passPermit, [.dropped v i.launch])
  | some .entering | some (.finished _) | none => (rest, [])

def advanceUpTo (plan : SlotPlan) (caller : Nat) :
    Nat → Slot → Slot × List LaunchEvent × Option (Except LaunchError Instance)
  | 0, s => (s, [], none)
  | fuel + 1, s =>
    match s.advance plan caller with
    | (s', events, .more) =>
      let (s'', events', result) := advanceUpTo plan caller fuel s'
      (s'', events ++ events', result)
    | (s', events, .pause) => (s', events, none)
    | (s', events, .done result) => (s', events, some result)

/-- No more steps than this lie between two pauses. -/
def stepsPerPoll : Nat := 10

/-- Takes a caller as far as it gets without waiting. One that is done is forgotten. -/
def poll (plan : SlotPlan) (s : Slot) (caller : Nat) :
    Slot × List LaunchEvent × Option (Except LaunchError Instance) :=
  let (s', events, result) := advanceUpTo plan caller stepsPerPoll s
  match result with
  | some r => ({ s' with callers := s'.callers.erase caller }, events, some r)
  | none => (s', events, none)

end Slot

end QueryMapping
