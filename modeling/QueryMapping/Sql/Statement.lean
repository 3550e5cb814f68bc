import QueryMapping.Sql.Skip
import QueryMapping.Text.Blank

/-! The statements of a script. They end at semicolons outside quotes, bodies and comments; comments
are left out, a block comment leaving a space. -/

namespace QueryMapping.Sql

open Text (Fault byte)

inductive StatementStep where
  | keep (next : Nat)
  | comment (gap : String) (next : Nat)
  | finish
deriving DecidableEq, Repr

def statementStep (bytes : Array UInt8) (i : Nat) (h : i < bytes.size) :
    Except Fault StatementStep :=
  let b := bytes[i]
  let after := bytes[i + 1]?
  if isQuoteByte b then (pastQuoted bytes i).map .keep
  else if b = byte '$' then (pastDollarBody bytes i).map fun stop => .keep (stop.getD (i + 1))
  else if b = byte '-' ∧ after = some (byte '-') then (pastLineComment bytes i).map (.comment "")
  else if b = byte '/' ∧ after = some (byte '*') then (pastBlockComment bytes i).map (.comment " ")
  else if b = byte ';' then .ok .finish
  else .ok (.keep (i + 1))

def StatementStep.next (i : Nat) : StatementStep → Nat
  | .keep next | .comment _ next => next
  | .finish => i + 1

theorem statementStep_bounds {bytes : Array UInt8} {i : Nat} {h : i < bytes.size}
    {step : StatementStep} (hstep : statementStep bytes i h = .ok step) :
    i < step.next i ∧ step.next i ≤ bytes.size := by
  unfold statementStep at hstep
  dsimp only at hstep
  split at hstep
  · obtain ⟨stop, hstop, rfl⟩ := Text.exists_ok_of_map_eq_ok hstep
    exact pastQuoted_bounds hstop
  · split at hstep
    · obtain ⟨found, hfound, rfl⟩ := Text.exists_ok_of_map_eq_ok hstep
      cases found with
      | none => exact ⟨Nat.lt_succ_self i, h⟩
      | some stop => exact pastDollarBody_bounds hfound
    · split at hstep
      · next hdash =>
        obtain ⟨stop, hstop, rfl⟩ := Text.exists_ok_of_map_eq_ok hstep
        exact pastLineComment_bounds (Array.getElem?_eq_some_iff.2 ⟨h, hdash.1⟩) hstop
      · split at hstep
        · obtain ⟨stop, hstop, rfl⟩ := Text.exists_ok_of_map_eq_ok hstep
          exact pastBlockComment_bounds hstop
        · split at hstep
          · rw [← Except.ok.inj hstep]
            exact ⟨Nat.lt_succ_self i, h⟩
          · rw [← Except.ok.inj hstep]
            exact ⟨Nat.lt_succ_self i, h⟩

/-- A statement without the blanks around it; a blank one is dropped. -/
def finished (statement : String) : List String :=
  let trimmed := Text.trim statement.toList
  if trimmed.isEmpty then [] else [String.ofList trimmed]

/-- The statements from position `i` on. The one being read consists of `pending` and the script
since `start`. -/
def statementsFrom (script : String) (bytes : Array UInt8) (pending : String) (start i : Nat) :
    Except Fault (List String) :=
  if h : i < bytes.size then
    match _hstep : statementStep bytes i h with
    | .error fault => .error fault
    | .ok (.keep next) => statementsFrom script bytes pending start next
    | .ok (.comment gap next) => do
      let text ← Text.cut script start i
      statementsFrom script bytes (pending ++ text ++ gap) next next
    | .ok .finish => do
      let text ← Text.cut script start i
      let rest ← statementsFrom script bytes "" (i + 1) (i + 1)
      return finished (pending ++ text) ++ rest
  else do
    let text ← Text.cut script start bytes.size
    return finished (pending ++ text)
termination_by bytes.size - i
decreasing_by all_goals exact Nat.sub_lt_sub_left h (statementStep_bounds _hstep).1

def scanStatements (script : String) : Except Fault (List String) :=
  statementsFrom script (Text.bytes script) "" 0 0

/-- The statements of a script, trimmed, without comments and empty statements. No script's scan
ends in a fault. -/
def statements (script : String) : List String := (scanStatements script).toOption.getD []

def isDrop (statement : String) : Bool :=
  ((Text.trimStart statement.toList).take 4).map Char.toLower == "drop".toList

end QueryMapping.Sql
