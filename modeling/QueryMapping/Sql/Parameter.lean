import QueryMapping.Sql.Engine
import QueryMapping.Sql.Skip
import QueryMapping.Table
import QueryMapping.Value.Basic

/-! Statements with named parameters. Quoted tokens, comments, bodies between dollar tags and casts
are passed over. Each occurrence of a name gets a placeholder of its own, so a name that is used
twice is bound twice, for every engine. -/

namespace QueryMapping

namespace Sql

open Text (Fault byte)

inductive Part where
  | text (text : String)
  | parameter (name : String)
deriving DecidableEq, Repr

inductive ParameterStep where
  | skip (next : Nat)
  | parameter (stop : Nat)
deriving DecidableEq, Repr

def ParameterStep.next : ParameterStep → Nat
  | .skip next => next
  | .parameter stop => stop

def parameterStep (bytes : Array UInt8) (i : Nat) (h : i < bytes.size) :
    Except Fault ParameterStep :=
  let b := bytes[i]
  let after := bytes[i + 1]?
  if isQuoteByte b then (pastQuoted bytes i).map .skip
  else if b = byte '-' ∧ after = some (byte '-') then (pastLineComment bytes i).map .skip
  else if b = byte '/' ∧ after = some (byte '*') then (pastBlockComment bytes i).map .skip
  else if b = byte '$' then (pastDollarBody bytes i).map fun stop => .skip (stop.getD (i + 1))
  else if b = byte ':' ∧ after = some (byte ':') then .ok (.skip (i + 2))
  else if b = byte ':' ∧ after.any Text.isNameStartByte then
    (Text.findByte (fun b => !Text.isNameByte b) bytes (i + 1)).map .parameter
  else .ok (.skip (i + 1))

theorem parameterStep_bounds {bytes : Array UInt8} {i : Nat} {h : i < bytes.size}
    {step : ParameterStep} (hstep : parameterStep bytes i h = .ok step) :
    i < step.next ∧ step.next ≤ bytes.size := by
  unfold parameterStep at hstep
  dsimp only at hstep
  split at hstep
  · obtain ⟨stop, hstop, rfl⟩ := Text.exists_ok_of_map_eq_ok hstep
    exact pastQuoted_bounds hstop
  · split at hstep
    · next hdash =>
      obtain ⟨stop, hstop, rfl⟩ := Text.exists_ok_of_map_eq_ok hstep
      exact pastLineComment_bounds (Array.getElem?_eq_some_iff.2 ⟨h, hdash.1⟩) hstop
    · split at hstep
      · obtain ⟨stop, hstop, rfl⟩ := Text.exists_ok_of_map_eq_ok hstep
        exact pastBlockComment_bounds hstop
      · split at hstep
        · obtain ⟨found, hfound, rfl⟩ := Text.exists_ok_of_map_eq_ok hstep
          cases found with
          | none => exact ⟨Nat.lt_succ_self i, h⟩
          | some stop => exact pastDollarBody_bounds hfound
        · split at hstep
          · next hcolons =>
            have := (Array.getElem?_eq_some_iff.1 hcolons.2).1
            rw [← Except.ok.inj hstep]
            exact ⟨by simp [ParameterStep.next], by simp only [ParameterStep.next]; omega⟩
          · split at hstep
            · obtain ⟨stop, hstop, rfl⟩ := Text.exists_ok_of_map_eq_ok hstep
              exact Text.findByte_bounds hstop
            · rw [← Except.ok.inj hstep]
              exact ⟨Nat.lt_succ_self i, h⟩

def textPart (sql : String) (start stop : Nat) : Except Fault (List Part) :=
  if start < stop then do
    let text ← Text.cut sql start stop
    return [.text text]
  else return []

/-- The parts from position `i` on, when the text since `start` belongs to the next part. -/
def partsFrom (sql : String) (bytes : Array UInt8) (start i : Nat) : Except Fault (List Part) :=
  if h : i < bytes.size then
    match _hstep : parameterStep bytes i h with
    | .error fault => .error fault
    | .ok (.skip next) => partsFrom sql bytes start next
    | .ok (.parameter stop) => do
      let text ← textPart sql start i
      let name ← Text.cut sql (i + 1) stop
      let rest ← partsFrom sql bytes stop stop
      return text ++ .parameter name :: rest
  else textPart sql start bytes.size
termination_by bytes.size - i
decreasing_by all_goals exact Nat.sub_lt_sub_left h (parameterStep_bounds _hstep).1

def scanParts (sql : String) : Except Fault (List Part) := partsFrom sql (Text.bytes sql) 0 0

end Sql

structure NamedSql where
  parts : List Sql.Part
deriving DecidableEq, Repr

namespace NamedSql

/-- No statement's scan ends in a fault. -/
def parse (sql : String) : NamedSql := ⟨(Sql.scanParts sql).toOption.getD []⟩

def nameOf? : Sql.Part → Option String
  | .text _ => none
  | .parameter name => some name

def names (s : NamedSql) : List String := s.parts.filterMap nameOf?

def hasParameters (s : NamedSql) : Bool := !s.names.isEmpty

def renderFrom (e : Engine) (index : Nat) : List Sql.Part → List Char
  | [] => []
  | .text text :: rest => text.toList ++ renderFrom e index rest
  | .parameter _ :: rest => (e.placeholder index).toList ++ renderFrom e (index + 1) rest

def render (s : NamedSql) (e : Engine) : String := String.ofList (renderFrom e 1 s.parts)

end NamedSql

structure Params where
  named : Table String Value
  positional : List Value
deriving DecidableEq, Repr

namespace Params

def empty : Params := ⟨[], []⟩

/-- The values of a statement that has the engine's placeholders already. -/
def ofPositional (values : List Value) : Params := ⟨[], values⟩

/-- A later value for a name takes the place of an earlier one. -/
def bind (p : Params) (name : String) (v : Value) : Params := { p with named := p.named.set name v }

def get? (p : Params) (name : String) : Option Value := p.named.get? name

def isEmpty (p : Params) : Bool := p.named.isEmpty && p.positional.isEmpty

def value (p : Params) (name : String) : Except String Value :=
  match p.get? name with
  | some v => .ok v
  | none => .error name

end Params

namespace NamedSql

/-- The values in the order of the placeholders. A statement without named parameters takes the
positional values. The failure is the first name that has no value. -/
def values (s : NamedSql) (p : Params) : Except String (List Value) :=
  if s.hasParameters then s.names.mapM p.value else .ok p.positional

end NamedSql

end QueryMapping
