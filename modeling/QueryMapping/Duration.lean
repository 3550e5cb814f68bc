import QueryMapping.Text.Blank

/-! Spans of time, and their text as numbers with units, such as `1h 30m`. Amounts are counted in 64
bits; a text whose amounts do not fit is refused. -/

namespace QueryMapping

structure Duration where
  seconds : Nat
  nanos : Nat
deriving DecidableEq, Repr

namespace Duration

def zero : Duration := ⟨0, 0⟩

def second : Nat := 1000000000

/-- Units by name, with their length in nanoseconds. A year has 365.25 days, a month 30.44. -/
def units : List (List String × Nat) :=
  [(["nanos", "nsec", "ns"], 1),
    (["usec", "us", "µs"], 1000),
    (["millis", "msec", "ms"], 1000000),
    (["seconds", "second", "secs", "sec", "s"], second),
    (["minutes", "minute", "min", "mins", "m"], 60 * second),
    (["hours", "hour", "hr", "hrs", "h"], 3600 * second),
    (["days", "day", "d"], 86400 * second),
    (["weeks", "week", "wk", "wks", "w"], 604800 * second),
    (["months", "month", "M"], 2630016 * second),
    (["years", "year", "yr", "yrs", "y"], 31557600 * second)]

def unit? (name : List Char) : Option Nat :=
  (units.find? fun entry => entry.1.any fun n => n.toList = name).map Prod.snd

def word? (n : Nat) : Option Nat := if n < Nat.pow 2 64 then some n else none

def isUnitChar (c : Char) : Bool := c.isAlpha || c == 'µ'

def isDigitOrBlank (c : Char) : Bool := c.isDigit || Text.isBlank c

def digitsValue (cs : List Char) : Nat :=
  (cs.filter Char.isDigit).foldl (fun n c => n * 10 + (c.toNat - 48)) 0

structure Fraction where
  numerator : Nat
  denominator : Nat

def plus? (d : Duration) (seconds nanos : Nat) : Option Duration := do
  let nanos ← word? (d.nanos + nanos)
  let seconds ← word? (d.seconds + seconds + nanos / second)
  return ⟨seconds, nanos % second⟩

/-- Whole units count in nanoseconds below a second and in seconds from there on. -/
def plusWhole? (d : Duration) (n unit : Nat) : Option Duration :=
  if unit < second then (word? (n * unit)).bind (d.plus? 0)
  else (word? (n * (unit / second))).bind (d.plus? · 0)

/-- A fraction of a unit has to be a whole number of nanoseconds, or of seconds if the unit is
longer than a minute. The nanosecond has no fractions. -/
def plusFraction? (d : Duration) (f : Fraction) (unit : Nat) : Option Duration :=
  if unit = 1 then none
  else if unit ≤ 60 * second then do
    let n ← word? (f.numerator * unit)
    if n % f.denominator = 0 then d.plus? 0 (n / f.denominator) else none
  else do
    let n ← word? (f.numerator * (unit / second))
    if n % f.denominator = 0 then d.plus? (n / f.denominator) 0 else none

def fraction? : List Char → Option (Option Fraction × List Char)
  | '.' :: cs =>
    let digits := (cs.takeWhile isDigitOrBlank).filter Char.isDigit
    if digits.isEmpty then none
    else do
      let numerator ← word? (digitsValue digits)
      let denominator ← word? (Nat.pow 10 digits.length)
      return (some ⟨numerator, denominator⟩, cs.dropWhile isDigitOrBlank)
  | cs => some (none, cs)

def item? (d : Duration) (cs : List Char) : Option (Duration × List Char) := do
  let n ← word? (digitsValue (cs.takeWhile isDigitOrBlank))
  let (fraction, rest) ← fraction? (cs.dropWhile isDigitOrBlank)
  let unit ← unit? (rest.takeWhile isUnitChar)
  let d ← d.plusWhole? n unit
  let d ← fraction.elim (some d) (d.plusFraction? · unit)
  return (d, rest.dropWhile isUnitChar)

theorem dropWhile_length_le {α : Type} (p : α → Bool) (l : List α) :
    (l.dropWhile p).length ≤ l.length :=
  (List.dropWhile_suffix p).length_le

theorem fraction?_length {cs : List Char} {r : Option Fraction × List Char}
    (h : fraction? cs = some r) : r.2.length ≤ cs.length := by
  unfold fraction? at h
  split at h
  · next tail =>
    dsimp only at h
    split at h
    · simp at h
    · simp only [bind, Option.bind_eq_some_iff] at h
      obtain ⟨_, _, _, _, h⟩ := h
      rw [← Option.some.inj h]
      exact Nat.le_succ_of_le (dropWhile_length_le _ tail)
  · simp [← Option.some.inj h]

theorem item?_length {d : Duration} {c : Char} {cs : List Char} {r : Duration × List Char}
    (hc : c.isDigit) (h : item? d (c :: cs) = some r) : r.2.length < (c :: cs).length := by
  simp only [item?, bind, Option.bind_eq_some_iff] at h
  obtain ⟨_, _, f, hf, _, _, _, _, _, _, h⟩ := h
  have hdrop : (c :: cs).dropWhile isDigitOrBlank = cs.dropWhile isDigitOrBlank := by
    simp [isDigitOrBlank, hc]
  have h₁ := fraction?_length hf
  rw [hdrop] at h₁
  have h₂ := dropWhile_length_le isDigitOrBlank cs
  have h₃ := dropWhile_length_le isUnitChar f.2
  rw [← Option.some.inj h, List.length_cons]
  exact Nat.lt_succ_of_le (Nat.le_trans h₃ (Nat.le_trans h₁ h₂))

def items? (d : Duration) (cs : List Char) : Option Duration :=
  match cs with
  | [] => some d
  | c :: rest =>
    if Text.isBlank c then items? d rest
    else if _hc : c.isDigit then
      match _h : item? d (c :: rest) with
      | none => none
      | some (d', rest') => items? d' rest'
    else none
termination_by cs.length
decreasing_by
  · simp
  · exact item?_length _hc _h

/-- Reads one or more items; a zero may stand without a unit. -/
def parse? (text : String) : Option Duration :=
  if text = "0" then some zero
  else if text.toList.all Text.isBlank then none
  else items? zero text.toList

def part (n : Nat) (unit : String) (plural : Bool) : Option String :=
  if n = 0 then none
  else some (toString n ++ unit ++ if plural && 1 < n then "s" else "")

def display (d : Duration) : String :=
  let inYear := d.seconds % 31557600
  let inMonth := inYear % 2630016
  let inDay := inMonth % 86400
  let parts :=
    [part (d.seconds / 31557600) "year" true, part (inYear / 2630016) "month" true,
      part (inMonth / 86400) "day" true, part (inDay / 3600) "h" false,
      part (inDay % 3600 / 60) "m" false, part (inDay % 60) "s" false,
      part (d.nanos / 1000000) "ms" false, part (d.nanos / 1000 % 1000) "us" false,
      part (d.nanos % 1000) "ns" false].filterMap id
  if parts.isEmpty then "0s" else " ".intercalate parts

end Duration

end QueryMapping
