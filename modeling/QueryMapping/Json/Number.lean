import QueryMapping.Json.Token
import QueryMapping.Value.Binary64

/-! The value of a JSON number. An integer that fits 64 bits is exact. Every other number is
computed from at most as many leading digits as fit 64 bits: they are rounded to a binary number,
which is then multiplied or divided by a rounded power of ten, so the result can be one unit off the
nearest. -/

namespace QueryMapping.Json

inductive Number where
  | int (n : Int)
  | float (x : Binary64)
deriving DecidableEq, Repr

namespace NumberText

/-- The leading digits of a number as an integer below 2^64, and the power of ten to scale it by. -/
structure Scaled where
  significand : Nat
  exponent : Int
deriving DecidableEq, Repr

/-- Takes digits as long as the significand stays below 2^64; the digits that remain come second. -/
def takeDigits (significand : Nat) : List Nat → Nat × List Nat
  | [] => (significand, [])
  | d :: ds =>
    if significand * 10 + d < Nat.pow 2 64 then takeDigits (significand * 10 + d) ds
    else (significand, d :: ds)

/-- Digits before the point that do not fit scale the number up. The digits after the point are
taken up again from the same significand, and those that do not fit are dropped. -/
def scaled (n : NumberText) : Scaled :=
  let (whole, dropped) := takeDigits 0 n.whole
  let (all, unused) := takeDigits whole n.fraction
  ⟨all, dropped.length - (n.fraction.length - unused.length : Nat)⟩

/-- The magnitude `2^64 - 1` and below are read as unsigned integers, and negative ones down to
`-2^63`; negative zero is not an integer. -/
def integer? (n : NumberText) : Option Int :=
  if !n.isInteger then none
  else
    let (m, dropped) := takeDigits 0 n.whole
    if !dropped.isEmpty then none
    else if !n.negative then some m
    else if m = 0 || Nat.pow 2 63 < m then none
    else some (-m)

def powerOfTen (e : Nat) : Binary64 := .ofRatio false (Nat.pow 10 e) 1

/-- Scales a positive number by a power of ten, 308 places at a time when scaling down. Absent if
the result would be infinite. -/
def scaleBy? (x : Binary64) (e : Int) : Option Binary64 :=
  if e.natAbs ≤ 308 then
    let p := powerOfTen e.natAbs
    if 0 ≤ e then
      let product := Binary64.times x p
      if product.isInfinite then none else some product
    else some (Binary64.dividedBy x p)
  else if x.bits = 0 then some x
  else if 0 ≤ e then none
  else scaleBy? (Binary64.dividedBy x (powerOfTen 308)) (e + 308)
termination_by e.natAbs
decreasing_by omega

def exponentValue? (negative : Bool) (ds : List Nat) : Option Int :=
  let n : Nat := ds.foldl (fun n d => n * 10 + d) 0
  if n < Nat.pow 2 31 then some (if negative then -(n : Int) else n) else none

def value? (n : NumberText) : Option Number :=
  match n.integer? with
  | some i => some (.int i)
  | none =>
    let s := n.scaled
    let signed (x : Binary64) : Number := .float (if n.negative then x.negate else x)
    let start := Binary64.ofRatio false s.significand 1
    match n.exponent with
    | none => (scaleBy? start s.exponent).map signed
    | some (negative, ds) =>
      match exponentValue? negative ds with
      | some e => (scaleBy? start (s.exponent + e)).map signed
      | none => if s.significand = 0 || negative then some (signed ⟨0⟩) else none

end NumberText

end QueryMapping.Json
