/-! Binary floating-point numbers of 64 bits, held as their bits so that NaN payloads and the sign
of zero are kept and equality is decidable. Finite numbers are read as m · 2^q with integers m and
q, and a quotient of natural numbers is rounded to the nearest of them. -/

namespace QueryMapping

structure Binary64 where
  bits : UInt64
deriving DecidableEq, Repr

namespace Binary64

def isNegative (x : Binary64) : Bool := x.bits.toNat / Nat.pow 2 63 == 1

def exponentField (x : Binary64) : Nat := x.bits.toNat / Nat.pow 2 52 % Nat.pow 2 11

def fractionField (x : Binary64) : Nat := x.bits.toNat % Nat.pow 2 52

def isNaN (x : Binary64) : Bool := x.exponentField == 2047 && x.fractionField != 0

def isInfinite (x : Binary64) : Bool := x.exponentField == 2047 && x.fractionField == 0

/-- A finite number's magnitude is the first component times two to the second, less 1074. -/
def magnitude (x : Binary64) : Nat × Nat :=
  if x.exponentField = 0 then (x.fractionField, 0)
  else (Nat.pow 2 52 + x.fractionField, x.exponentField - 1)

def numerator (x : Binary64) : Int :=
  let m : Int := x.magnitude.1 * Int.pow 2 x.magnitude.2
  if x.isNegative then -m else m

def ofFields (negative : Bool) (magnitude : Nat) : Binary64 :=
  ⟨UInt64.ofNat ((if negative then Nat.pow 2 63 else 0) + magnitude)⟩

/-- Half of the unit of `n / d` goes to the even neighbour. -/
def roundQuotient (n d : Nat) : Nat :=
  let q := n / d
  let r := n % d
  if 2 * r < d then q else if d < 2 * r then q + 1 else if q % 2 = 0 then q else q + 1

/-- The number nearest to `n / d`, as its bits without the sign. The fields of exponent and fraction
follow one another, so a fraction that rounds up to the next binade carries into the exponent, and
a quotient beyond the largest number gives the bits of infinity. -/
def roundMagnitude (n d : Nat) : Nat :=
  let shift := (n * Nat.pow 2 1074 / d).log2 - 52
  min (2047 * Nat.pow 2 52)
    (shift * Nat.pow 2 52 + roundQuotient (n * Nat.pow 2 1074) (d * Nat.pow 2 shift))

def ofRatio (negative : Bool) (n d : Nat) : Binary64 := ofFields negative (roundMagnitude n d)

def negate (x : Binary64) : Binary64 := ⟨x.bits ^^^ 0x8000000000000000⟩

/-- The rounded product of two numbers that are finite and not negative. -/
def times (x y : Binary64) : Binary64 :=
  let (m, q) := x.magnitude
  let (n, r) := y.magnitude
  ofRatio false (m * Nat.pow 2 q * (n * Nat.pow 2 r)) (Nat.pow 2 2148)

def dividedBy (x y : Binary64) : Binary64 :=
  let (m, q) := x.magnitude
  let (n, r) := y.magnitude
  ofRatio false (m * Nat.pow 2 q) (n * Nat.pow 2 r)

end Binary64

end QueryMapping
