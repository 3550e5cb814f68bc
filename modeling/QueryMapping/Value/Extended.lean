import QueryMapping.Value.Binary64

/-! Numbers that are not negative and have significands of at most 64 bits. A product is rounded to
the nearest of them, and half of a unit goes to the even neighbour. Their exponents have no
bounds. -/

namespace QueryMapping

structure Extended where
  significand : Nat
  exponent : Int
deriving Repr

namespace Extended

def ofScaled (n : Nat) (q : Int) : Extended :=
  let excess := n.log2 - 63
  ⟨Binary64.roundQuotient n (Nat.pow 2 excess), q + excess⟩

def ofBinary64 (x : Binary64) : Extended := ⟨x.magnitude.1, (x.magnitude.2 : Int) - 1074⟩

def times (x y : Extended) : Extended :=
  ofScaled (x.significand * y.significand) (x.exponent + y.exponent)

def powTen : Int → Extended
  | .ofNat k => ofScaled (Nat.pow 10 k) 0
  | .negSucc k =>
    let divisor : Nat := Nat.pow 10 (k + 1)
    let shift := divisor.log2 + 64
    ⟨Binary64.roundQuotient (Nat.pow 2 shift) divisor, -(shift : Int)⟩

def le (x y : Extended) : Bool :=
  let low := min x.exponent y.exponent
  x.significand * Nat.pow 2 (x.exponent - low).toNat ≤
    y.significand * Nat.pow 2 (y.exponent - low).toNat

def floor (x : Extended) : Nat :=
  if 0 ≤ x.exponent then x.significand * Nat.pow 2 x.exponent.toNat
  else x.significand / Nat.pow 2 (-x.exponent).toNat

/-- The nearest number of 64 bits; what is larger than all of them is infinite. -/
def toBinary64 (x : Extended) : Binary64 :=
  if !x.le ⟨Nat.pow 2 53 - 1, 971⟩ then .ofFields false (2047 * Nat.pow 2 52)
  else if 0 ≤ x.exponent then .ofRatio false (x.significand * Nat.pow 2 x.exponent.toNat) 1
  else .ofRatio false x.significand (Nat.pow 2 (-x.exponent).toNat)

end Extended

end QueryMapping
