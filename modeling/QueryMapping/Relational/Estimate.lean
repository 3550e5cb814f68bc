/-! Estimates of sizes and costs: ten times the binary logarithm of a number, rounded by a table of
three further bits, so that a product is a sum of estimates. -/

namespace QueryMapping.Relational

abbrev Estimate := Int

namespace Estimate

/-- Ten times the logarithm of one plus some eighths. -/
def eighths : List Int := [0, 2, 3, 5, 6, 7, 8, 9]

def ofNat (n : Nat) : Estimate :=
  if n < 2 then 0
  else
    let exponent := n.log2
    eighths.getD (n * 8 / Nat.pow 2 exponent % 8) 0 + 10 * exponent

/-- What the smaller of two numbers adds to the larger, by their difference. -/
def additions : List Int :=
  [10, 10, 9, 9, 8, 8, 7, 7, 7, 6, 6, 6, 5, 5, 5, 4, 4, 4, 4, 3, 3, 3, 3, 3, 3, 2, 2, 2, 2, 2, 2, 2]

def plus (a b : Estimate) : Estimate :=
  let difference := (a - b).natAbs
  max a b + if 49 < difference then 0 else additions.getD difference 1

def logarithm (a : Estimate) : Estimate := if a ≤ 10 then 0 else ofNat a.toNat - 33

end Estimate

end QueryMapping.Relational
