import QueryMapping.Json.Number
import QueryMapping.Value.Extended

/-! Numbers written in decimal, and the values that the engine gives them. A real keeps as many
digits as a significand of 64 bits holds, and is then scaled by powers of ten in extended precision,
so it is not always the nearest one. -/

namespace QueryMapping.Relational

structure Numeral where
  whole : List Char
  fraction : Option (List Char)
  exponent : Option (Bool × List Char)
deriving DecidableEq, Repr

namespace Numeral

def exponent? : List Char → Option ((Bool × List Char) × Nat)
  | e :: rest =>
    if e == 'e' || e == 'E' then
      let (negative, digits, sign) :=
        match rest with
        | '-' :: ds => (true, ds.takeWhile Char.isDigit, 1)
        | '+' :: ds => (false, ds.takeWhile Char.isDigit, 1)
        | ds => (false, ds.takeWhile Char.isDigit, 0)
      if digits.isEmpty then none else some ((negative, digits), 1 + sign + digits.length)
    else none
  | [] => none

def scan (cs : List Char) : Numeral × Nat :=
  let whole := cs.takeWhile Char.isDigit
  let rest := cs.drop whole.length
  let (fraction, length) :=
    match rest with
    | '.' :: ds =>
      (some (ds.takeWhile Char.isDigit), whole.length + 1 + (ds.takeWhile Char.isDigit).length)
    | _ => (none, whole.length)
  match exponent? (cs.drop length) with
  | some (exponent, n) => (⟨whole, fraction, some exponent⟩, length + n)
  | none => (⟨whole, fraction, none⟩, length)

def digitsValue (ds : List Char) : Nat := ds.foldl (fun n d => n * 10 + (d.toNat - 48)) 0

def isFull (significand : Nat) : Bool := (Nat.pow 2 64 - 10) / 10 ≤ significand

/-- Multiplies a significand by ten as long as it fits, each time taking one off the exponent. -/
def raised (significand : Nat) : Nat → Nat × Nat
  | 0 => (significand, 0)
  | e + 1 =>
    if significand < (Nat.pow 2 64 - 1) / 10 then raised (significand * 10) e
      else (significand, e + 1)

/-- Divides a significand by ten as long as it ends in zero, for an exponent below zero. -/
def lowered (significand : Nat) : Nat → Nat × Nat
  | 0 => (significand, 0)
  | e + 1 => if significand % 10 = 0 then lowered (significand / 10) e else (significand, e + 1)

def scaled (x : Extended) (negative : Bool) (e : Nat) : Extended :=
  let power (k : Nat) := Extended.powTen (if negative then -(k : Int) else k)
  let x := Nat.repeat (·.times (power 100)) (e / 100) x
  let x := Nat.repeat (·.times (power 10)) (e % 100 / 10) x
  Nat.repeat (·.times (power 1)) (e % 10) x

def realOf (significand : Nat) (exponent : Int) : Binary64 :=
  if significand = 0 then ⟨0⟩
  else
    let (significand, e) :=
      if 0 ≤ exponent then raised significand exponent.toNat
      else lowered significand (-exponent).toNat
    if e = 0 then .ofRatio false significand 1
    else (scaled ⟨significand, 0⟩ (exponent < 0) e).toBinary64

def gathered (n : Numeral) : Nat × Int :=
  let whole := n.whole.foldl (fun (s : Nat × Int) d =>
    if isFull s.1 then (s.1, s.2 + 1) else (s.1 * 10 + (d.toNat - 48), s.2)) (0, 0)
  (n.fraction.getD []).foldl (fun (s : Nat × Int) d =>
    if isFull s.1 then s else (s.1 * 10 + (d.toNat - 48), s.2 - 1)) whole

def real (n : Numeral) : Binary64 :=
  let exponent : Int :=
    match n.exponent with
    | none => 0
    | some (negative, ds) =>
      let e : Int := min (digitsValue ds) 10000
      if negative then -e else e
  realOf n.gathered.1 (exponent + n.gathered.2)

def integer? (n : Numeral) (negative : Bool) : Option Int64 :=
  let m := digitsValue n.whole
  if n.fraction.isNone && n.exponent.isNone &&
    (m < Nat.pow 2 63 || (negative && m = Nat.pow 2 63)) then
    some (Int64.ofInt (if negative then -(m : Int) else m))
  else none

end Numeral

end QueryMapping.Relational
