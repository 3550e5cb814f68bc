import QueryMapping.Value.Extended

/-! Reals as text. Fifteen significant digits are shown, with a point among them and a digit after
it, and an exponent if the number is small or large. The digits are found in extended precision. -/

namespace QueryMapping.Relational.RealText

/-- Multiplies by a power of ten as long as a condition holds, which it does a dozen times at most,
and counts the powers. -/
def scaledWhile (holds : Extended → Bool) (power : Int) : Nat → Extended × Int → Extended × Int
  | 0, x => x
  | fuel + 1, (x, e) =>
    if holds x then scaledWhile holds power fuel (x.times (.powTen power), e - power) else (x, e)

/-- A number above zero as a whole number of seventeen to nineteen digits and a power of ten. -/
def wholeDigits (x : Binary64) : Nat × Int :=
  let atLeast (k : Int) (x : Extended) := (Extended.powTen k).le x
  let below (k : Int) (x : Extended) := !atLeast k x
  let x := Extended.ofBinary64 x
  let (x, e) :=
    if atLeast 19 x then
      scaledWhile (atLeast 19) (-1) 12 <| scaledWhile (atLeast 29) (-10) 12 <|
        scaledWhile (atLeast 119) (-100) 12 (x, 0)
    else
      scaledWhile (below 17) 1 12 <| scaledWhile (below 7) 10 12 <|
        scaledWhile (below (-97)) 100 12 (x, 0)
  (x.floor, e)

def digits (x : Binary64) : List Char × Int :=
  let (n, e) := wholeDigits x
  let length := (Nat.toDigits 10 n).length
  let rounded := Nat.toDigits 10 ((n / Nat.pow 10 (length - 16) + 5) / 10)
  let kept := (rounded.reverse.dropWhile (· == '0')).reverse
  (kept, e + length + rounded.length - 15)

def fraction (ds : List Char) : List Char := '.' :: if ds.isEmpty then ['0'] else ds

def unsigned (x : Binary64) : List Char :=
  if x.numerator = 0 then ['0', '.', '0']
  else
    let (ds, point) := digits x
    if point < -3 || 15 < point then
      let e := Nat.toDigits 10 (point - 1).natAbs
      ds.take 1 ++ fraction (ds.drop 1) ++ 'e' :: (if point < 1 then '-' else '+') ::
        (if e.length < 2 then '0' :: e else e)
    else if point ≤ 0 then '0' :: fraction (List.replicate (-point).toNat '0' ++ ds)
    else
      let whole := ds.take point.toNat
      whole ++ List.replicate (point.toNat - whole.length) '0' ++ fraction (ds.drop point.toNat)

def write (x : Binary64) : String :=
  let magnitude := if x.isInfinite then ['I', 'n', 'f'] else unsigned x
  String.ofList (if x.numerator < 0 then '-' :: magnitude else magnitude)

end QueryMapping.Relational.RealText
