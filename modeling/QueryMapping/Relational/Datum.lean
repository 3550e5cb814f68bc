import QueryMapping.Database.Argument
import QueryMapping.Relational.Numeral
import QueryMapping.Relational.RealText
import QueryMapping.Text.Search
import QueryMapping.Value.Basic

/-! Values as a relational engine stores them. Each has a storage kind of its own. The type that a
column is declared with says which kinds the column prefers, and how a value is read back. -/

namespace QueryMapping

inductive Datum where
  | null
  | int (n : Int64)
  | real (x : Binary64)
  | text (s : String)
  | blob (bs : List UInt8)
deriving DecidableEq, Repr

def mentions (declaration : String) (words : List String) : Bool :=
  words.any fun word => Text.occursIn word.toList (declaration.toList.map Char.toLower)

inductive ColumnType where
  | integer
  | real
  | text
  | blob
  | boolean
  | date
  | time
  | datetime
deriving DecidableEq, Repr

namespace ColumnType

def name : ColumnType → String
  | .integer => "INTEGER"
  | .real => "REAL"
  | .text => "TEXT"
  | .blob => "BLOB"
  | .boolean => "BOOLEAN"
  | .date => "DATE"
  | .time => "TIME"
  | .datetime => "DATETIME"

def named? (name : String) : Option ColumnType :=
  [.integer, .real, .text, .blob, .boolean, .date, .time, .datetime].find? (·.name = name)

/-- The type that a declaration names, or else the first that it hints at. -/
def ofDeclaration? (declaration : String) : Option ColumnType :=
  match String.ofList (declaration.toList.map Char.toLower) with
  | "boolean" | "bool" => some .boolean
  | "date" => some .date
  | "time" => some .time
  | "datetime" | "timestamp" => some .datetime
  | _ =>
    if mentions declaration ["int"] then some .integer
    else if mentions declaration ["char", "clob", "text"] then some .text
    else if mentions declaration ["blob"] then some .blob
    else if mentions declaration ["real", "floa", "doub"] then some .real
    else none

end ColumnType

inductive Affinity where
  | blob
  | text
  | numeric
  | integer
  | real
deriving DecidableEq, Repr

namespace Affinity

def ofDeclaration (declaration : String) : Affinity :=
  if declaration.isEmpty then .blob
  else if mentions declaration ["int"] then .integer
  else if mentions declaration ["char", "clob", "text"] then .text
  else if mentions declaration ["blob"] then .blob
  else if mentions declaration ["real", "floa", "doub"] then .real
  else .numeric

def isNumeric : Affinity → Bool
  | .blob | .text => false
  | .numeric | .integer | .real => true

end Affinity

namespace Datum

/-- What the engine makes of an argument. It has no truth values and no NaN, and documents are
texts. -/
def ofArgument : Argument → Datum
  | .null => .null
  | .bool b => .int (if b then 1 else 0)
  | .int n => .int n
  | .float x => if x.isNaN then .null else .real x
  | .text s => .text s
  | .bytes bs => .blob bs
  | .document _ content => .text content

/-! ### Numbers and texts -/

def isSpace (c : Char) : Bool :=
  c == ' ' || c == '\t' || c == '\n' || c == '\x0b' || c == '\x0c' || c == '\r'

def leadingNumeral? (cs : List Char) : Option (Bool × Relational.Numeral × Bool) :=
  let cs := cs.dropWhile isSpace
  let (negative, cs) :=
    match cs with
    | '-' :: rest => (true, rest)
    | '+' :: rest => (false, rest)
    | cs => (false, cs)
  let (n, length) := Relational.Numeral.scan cs
  if n.whole.isEmpty && (n.fraction.getD []).isEmpty then none
  else some (negative, n, (cs.drop length).all isSpace)

/-- Whole numbers that fit 64 bits are integers, all others are reals. -/
def ofNumeral (n : Relational.Numeral) (negative : Bool) : Datum :=
  match n.integer? negative with
  | some i => .int i
  | none => .real (if negative then n.real.negate else n.real)

def realOfInt (n : Int64) : Binary64 := .ofRatio (n.toInt < 0) n.toInt.natAbs 1

def integral? (x : Binary64) : Option Int64 :=
  let n := x.numerator.tdiv (Int.pow 2 1074)
  if n * Int.pow 2 1074 = x.numerator && -Int.pow 2 63 < n && n < Int.pow 2 63 - 1 then
    some (Int64.ofInt n)
  else none

def withNumber (d : Datum) : Datum :=
  match d with
  | .text s =>
    match leadingNumeral? s.toList with
    | some (negative, n, true) => ofNumeral n negative
    | _ => d
  | d => d

def withText : Datum → Datum
  | .int n => .text (toString n)
  | .real x => .text (Relational.RealText.write x)
  | d => d

def withInteger (d : Datum) : Datum :=
  match d with
  | .real x => (integral? x).elim d .int
  | d => d

/-- How a column of an affinity stores a value. A real that is whole has no sign if it is zero. -/
def stored (a : Affinity) (d : Datum) : Datum :=
  match a with
  | .blob => d
  | .text => d.withText
  | .numeric | .integer => d.withNumber.withInteger
  | .real =>
    match d.withNumber.withInteger with
    | .int n => .real (realOfInt n)
    | d => d

def leadingInteger (cs : List Char) : Int :=
  let value (ds : List Char) : Int := Relational.Numeral.digitsValue (ds.takeWhile Char.isDigit)
  match cs.dropWhile isSpace with
  | '-' :: ds => -value ds
  | '+' :: ds => value ds
  | ds => value ds

def clamp (n : Int) : Int := max (-Int.pow 2 63) (min n (Int.pow 2 63 - 1))

def charsOfBytes (bs : List UInt8) : List Char := bs.map fun b => Char.ofNat b.toNat

/-- What a value is when it is read as an integer: numbers lose their fraction, and of texts and
bytes the leading integer counts. -/
def toInteger : Datum → Int
  | .null => 0
  | .int n => n.toInt
  | .real x => clamp (x.numerator.tdiv (Int.pow 2 1074))
  | .text s => clamp (leadingInteger s.toList)
  | .blob bs => clamp (leadingInteger (charsOfBytes bs))

/-- The number that counts when a value is calculated with; of texts and bytes it is the one that
they begin with, or else zero. -/
def toNumber : Datum → Datum
  | .text s => ofChars s.toList
  | .blob bs => ofChars (charsOfBytes bs)
  | d => d
where
  ofChars (cs : List Char) : Datum :=
    match leadingNumeral? cs with
    | some (negative, n, _) => ofNumeral n negative
    | none => .int 0

def toReal (d : Datum) : Binary64 :=
  match d.toNumber with
  | .int n => realOfInt n
  | .real x => x
  | _ => ⟨0⟩

def truth? (d : Datum) : Option Bool :=
  match d.toNumber with
  | .null => none
  | .int n => some (n ≠ 0)
  | d => some (d.toReal.numerator ≠ 0)

def ofBool (b : Bool) : Datum := .int (if b then 1 else 0)

def ofTruth : Option Bool → Datum
  | none => .null
  | some b => ofBool b

/-! ### Reading back -/

def toValue : Datum → Value
  | .null => .null
  | .int n => .int n
  | .real x => .float x
  | .text s => .text s
  | .blob bs => .bytes bs

/-- Reads a value of a column. One declared as a truth value is read as an integer, and is true
unless that is zero; the storage kind decides about every other. -/
def decode (type? : Option ColumnType) (d : Datum) : Value :=
  match d, type? with
  | .null, _ => .null
  | d, some .boolean => .bool (d.toInteger ≠ 0)
  | d, _ => d.toValue

/-! ### Order -/

/-- Numbers over a common denominator, so that integers and reals compare exactly. -/
def numerator? : Datum → Option Int
  | .int n => some (n.toInt * Int.pow 2 1074)
  | .real x => some x.numerator
  | _ => none

def compareBytes : List UInt8 → List UInt8 → Ordering
  | [], [] => .eq
  | [], _ :: _ => .lt
  | _ :: _, [] => .gt
  | a :: as, b :: bs => if a < b then .lt else if b < a then .gt else compareBytes as bs

def compareChars : List Char → List Char → Ordering
  | [], [] => .eq
  | [], _ :: _ => .lt
  | _ :: _, [] => .gt
  | a :: as, b :: bs => if a < b then .lt else if b < a then .gt else compareChars as bs

def kindRank : Datum → Nat
  | .null => 0
  | .int _ | .real _ => 1
  | .text _ => 2
  | .blob _ => 3

def compare (a b : Datum) : Ordering :=
  match a, b with
  | .text s, .text t => compareChars s.toList t.toList
  | .blob s, .blob t => compareBytes s t
  | a, b =>
    match a.numerator?, b.numerator? with
    | some m, some n => Ord.compare m n
    | _, _ => Ord.compare a.kindRank b.kindRank

/-- How two values compare in a condition; null compares with nothing. -/
def compare? (a b : Datum) : Option Ordering :=
  if a = .null ∨ b = .null then none else some (a.compare b)

def isText : Datum → Bool
  | .text _ => true
  | _ => false

/-- Two values as they are compared under an affinity. A number beside a text becomes one under the
affinity to text, and a text becomes the number that it is under one to numbers. -/
def comparable (a? : Option Affinity) (x y : Datum) : Datum × Datum :=
  match a? with
  | none | some .blob => (x, y)
  | some .text => if x.isText || y.isText then (x.withText, y.withText) else (x, y)
  | some _ => (x.withNumber, y.withNumber)

end Datum

end QueryMapping
