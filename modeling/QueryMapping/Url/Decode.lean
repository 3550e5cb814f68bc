import QueryMapping.Json.Token

/-! Percent-decoding. A percent sign that two hexadecimal digits do not follow stands for itself. -/

namespace QueryMapping.Url

def hexValue? (b : UInt8) : Option Nat := Json.hexDigit? (Char.ofNat b.toNat)

def decodeBytes : List UInt8 → List UInt8
  | [] => []
  | [b] => [b]
  | [b, c] => [b, c]
  | b :: h :: l :: rest =>
    match if b = 0x25 then hexValue? h else none, hexValue? l with
    | some high, some low => UInt8.ofNat (high * 16 + low) :: decodeBytes rest
    | _, _ => b :: decodeBytes (h :: l :: rest)

def decode? (cs : List Char) : Option String :=
  String.fromUTF8? ⟨(decodeBytes (cs.flatMap String.utf8EncodeChar)).toArray⟩

/-- The bytes of a form's key or value, in which a plus sign is a space. -/
def decodeForm (cs : List Char) : List UInt8 :=
  decodeBytes ((cs.map fun c => if c = '+' then ' ' else c).flatMap String.utf8EncodeChar)

def formPairs (query : List Char) : List (List Char × List Char) :=
  ((query.splitOn '&').filter (!·.isEmpty)).map fun pair =>
    let key := pair.takeWhile (· ≠ '=')
    (key, pair.drop (key.length + 1))

end QueryMapping.Url
