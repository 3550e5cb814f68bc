/-! Bytes and numbers written in lower-case hexadecimal digits. -/

namespace QueryMapping.Text

def hexDigit (n : Nat) : Char := if n < 10 then Char.ofNat (48 + n) else Char.ofNat (87 + n)

def hexValue (c : Char) : Nat := if c.isDigit then c.toNat - 48 else c.toNat - 87

def hexOfNat (width n : Nat) : String :=
  String.ofList ((List.range width).map fun i => hexDigit (n / Nat.pow 16 (width - 1 - i) % 16))

def natOfHex (digits : String) : Nat := digits.toList.foldl (fun n c => n * 16 + hexValue c) 0

def hexOfBytes (bytes : List UInt8) : String :=
  String.ofList (bytes.flatMap fun b => [hexDigit (b.toNat / 16), hexDigit (b.toNat % 16)])

def bytesOfHexDigits : List Char → List UInt8
  | a :: b :: rest => UInt8.ofNat (hexValue a * 16 + hexValue b) :: bytesOfHexDigits rest
  | _ => []

def bytesOfHex (digits : String) : List UInt8 := bytesOfHexDigits digits.toList

end QueryMapping.Text
