import QueryMapping.Json.Number
import QueryMapping.Settings.Node
import QueryMapping.Text.Blank

/-! Settings given as text, such as environment variables. The form of the text decides what it is:
a truth value, a number, a quoted text, a character, a list in brackets, a record in braces, or else
just text. Text that does not have one of these forms to its end is text as a whole. -/

namespace QueryMapping.Settings

def isAsciiBlank (c : Char) : Bool :=
  c == ' ' || c == '\t' || c == '\n' || c == '\x0c' || c == '\r'

def isSeparator (c : Char) : Bool :=
  c == ',' || c == '\x7b' || c == '\x7d' || c == '[' || c == ']'

def isKeyChar (c : Char) : Bool := c.isAlphanum || c == '_' || c == '-'

def skipBlanks (cs : List Char) : List Char := cs.dropWhile isAsciiBlank

def unsigned : List Char → List Char
  | '+' :: cs => cs
  | '-' :: cs => cs
  | cs => cs

def isDigits (cs : List Char) : Bool := !cs.isEmpty && cs.all Char.isDigit

/-- A number with a point: digits on at least one side of it, and perhaps an exponent. -/
def isDecimal (cs : List Char) : Bool :=
  let mantissa := (unsigned cs).takeWhile fun c => c.isDigit || c == '.'
  let exponent := (unsigned cs).dropWhile fun c => c.isDigit || c == '.'
  mantissa.count '.' == 1 && mantissa.any Char.isDigit &&
    match exponent with
    | [] => true
    | c :: rest => (c == 'e' || c == 'E') && isDigits (unsigned rest)

/-- An integer of 64 bits, unsigned or with a minus sign. -/
def integer? (cs : List Char) : Option Int :=
  if isDigits (unsigned cs) then
    let n : Nat := (unsigned cs).foldl (fun n c => n * 10 + (c.toNat - 48)) 0
    if cs.head? = some '-' then if n ≤ Nat.pow 2 63 then some (-(n : Int)) else none
    else if n < Nat.pow 2 64 then some n else none
  else none

def plain (cs : List Char) : Node :=
  let cs := Text.trim cs
  if isDecimal cs then .float
  else
    match integer? cs with
    | some n => .int n
    | none => .text (String.ofList cs)

def codePoint? (digits : Nat) (cs : List Char) : Option (Char × List Char) :=
  let hex := cs.take digits
  let n := hex.foldl (fun n c => n * 16 + (Json.hexDigit? c).getD 0) 0
  if hex.length = digits && hex.all (fun c => (Json.hexDigit? c).isSome) && n.isValidChar then
    some (Char.ofNat n, cs.drop digits)
  else none

def unescape? : Nat → List Char → Option (List Char)
  | _, [] => some []
  | 0, _ => none
  | fuel + 1, '\\' :: c :: rest =>
    let simple (d : Char) := (unescape? fuel rest).map (d :: ·)
    let coded (digits : Nat) :=
      (codePoint? digits rest).bind fun r => (unescape? fuel r.2).map (r.1 :: ·)
    match c with
    | '"' => simple '"'
    | '\\' => simple '\\'
    | 'b' => simple '\x08'
    | 'f' => simple '\x0c'
    | 'n' => simple '\n'
    | 'r' => simple '\r'
    | 't' => simple '\t'
    | 'u' => coded 4
    | 'U' => coded 8
    | _ => none
  | fuel + 1, c :: rest =>
    if c == '\\' || (c != '\t' && (c.toNat < 0x20 || c.toNat == 0x7F)) then none
    else (unescape? fuel rest).map (c :: ·)

def quotedInside? : List Char → Option (List Char × List Char)
  | [] => none
  | '"' :: rest => some ([], rest)
  | '\\' :: c :: rest => (quotedInside? rest).map fun r => ('\\' :: c :: r.1, r.2)
  | c :: rest => (quotedInside? rest).map fun r => (c :: r.1, r.2)

def fitting : Nat → List Char → List Char
  | _, [] => []
  | bytes, c :: cs => if c.utf8Size ≤ bytes then c :: fitting (bytes - c.utf8Size) cs else []

/-- The text that a quoted inside stands for. Of what comes before the first escape only as many
bytes are kept as it has characters. -/
def unquoted? (inside : List Char) : Option (List Char) := do
  let text ← unescape? inside.length inside
  let before := inside.takeWhile (· ≠ '\\')
  if before.length = inside.length then return text
  else return fitting before.length before ++ text.drop before.length

def quotedText? (cs : List Char) : Option (String × List Char) := do
  let (inside, rest) ← quotedInside? cs
  let text ← unquoted? inside
  return (String.ofList text, rest)

def key? (cs : List Char) : Option (String × List Char) := do
  let (key, rest) ←
    match skipBlanks cs with
    | '"' :: rest => quotedText? rest
    | cs =>
      if (cs.takeWhile isKeyChar).isEmpty then none
      else some (String.ofList (cs.takeWhile isKeyChar), cs.dropWhile isKeyChar)
  match skipBlanks rest with
  | '=' :: rest => some (key, rest)
  | _ => none

mutual

/-- The value that a text begins with, and what follows it. Each step down or along spends fuel. -/
def value? : Nat → List Char → Option (Node × List Char)
  | 0, _ => none
  | fuel + 1, cs =>
    let parsed : Option (Node × List Char) :=
      match skipBlanks cs with
      | 't' :: 'r' :: 'u' :: 'e' :: rest => some (.bool true, rest)
      | 'f' :: 'a' :: 'l' :: 's' :: 'e' :: rest => some (.bool false, rest)
      | '\x7b' :: rest => (members? fuel rest).map fun r => (.record r.1, r.2)
      | '[' :: rest => (items? fuel rest).map fun r => (.list r.1, r.2)
      | '"' :: rest => (quotedText? rest).map fun r => (.text r.1, r.2)
      | '\'' :: c :: '\'' :: rest => some (.text (String.ofList [c]), rest)
      | '\'' :: _ => none
      | cs => some (plain (cs.takeWhile (!isSeparator ·)), cs.dropWhile (!isSeparator ·))
    parsed.map fun r => (r.1, skipBlanks r.2)

def items? : Nat → List Char → Option (List Node × List Char)
  | 0, _ => none
  | _ + 1, ']' :: rest => some ([], rest)
  | fuel + 1, cs => do
    let (item, rest) ← value? fuel cs
    match rest with
    | ',' :: rest => (items? fuel rest).map fun r => (item :: r.1, r.2)
    | ']' :: rest => some ([item], rest)
    | _ => none

def members? : Nat → List Char → Option (List (String × Node) × List Char)
  | 0, _ => none
  | _ + 1, '\x7d' :: rest => some ([], rest)
  | fuel + 1, cs => do
    let (key, rest) ← key? cs
    let (item, rest) ← value? fuel rest
    match rest with
    | ',' :: rest => (members? fuel rest).map fun r => ((key, item) :: r.1, r.2)
    | '\x7d' :: rest => some ([(key, item)], rest)
    | _ => none

end

def ofText (text : String) : Node :=
  match value? (2 * text.length + 2) text.toList with
  | some (node, []) => node
  | _ => .text text

end QueryMapping.Settings
