import QueryMapping.Relational.Datum

/-! The tokens of the engine's statements. Every text has tokens: what is none of the known ones is
a token too, and is refused only when the statement that has it is read. -/

namespace QueryMapping.Relational

inductive TokenKind where
  | word (w : String)
  /-- A name in quotes. One in double quotes may stand for a text as well. -/
  | name (s : String) (inDoubleQuotes : Bool)
  | text (s : String)
  | blob (bs : List UInt8)
  | number (n : Numeral)
  | bits (n : Int64)
  | parameter (written : String) (index : Nat)
  | symbol (s : String)
  | unknown
deriving DecidableEq, Repr

structure Token where
  kind : TokenKind
  chars : List Char
  blanks : List Char
deriving DecidableEq, Repr

def isBlank (c : Char) : Bool :=
  c == ' ' || c == '\t' || c == '\n' || c == '\x0c' || c == '\r'

def isNameStart (c : Char) : Bool := Text.isNameStart c || 0x80 ≤ c.toNat

def isNameChar (c : Char) : Bool := Text.isNameChar c || c == '$' || 0x80 ≤ c.toNat

/-- How many characters a block comment takes after its opening; one that is not closed goes to the
end. -/
def blockLength : List Char → Nat
  | [] => 0
  | '*' :: '/' :: _ => 2
  | _ :: rest => blockLength rest + 1

/-- How many characters of blanks and comments a text begins with. After one blank every kind of
white space is one, and the mark of byte order counts as one before any token. -/
def blanksLength : List Char → Nat
  | [] => 0
  | '-' :: '-' :: rest =>
    let n := (rest.takeWhile (· ≠ '\n')).length
    2 + n + blanksLength (rest.drop n)
  | '/' :: '*' :: c :: rest =>
    let n := blockLength (c :: rest)
    2 + n + blanksLength ((c :: rest).drop n)
  | '\uFEFF' :: rest => 1 + blanksLength rest
  | c :: rest =>
    if isBlank c then
      let n := (rest.takeWhile Datum.isSpace).length
      1 + n + blanksLength (rest.drop n)
    else 0
termination_by cs => cs.length

/-! ### Quotes -/

def quoted? (quote : Char) : List Char → Option (List Char × Nat)
  | [] => none
  | [c] => if c = quote then some ([], 1) else none
  | c :: d :: rest =>
    if c ≠ quote then (quoted? quote (d :: rest)).map fun r => (c :: r.1, r.2 + 1)
    else if d = quote then (quoted? quote rest).map fun r => (quote :: r.1, r.2 + 2)
    else some ([], 1)

/-- A token in quotes; one that is not closed goes to the end. -/
def scanQuoted (quote : Char) (kind : String → TokenKind) (inside : List Char) : TokenKind × Nat :=
  match quoted? quote inside with
  | some (text, length) => (kind (String.ofList text), length)
  | none => (.unknown, inside.length)

/-- A name in brackets, which are not doubled inside. -/
def scanBracketed (inside : List Char) : TokenKind × Nat :=
  let text := inside.takeWhile (· ≠ ']')
  if text.length < inside.length then (.name (String.ofList text) false, text.length + 1)
  else (.unknown, inside.length)

def bytes? : List Char → Option (List UInt8)
  | [] => some []
  | [_] => none
  | a :: b :: rest => do
    let high ← Json.hexDigit? a
    let low ← Json.hexDigit? b
    let bytes ← bytes? rest
    return UInt8.ofNat (high * 16 + low) :: bytes

def scanBytes (inside : List Char) : TokenKind × Nat :=
  let digits := inside.takeWhile (· ≠ '\'')
  match inside.drop digits.length, bytes? digits with
  | _ :: _, some bytes => (.blob bytes, digits.length + 2)
  | _, _ => (.unknown, digits.length + 1)

/-! ### Numbers -/

def isHexDigit (c : Char) : Bool := (Json.hexDigit? c).isSome

def isHexadecimal : List Char → Bool
  | '0' :: x :: c :: _ => (x == 'x' || x == 'X') && isHexDigit c
  | _ => false

def numberLength (cs : List Char) : Nat :=
  let isPart (c : Char) := c.isDigit || c == '_'
  if isHexadecimal cs then
    2 + ((cs.drop 2).takeWhile fun c => isHexDigit c || c == '_').length
  else
    let whole := (cs.takeWhile isPart).length
    let length :=
      match cs.drop whole with
      | '.' :: ds => whole + 1 + (ds.takeWhile isPart).length
      | _ => whole
    match Numeral.exponent? (cs.drop length) with
    | some (_, n) => length + n + ((cs.drop (length + n)).takeWhile isPart).length
    | none => length

/-- Whether every separator stands between two digits. -/
def separates (isDigit : Char → Bool) : List Char → Bool
  | [] => true
  | ['_'] => false
  | [_] => true
  | c :: d :: rest =>
    (c != '_' || isDigit d) && (d != '_' || isDigit c) && separates isDigit (d :: rest)

def bits? (digits : List Char) : Option Int64 :=
  let value := digits.foldl (fun n c => n * 16 + (Json.hexDigit? c).getD 0) 0
  if value < Nat.pow 2 64 then some (UInt64.ofNat value).toInt64 else none

def numberKind (cs : List Char) : TokenKind :=
  let digits := cs.filter (· ≠ '_')
  if isHexadecimal cs then
    if separates isHexDigit cs then (bits? (digits.drop 2)).elim .unknown .bits else .unknown
  else if separates Char.isDigit cs then .number (Numeral.scan digits).1
  else .unknown

def scanNumber (cs : List Char) : TokenKind × Nat :=
  let length := numberLength cs
  let tail := (cs.drop length).takeWhile isNameChar
  if tail.isEmpty then (numberKind (cs.take length), length - 1)
  else (.unknown, length - 1 + tail.length)

/-! ### Tokens -/

def parameterNameLength : List Char → Nat
  | ':' :: ':' :: rest => parameterNameLength rest + 2
  | c :: rest => if isNameChar c then parameterNameLength rest + 1 else 0
  | [] => 0

def scanNamedParameter (mark : Char) (rest : List Char) : TokenKind × Nat :=
  let name := rest.take (parameterNameLength rest)
  if name.any isNameChar then (.parameter (String.ofList (mark :: name)) 0, name.length)
  else (.unknown, name.length)

def scanParameter (rest : List Char) : TokenKind × Nat :=
  let number := rest.takeWhile Char.isDigit
  (.parameter (String.ofList ('?' :: number)) 0, number.length)

def scanSymbol (c : Char) (rest : List Char) : TokenKind × Nat :=
  match c, rest with
  | '=', '=' :: _ => (.symbol "=", 1)
  | '!', '=' :: _ | '<', '>' :: _ => (.symbol "<>", 1)
  | '<', '=' :: _ => (.symbol "<=", 1)
  | '>', '=' :: _ => (.symbol ">=", 1)
  | c, _ => if "()+-*,;=<>.".toList.contains c then (.symbol c.toString, 0) else (.unknown, 0)

def scanToken (c : Char) (rest : List Char) : TokenKind × Nat :=
  match c, rest with
  | '\'', inside => scanQuoted '\'' .text inside
  | '"', inside => scanQuoted '"' (.name · true) inside
  | '\x60', inside => scanQuoted '\x60' (.name · false) inside
  | '[', inside => scanBracketed inside
  | 'x', '\'' :: inside | 'X', '\'' :: inside => scanBytes inside
  | '?', rest => scanParameter rest
  | c, rest =>
    if isNameStart c then
      let tail := rest.takeWhile isNameChar
      (.word (String.ofList (c :: tail)), tail.length)
    else if c.isDigit || (c == '.' && rest.head?.any Char.isDigit) then scanNumber (c :: rest)
    else if "$@:#".toList.contains c then scanNamedParameter c rest
    else scanSymbol c rest

/-- The tokens of a text, the last of which is a semicolon that need not be written. All parameters
have place zero. -/
def scanTokens (cs : List Char) : List Token :=
  match _h : cs.drop (blanksLength cs) with
  | [] => [⟨.symbol ";", [], cs⟩]
  | c :: rest =>
    let (kind, extra) := scanToken c rest
    ⟨kind, c :: rest.take extra, cs.take (blanksLength cs)⟩ :: scanTokens (rest.drop extra)
termination_by cs.length
decreasing_by
  have h := congrArg List.length _h
  simp only [List.length_cons, List.length_drop] at *
  omega

def cutStatements : List Token → List (List Token)
  | [] => []
  | t :: ts =>
    if t.kind = .symbol ";" then [t] :: cutStatements ts
    else
      match cutStatements ts with
      | [] => []
      | statement :: rest => (t :: statement) :: rest

/-- The statements of a text, each with the semicolon that ends it, without the empty ones. A text
ends at the first NUL. -/
def statementTokens (cs : List Char) : List (List Token) :=
  (cutStatements (scanTokens (cs.takeWhile (· ≠ '\x00')))).filter (1 < ·.length)

end QueryMapping.Relational
