import QueryMapping.Url.Encode

/-! Hosts. A host is opaque: its case is kept, characters that would end it or be misread are
refused, and only controls and characters beyond ASCII are encoded. A host in brackets is an IPv6
address, and is written in its shortest form. -/

namespace QueryMapping.Url

inductive UrlError where
  | relativeWithoutBase
  | emptyHost
  | invalidPort
  | invalidIpv6Address
  | invalidDomainCharacter
  | hostOnOpaquePath
deriving DecidableEq, Repr

namespace UrlError

def message : UrlError → String
  | .relativeWithoutBase => "relative URL without a base"
  | .emptyHost => "empty host"
  | .invalidPort => "invalid port number"
  | .invalidIpv6Address => "invalid IPv6 address"
  | .invalidDomainCharacter => "invalid domain character"
  | .hostOnOpaquePath => "a cannot-be-a-base URL doesn’t have a host to set"

end UrlError

inductive Host where
  | empty
  | name (chars : List Char)
  | ipv6 (pieces : List Nat)
deriving DecidableEq, Repr

namespace Ipv6

def hexValue? (c : Char) : Option Nat :=
  if c.isDigit then some (c.toNat - 48)
  else if 'a' ≤ c && c ≤ 'f' then some (c.toNat - 87)
  else if 'A' ≤ c && c ≤ 'F' then some (c.toNat - 55)
  else none

structure Pieces where
  pieces : List Nat
  gap : Option Nat

/-- One decimal part of a dotted address: at most 255, without a leading zero. -/
def octet? (cs : List Char) : Option Nat :=
  let n := cs.foldl (fun n c => n * 10 + (c.toNat - 48)) 0
  if !cs.isEmpty && cs.all Char.isDigit && (cs.length == 1 || cs.head? != some '0') &&
      cs.length ≤ 3 && n ≤ 255 then some n
  else none

def dotted? (cs : List Char) : Option (List Nat) :=
  match (cs.splitOn '.').map octet? with
  | [some a, some b, some c, some d] => some [a * 256 + b, c * 256 + d]
  | _ => none

def pieceDigits (cs : List Char) : List Char := (cs.take 4).takeWhile fun c => (hexValue? c).isSome

def pieceValue (digits : List Char) : Nat :=
  digits.foldl (fun n c => n * 16 + (hexValue? c).getD 0) 0

/-- Reads pieces after those already read. A lone colon stands for a gap, which may occur once and
takes the place of at least one piece. -/
def readPieces (done : Pieces) (cs : List Char) : Option Pieces :=
  if cs = [] then some done
  else if done.pieces.length = 8 then none
  else if cs.head? = some ':' then
    if done.gap.isSome then none
    else readPieces ⟨done.pieces ++ [0], some (done.pieces.length + 1)⟩ cs.tail
  else
    let digits := pieceDigits cs
    let next : Pieces := { done with pieces := done.pieces ++ [pieceValue digits] }
    match _h : cs.drop digits.length with
    | [] => some next
    | ':' :: rest => if rest = [] then none else readPieces next rest
    | '.' :: _ =>
      if digits = [] || 6 < done.pieces.length then none
      else (dotted? cs).map fun ps => { done with pieces := done.pieces ++ ps }
    | _ => none
termination_by cs.length
decreasing_by
  · cases cs <;> simp_all
  · have := congrArg List.length _h
    simp only [List.length_drop, List.length_cons] at this
    omega

def parse? (cs : List Char) : Option (List Nat) := do
  let read ←
    match cs with
    | ':' :: ':' :: rest => readPieces ⟨[0], some 1⟩ rest
    | ':' :: _ => none
    | [] | [_] => none
    | _ => readPieces ⟨[], none⟩ cs
  match read.gap with
  | some k =>
    some (read.pieces.take k ++ List.replicate (8 - read.pieces.length) 0 ++ read.pieces.drop k)
  | none => if read.pieces.length = 8 then some read.pieces else none

def leadingZeros (ps : List Nat) : Nat := (ps.takeWhile (· = 0)).length

def longestZeros (ps : List Nat) : Nat × Nat :=
  (List.range ps.length).foldl
    (fun best i =>
      if best.2 < leadingZeros (ps.drop i) then (i, leadingZeros (ps.drop i)) else best)
    (0, 0)

def writePieces (ps : List Nat) : List Char :=
  [':'].intercalate (ps.map fun p => (Nat.toDigits 16 p))

/-- The pieces in hexadecimal, with the first longest run of two or more zeros left out. -/
def write (ps : List Nat) : List Char :=
  let (start, length) := longestZeros ps
  if length < 2 then writePieces ps
  else writePieces (ps.take start) ++ [':', ':'] ++ writePieces (ps.drop (start + length))

end Ipv6

namespace Host

def isForbidden (c : Char) : Bool :=
  c == '\x00' || c == '\t' || c == '\n' || c == '\r' || c == ' ' || c == '#' || c == '/' ||
    c == ':' || c == '<' || c == '>' || c == '?' || c == '@' || c == '[' || c == '\\' || c == ']' ||
    c == '^' || c == '|'

def parse (cs : List Char) : Except UrlError Host :=
  match cs with
  | [] => .ok .empty
  | '[' :: rest =>
    if rest.getLast? = some ']' then
      match Ipv6.parse? rest.dropLast with
      | some ps => .ok (.ipv6 ps)
      | none => .error .invalidIpv6Address
    else .error .invalidIpv6Address
  | cs =>
    if cs.any isForbidden then .error .invalidDomainCharacter
    else .ok (.name (encode isControl cs))

def write : Host → List Char
  | .empty => []
  | .name cs => cs
  | .ipv6 ps => '[' :: Ipv6.write ps ++ [']']

end Host

end QueryMapping.Url
