/-! Quoted texts in a YAML file. Only some characters may stand in one as they are, and lines are
folded. The controls below the space are always written as escapes, so none of them is a blank or a
break here. -/

namespace QueryMapping.Settings

def nextLine : Char := '\u0085'

def isBreak (c : Char) : Bool := c == nextLine || c == '\u2028' || c == '\u2029'

def isFoldable (c : Char) : Bool := c == ' ' || isBreak c

def isAllowed (c : Char) : Bool :=
  c.toNat < 0x7F || c == nextLine ||
    (0xA0 ≤ c.toNat && c.toNat ≠ 0xFFFE && c.toNat ≠ 0xFFFF)

/-- What a run of spaces and breaks is read as. Spaces at a break are dropped. A lone next-line
control becomes a space; it is dropped before other breaks. The separators stay, and after the first
break a next-line control is a line feed. -/
def foldRun (run : List Char) : List Char :=
  match run.filter isBreak with
  | [] => run
  | first :: others =>
    let others := others.map fun c => if c = nextLine then '\n' else c
    if first ≠ nextLine then first :: others
    else if others = [] then [' ']
    else others

/-- Three hyphens or three full stops that nothing but a blank or a break follows end a document if
they begin a line. -/
def endsDocument : List Char → Bool
  | a :: b :: c :: d :: _ => (a == '-' || a == '.') && a == b && b == c && isFoldable d
  | _ => false

/-- Folds the lines of a quoted text; absent if one of them ends the document. -/
def foldLines? : List Char → Option (List Char)
  | [] => some []
  | c :: cs =>
    if isFoldable c then
      let run := c :: cs.takeWhile isFoldable
      let rest := cs.dropWhile isFoldable
      if run.getLast?.any isBreak && endsDocument rest then none
      else (foldLines? rest).map (foldRun run ++ ·)
    else (foldLines? cs).map (c :: ·)
termination_by cs => cs.length
decreasing_by
  · exact Nat.lt_succ_of_le (List.dropWhile_suffix isFoldable).length_le
  · exact Nat.lt_succ_self _

def ofQuoted? (text : String) : Option String :=
  if text.toList.all isAllowed then (foldLines? text.toList).map String.ofList else none

def quotedWidth (c : Char) : Nat :=
  if c == '"' || c == '\\' || c == '\x08' || c == '\t' || c == '\n' || c == '\x0c' ||
    c == '\r' then 2
  else if c.toNat < 0x20 then 6
  else 1

def maxKeyWidth : Nat := 1024

/-- Whether a text can be a key: it has to stand on one line, which must not be too long. -/
def isKey (key : String) : Bool :=
  key.toList.all (fun c => isAllowed c && !isBreak c) &&
    2 + (key.toList.map quotedWidth).foldl (· + ·) 0 ≤ maxKeyWidth

end QueryMapping.Settings
