import QueryMapping.Relational.Keyword
import QueryMapping.Relational.Token

/-! Reading what tokens begin with. -/

namespace QueryMapping.Relational

/-- Reads what some tokens begin with, and gives it with the tokens that follow. Their number, which
is known from the start, bounds what is read in a loop. -/
abbrev Parser (α : Type) := ReaderT Nat (StateT (List Token) Option) α

namespace Parser

def next : Parser Token := fun _ ts =>
  match ts with
  | [] => none
  | t :: rest => some (t, rest)

def keyword (k : String) : Parser Unit := do
  match (← next).kind with
  | .word w => if Text.sameFolded k.toList w.toList then return () else failure
  | _ => failure

def keywords (ks : List String) : Parser Unit := ks.forM keyword

def symbol (s : String) : Parser Unit := do
  if (← next).kind = .symbol s then return () else failure

def nameBy (isName : String → Bool) : Parser String := do
  match (← next).kind with
  | .word w => if isName w then return w else failure
  | .name s _ | .text s => return s
  | _ => failure

def name : Parser String := nameBy Keyword.isName

def optional? {α : Type} (p : Parser α) : Parser (Option α) := fun bound ts =>
  match p bound ts with
  | some (a, rest) => some (some a, rest)
  | none => some (none, ts)

def accepts (p : Parser Unit) : Parser Bool := Option.isSome <$> optional? p

def listFrom {α : Type} (p : Parser α) : Nat → Parser (List α)
  | 0 => failure
  | fuel + 1 => do
    let a ← p
    if ← accepts (symbol ",") then return a :: (← listFrom p fuel) else return [a]

def list {α : Type} (p : Parser α) : Parser (List α) := do listFrom p ((← read) + 1)

def manyFrom {α : Type} (p : Parser α) : Nat → Parser (List α)
  | 0 => failure
  | fuel + 1 => do
    match ← optional? p with
    | some a => return a :: (← manyFrom p fuel)
    | none => return []

def many {α : Type} (p : Parser α) : Parser (List α) := do manyFrom p ((← read) + 1)

def between {α : Type} (p : Parser α) : Parser α := do
  symbol "("
  let a ← p
  symbol ")"
  return a

def taken {α : Type} (p : Parser α) : Parser (α × List Token) := fun bound before => do
  let (a, after) ← p bound before
  return ((a, before.take (before.length - after.length)), after)

def nextBlanks : Parser (List Char) := fun _ ts => some (ts.head?.elim [] (·.blanks), ts)

def written (ts : List Token) : List Char :=
  (ts.flatMap fun t => t.blanks ++ t.chars).drop (ts.head?.elim 0 (·.blanks.length))

end Parser

end QueryMapping.Relational
