/-! The tokens of a JSON text. A token keeps what reading its value needs: a string its characters
with their escapes, a number its digits. Numbers and strings follow the grammar of RFC 8259; an
escape `\u` takes any four hexadecimal digits. -/

namespace QueryMapping.Json

structure NumberText where
  negative : Bool
  whole : List Nat
  fraction : List Nat
  exponent : Option (Bool × List Nat)
deriving DecidableEq, Repr

namespace NumberText

def isInteger (n : NumberText) : Bool := n.fraction.isEmpty && n.exponent.isNone

end NumberText

inductive StringPart where
  | char (c : Char)
  | unit (n : Nat)
deriving DecidableEq, Repr

inductive Token where
  | openArray
  | closeArray
  | openObject
  | closeObject
  | comma
  | colon
  | null
  | bool (b : Bool)
  | number (n : NumberText)
  | string (parts : List StringPart)
deriving DecidableEq, Repr

def isSpace (c : Char) : Bool := c == ' ' || c == '\t' || c == '\n' || c == '\r'

def digit? (c : Char) : Option Nat := if c.isDigit then some (c.toNat - 48) else none

def hexDigit? (c : Char) : Option Nat :=
  if c.isDigit then some (c.toNat - 48)
  else if 'a' ≤ c && c ≤ 'f' then some (c.toNat - 87)
  else if 'A' ≤ c && c ≤ 'F' then some (c.toNat - 55)
  else none

def escaped? : Char → Option Char
  | '"' => some '"'
  | '\\' => some '\\'
  | '/' => some '/'
  | 'b' => some '\x08'
  | 'f' => some '\x0c'
  | 'n' => some '\n'
  | 'r' => some '\r'
  | 't' => some '\t'
  | _ => none

def digits : List Char → List Nat × List Char
  | [] => ([], [])
  | c :: cs =>
    match digit? c with
    | some d => (d :: (digits cs).1, (digits cs).2)
    | none => ([], c :: cs)

def unit? (a b c d : Char) : Option Nat := do
  return (((← hexDigit? a) * 16 + (← hexDigit? b)) * 16 + (← hexDigit? c)) * 16 + (← hexDigit? d)

def consPart (part : Option StringPart) (following : Option (List StringPart × List Char)) :
    Option (List StringPart × List Char) :=
  part.bind fun p => following.map fun r => (p :: r.1, r.2)

def stringParts : List Char → Option (List StringPart × List Char)
  | [] => none
  | '"' :: rest => some ([], rest)
  | '\\' :: 'u' :: a :: b :: c :: d :: rest =>
    consPart ((unit? a b c d).map .unit) (stringParts rest)
  | '\\' :: c :: rest => consPart ((escaped? c).map .char) (stringParts rest)
  | c :: rest =>
    consPart (if c == '\\' || c.toNat < 0x20 then none else some (.char c)) (stringParts rest)

/-- The digits before the point: a zero stands alone. -/
def wholeDigits? : List Char → Option (List Nat × List Char)
  | '0' :: rest => some ([0], rest)
  | cs => if (digits cs).1.isEmpty then none else some (digits cs)

def fractionDigits? : List Char → Option (List Nat × List Char)
  | '.' :: rest => if (digits rest).1.isEmpty then none else some (digits rest)
  | cs => some ([], cs)

def signedDigits : List Char → Bool × List Nat × List Char
  | '-' :: rest => (true, digits rest)
  | '+' :: rest => (false, digits rest)
  | cs => (false, digits cs)

def exponentDigits? : List Char → Option (Option (Bool × List Nat) × List Char)
  | [] => some (none, [])
  | c :: rest =>
    if c == 'e' || c == 'E' then
      let (negative, ds, rest) := signedDigits rest
      if ds.isEmpty then none else some (some (negative, ds), rest)
    else some (none, c :: rest)

def number? (negative : Bool) (cs : List Char) : Option (NumberText × List Char) := do
  let (whole, cs) ← wholeDigits? cs
  let (fraction, cs) ← fractionDigits? cs
  let (exponent, cs) ← exponentDigits? cs
  return (⟨negative, whole, fraction, exponent⟩, cs)

def token? : List Char → Option (Token × List Char)
  | '[' :: rest => some (.openArray, rest)
  | ']' :: rest => some (.closeArray, rest)
  | '\x7b' :: rest => some (.openObject, rest)
  | '\x7d' :: rest => some (.closeObject, rest)
  | ',' :: rest => some (.comma, rest)
  | ':' :: rest => some (.colon, rest)
  | 'n' :: 'u' :: 'l' :: 'l' :: rest => some (.null, rest)
  | 't' :: 'r' :: 'u' :: 'e' :: rest => some (.bool true, rest)
  | 'f' :: 'a' :: 'l' :: 's' :: 'e' :: rest => some (.bool false, rest)
  | '"' :: rest => (stringParts rest).map fun r => (.string r.1, r.2)
  | '-' :: rest => (number? true rest).map fun r => (.number r.1, r.2)
  | cs => (number? false cs).map fun r => (.number r.1, r.2)

theorem digits_length (cs : List Char) :
    (digits cs).1.length + (digits cs).2.length = cs.length := by
  fun_induction digits cs with
  | case1 => rfl
  | case2 c cs d hd ih => simp; omega
  | case3 => simp

theorem digits_rest_le (cs : List Char) : (digits cs).2.length ≤ cs.length := by
  have := digits_length cs
  omega

theorem consPart_eq_some {part : Option StringPart}
    {following : Option (List StringPart × List Char)}
    {r : List StringPart × List Char} (h : consPart part following = some r) :
    ∃ p r', part = some p ∧ following = some r' ∧ r = (p :: r'.1, r'.2) := by
  simp only [consPart, Option.bind_eq_some_iff, Option.map_eq_some_iff] at h
  obtain ⟨p, hp, r', hr, rfl⟩ := h
  exact ⟨p, r', hp, hr, rfl⟩

theorem stringParts_length {cs : List Char} {r : List StringPart × List Char}
    (h : stringParts cs = some r) : r.2.length < cs.length := by
  fun_induction stringParts cs generalizing r with
  | case1 => simp at h
  | case2 => simp_all [← Option.some.inj h]
  | case3 a b c d tail ih =>
    obtain ⟨p, r', _, hr, rfl⟩ := consPart_eq_some h
    have := ih hr
    simp only [List.length_cons]
    omega
  | case4 c tail _ ih =>
    obtain ⟨p, r', _, hr, rfl⟩ := consPart_eq_some h
    have := ih hr
    simp only [List.length_cons]
    omega
  | case5 c tail _ _ _ ih =>
    obtain ⟨p, r', _, hr, rfl⟩ := consPart_eq_some h
    have := ih hr
    simp only [List.length_cons]
    omega

theorem wholeDigits?_length {cs : List Char} {r : List Nat × List Char}
    (h : wholeDigits? cs = some r) : r.2.length < cs.length := by
  unfold wholeDigits? at h
  split at h
  · simp [← Option.some.inj h]
  · have hd := digits_length cs
    split at h
    · simp at h
    · next hne =>
      rw [Option.some.inj h] at hd hne
      cases hr : r.1 with
      | nil => simp [hr] at hne
      | cons d ds => simp [hr] at hd; omega

theorem fractionDigits?_length {cs : List Char} {r : List Nat × List Char}
    (h : fractionDigits? cs = some r) : r.2.length ≤ cs.length := by
  unfold fractionDigits? at h
  split at h
  · next tail =>
    have hd := digits_rest_le tail
    split at h
    · simp at h
    · rw [Option.some.inj h] at hd
      simp only [List.length_cons]
      omega
  · simp [← Option.some.inj h]

theorem signedDigits_length (cs : List Char) : (signedDigits cs).2.2.length ≤ cs.length := by
  unfold signedDigits
  split
  · next rest => exact Nat.le_trans (digits_rest_le rest) (by simp)
  · next rest => exact Nat.le_trans (digits_rest_le rest) (by simp)
  · exact digits_rest_le cs

theorem exponentDigits?_length {cs : List Char} {r : Option (Bool × List Nat) × List Char}
    (h : exponentDigits? cs = some r) : r.2.length ≤ cs.length := by
  unfold exponentDigits? at h
  split at h
  · simp [← Option.some.inj h]
  · next c tail =>
    split at h
    · have hs := signedDigits_length tail
      dsimp only at h
      split at h
      · simp at h
      · rw [← Option.some.inj h]
        exact Nat.le_succ_of_le hs
    · simp [← Option.some.inj h]

theorem number?_length {negative : Bool} {cs : List Char} {r : NumberText × List Char}
    (h : number? negative cs = some r) : r.2.length < cs.length := by
  simp only [number?, bind, Option.bind_eq_some_iff] at h
  obtain ⟨r₁, h₁, r₂, h₂, r₃, h₃, h⟩ := h
  have := wholeDigits?_length h₁
  have := fractionDigits?_length h₂
  have := exponentDigits?_length h₃
  simp only [← Option.some.inj h]
  omega

theorem token?_length {cs : List Char} {r : Token × List Char} (h : token? cs = some r) :
    r.2.length < cs.length := by
  unfold token? at h
  split at h
  case h_10 =>
    obtain ⟨r', hr, rfl⟩ := Option.map_eq_some_iff.1 h
    exact Nat.lt_trans (stringParts_length hr) (by simp)
  case h_11 =>
    obtain ⟨r', hr, rfl⟩ := Option.map_eq_some_iff.1 h
    exact Nat.lt_trans (number?_length hr) (by simp)
  case h_12 =>
    obtain ⟨r', hr, rfl⟩ := Option.map_eq_some_iff.1 h
    exact number?_length hr
  all_goals
    simp only [← Option.some.inj h, List.length_cons]
    omega

def tokens? : List Char → Option (List Token)
  | [] => some []
  | c :: cs =>
    if isSpace c then tokens? cs
    else
      match _h : token? (c :: cs) with
      | none => none
      | some (t, rest) => (tokens? rest).map (t :: ·)
termination_by cs => cs.length
decreasing_by
  · simp
  · exact token?_length _h

end QueryMapping.Json
