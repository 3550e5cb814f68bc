import QueryMapping.Text.Bytes

/-! The parts of SQL text that are passed over as a whole: quoted tokens, comments, and bodies
between dollar tags. Each reader takes the position where the part opens and gives the position
after it; a part that lacks its end runs to the end of the text. -/

namespace QueryMapping.Sql

open Text (Fault byte)

def isQuoteByte (b : UInt8) : Bool := b == byte '\'' || b == byte '"' || b == byte '\x60'

/-- The position after the closing quote, looked for from `i` on. A doubled quote does not close. -/
def closingQuote (bytes : Array UInt8) (quote : UInt8) (i : Nat) : Nat :=
  if h : i < bytes.size then
    if bytes[i] = quote then
      if bytes[i + 1]? = some quote then closingQuote bytes quote (i + 2) else i + 1
    else closingQuote bytes quote (i + 1)
  else bytes.size
termination_by bytes.size - i

def pastQuoted (bytes : Array UInt8) (start : Nat) : Except Fault Nat := do
  let quote ← Text.readByte bytes start
  return closingQuote bytes quote (start + 1)

/-- The newline that ends the comment is not part of it. -/
def pastLineComment (bytes : Array UInt8) (start : Nat) : Except Fault Nat :=
  Text.findByte (· == byte '\n') bytes start

def pastBlockComment (bytes : Array UInt8) (start : Nat) : Except Fault Nat :=
  Text.findWord #[byte '*', byte '/'] bytes (start + 2)

/-- Whether a dollar sign at `start` can open a tag: it does not stand in a name or after another
dollar sign, and no digit follows. -/
def mayOpenTagAt (bytes : Array UInt8) (start : Nat) : Bool :=
  let before := if start = 0 then none else bytes[start - 1]?
  !before.any (fun b => Text.isNameByte b || b == byte '$') &&
    !bytes[start + 1]?.any Text.isDigitByte

def pastDollarBody (bytes : Array UInt8) (start : Nat) : Except Fault (Option Nat) :=
  if mayOpenTagAt bytes start then do
    let close ← Text.findByte (fun b => !Text.isNameByte b) bytes (start + 1)
    if bytes[close]? = some (byte '$') then
      let delimiter ← Text.slice bytes start (close + 1)
      let stop ← Text.findWord delimiter bytes (close + 1)
      return some stop
    else return none
  else return none

/-! Each reader moves on, and not past the end. -/

theorem closingQuote_bounds {bytes : Array UInt8} {quote : UInt8} {i : Nat} (hi : i ≤ bytes.size) :
    i ≤ closingQuote bytes quote i ∧ closingQuote bytes quote i ≤ bytes.size := by
  fun_induction closingQuote bytes quote i with
  | case1 i h _ hd ih =>
    have := ih (Array.getElem?_eq_some_iff.1 hd).1
    omega
  | case2 i h _ _ => omega
  | case3 i h _ ih =>
    have := ih h
    omega
  | case4 i h => omega

theorem pastQuoted_bounds {bytes : Array UInt8} {start stop : Nat}
    (h : pastQuoted bytes start = .ok stop) : start < stop ∧ stop ≤ bytes.size := by
  unfold pastQuoted Text.readByte at h
  split at h
  · next b hb =>
    have hbounds := @closingQuote_bounds bytes b (start + 1) (Array.getElem?_eq_some_iff.1 hb).1
    have hstop : closingQuote bytes b (start + 1) = stop := Except.ok.inj h
    omega
  · cases h

theorem pastLineComment_bounds {bytes : Array UInt8} {start stop : Nat}
    (hstart : bytes[start]? = some (byte '-')) (h : pastLineComment bytes start = .ok stop) :
    start < stop ∧ stop ≤ bytes.size := by
  obtain ⟨hlt, hb⟩ := Array.getElem?_eq_some_iff.1 hstart
  unfold pastLineComment Text.findByte at h
  rw [if_pos (Nat.le_of_lt hlt), Text.searchByte, dif_pos hlt, hb, if_neg (by decide)] at h
  have := Text.le_searchByte (· == byte '\n') (i := start + 1) hlt
  have := Except.ok.inj h
  omega

theorem pastBlockComment_bounds {bytes : Array UInt8} {start stop : Nat}
    (h : pastBlockComment bytes start = .ok stop) : start < stop ∧ stop ≤ bytes.size := by
  have := Text.findWord_bounds h
  omega

theorem pastDollarBody_bounds {bytes : Array UInt8} {start stop : Nat}
    (h : pastDollarBody bytes start = .ok (some stop)) : start < stop ∧ stop ≤ bytes.size := by
  unfold pastDollarBody at h
  split at h
  · obtain ⟨close, hclose, h⟩ := Text.exists_ok_of_bind_eq_ok h
    split at h
    · obtain ⟨delimiter, _, h⟩ := Text.exists_ok_of_bind_eq_ok h
      obtain ⟨last, hlast, h⟩ := Text.exists_ok_of_bind_eq_ok h
      have := Text.findByte_bounds hclose
      have := Text.findWord_bounds hlast
      have := Option.some.inj (Except.ok.inj h)
      omega
    · cases h
  · cases h

end QueryMapping.Sql
