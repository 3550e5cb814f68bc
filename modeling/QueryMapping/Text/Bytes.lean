import QueryMapping.Text.Ascii

/-! Text read by the positions of its bytes. A position past the end, a cut inside a character and a
search for nothing are faults; the readers below name each place where one could arise. -/

namespace QueryMapping.Text

/-- A position that bytes cannot be read at, or that a text cannot be cut at, or a word without
bytes that is looked for. -/
inductive Fault where
  | outside (position : Nat)
  | insideCharacter (position : Nat)
  | emptyWord
deriving DecidableEq, Repr

def bytes (text : String) : Array UInt8 := text.toUTF8.data

def byte (c : Char) : UInt8 := c.toUInt8

def isDigitByte (b : UInt8) : Bool := (Char.ofUInt8 b).isDigit

def isNameStartByte (b : UInt8) : Bool := isNameStart (Char.ofUInt8 b)

def isNameByte (b : UInt8) : Bool := isNameChar (Char.ofUInt8 b)

def readByte (bytes : Array UInt8) (i : Nat) : Except Fault UInt8 :=
  match bytes[i]? with
  | some b => .ok b
  | none => .error (.outside i)

def slice (bytes : Array UInt8) (start stop : Nat) : Except Fault (Array UInt8) :=
  if start ≤ stop ∧ stop ≤ bytes.size then .ok (bytes.extract start stop)
  else .error (.outside stop)

def searchByte (p : UInt8 → Bool) (bytes : Array UInt8) (i : Nat) : Nat :=
  if h : i < bytes.size then
    if p bytes[i] then i else searchByte p bytes (i + 1)
  else bytes.size
termination_by bytes.size - i

/-- `searchByte`, for a start within the text. -/
def findByte (p : UInt8 → Bool) (bytes : Array UInt8) (start : Nat) : Except Fault Nat :=
  if start ≤ bytes.size then .ok (searchByte p bytes start) else .error (.outside start)

/-- The position after the first occurrence of `word` from `i` on, or else the end. -/
def searchWord (word bytes : Array UInt8) (i : Nat) : Nat :=
  if h : i < bytes.size then
    if bytes.extract i (i + word.size) = word then i + word.size
    else searchWord word bytes (i + 1)
  else bytes.size
termination_by bytes.size - i

/-- `searchWord`, for a start within the text and a word that has bytes. -/
def findWord (word bytes : Array UInt8) (start : Nat) : Except Fault Nat :=
  if start ≤ bytes.size then
    if word.size = 0 then .error .emptyWord else .ok (searchWord word bytes start)
  else .error (.outside start)

/-- The text between two positions, neither of which may be inside a character. -/
def cut (text : String) (start stop : Nat) : Except Fault String :=
  if start ≤ stop ∧ stop ≤ text.utf8ByteSize then
    if hstart : String.Pos.Raw.IsValid text ⟨start⟩ then
      if hstop : String.Pos.Raw.IsValid text ⟨stop⟩ then
        .ok (text.extract (text.pos ⟨start⟩ hstart) (text.pos ⟨stop⟩ hstop))
      else .error (.insideCharacter stop)
    else .error (.insideCharacter start)
  else .error (.outside stop)

theorem exists_ok_of_map_eq_ok {α β : Type} {x : Except Fault α} {f : α → β} {b : β}
    (h : x.map f = .ok b) : ∃ a, x = .ok a ∧ f a = b := by
  cases x with
  | error fault => cases h
  | ok a => exact ⟨a, rfl, Except.ok.inj h⟩

theorem exists_ok_of_bind_eq_ok {α β : Type} {x : Except Fault α} {f : α → Except Fault β} {b : β}
    (h : (x >>= f) = .ok b) : ∃ a, x = .ok a ∧ f a = .ok b := by
  cases x with
  | error fault => cases h
  | ok a => exact ⟨a, rfl, h⟩

theorem le_searchByte (p : UInt8 → Bool) {bytes : Array UInt8} {i : Nat} (hi : i ≤ bytes.size) :
    i ≤ searchByte p bytes i ∧ searchByte p bytes i ≤ bytes.size := by
  fun_induction searchByte p bytes i with
  | case1 i h hp => exact ⟨Nat.le_refl i, hi⟩
  | case2 i h hp ih =>
    have := ih h
    omega
  | case3 i h => exact ⟨hi, Nat.le_refl _⟩

theorem findByte_bounds {p : UInt8 → Bool} {bytes : Array UInt8} {start stop : Nat}
    (h : findByte p bytes start = .ok stop) : start ≤ stop ∧ stop ≤ bytes.size := by
  unfold findByte at h
  split at h
  · next hle =>
    rw [← Except.ok.inj h]
    exact le_searchByte p hle
  · cases h

theorem le_searchWord {word bytes : Array UInt8} {i : Nat} (hi : i ≤ bytes.size) :
    i ≤ searchWord word bytes i ∧ searchWord word bytes i ≤ bytes.size := by
  fun_induction searchWord word bytes i with
  | case1 i h hw =>
    have := congrArg Array.size hw
    rw [Array.size_extract] at this
    omega
  | case2 i h hw ih =>
    have := ih h
    omega
  | case3 i h => exact ⟨hi, Nat.le_refl _⟩

theorem findWord_bounds {word bytes : Array UInt8} {start stop : Nat}
    (h : findWord word bytes start = .ok stop) : start ≤ stop ∧ stop ≤ bytes.size := by
  unfold findWord at h
  split at h
  · next hle =>
    split at h
    · cases h
    · rw [← Except.ok.inj h]
      exact le_searchWord hle
  · cases h

end QueryMapping.Text
