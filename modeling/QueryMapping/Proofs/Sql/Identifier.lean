import Mathlib.Logic.Relation
import QueryMapping.Proofs.Sql.Parts
import QueryMapping.Proofs.Sql.Split
import QueryMapping.Sql.Engine

/-! An identifier between quotes is one token wherever it stands: the scans of statements and of
scripts go over it in one step, and the identifier can be read back from it. -/

namespace QueryMapping

namespace Engine

variable {quote : Char} {e : Engine} {cs ds : List Char}

theorem isQuote_identifierQuote (e : Engine) : Sql.Lexeme.isQuote e.identifierQuote = true := by
  cases e <;> decide

theorem doubled_cons_of_ne {c : Char} (hc : c ≠ quote) (cs : List Char) :
    doubled quote (c :: cs) = c :: doubled quote cs := if_neg hc

theorem doubled_cons_quote (quote : Char) (cs : List Char) :
    doubled quote (quote :: cs) = quote :: quote :: doubled quote cs := if_pos rfl

theorem isDoubled_doubled (quote : Char) (cs : List Char) :
    Sql.Lexeme.Doubled quote (doubled quote cs) := by
  induction cs with
  | nil => exact .nil
  | cons c cs ih =>
    by_cases hc : c = quote
    · subst hc
      rw [doubled_cons_quote]
      exact .pair ih
    · rw [doubled_cons_of_ne hc]
      exact .other hc ih

def undoubled? (quote : Char) : List Char → Option (List Char)
  | [] => some []
  | c :: cs =>
    if c = quote then
      match cs with
      | [] => none
      | d :: rest => if d = quote then (undoubled? quote rest).map (quote :: ·) else none
    else (undoubled? quote cs).map (c :: ·)

theorem undoubled?_cons_of_ne {c : Char} (hc : c ≠ quote) (cs : List Char) :
    undoubled? quote (c :: cs) = (undoubled? quote cs).map (c :: ·) := by
  cases cs <;> simp [undoubled?, hc]

theorem undoubled?_doubled (quote : Char) (cs : List Char) :
    undoubled? quote (doubled quote cs) = some cs := by
  induction cs with
  | nil => rfl
  | cons c cs ih =>
    by_cases hc : c = quote
    · subst hc
      simp [doubled_cons_quote, undoubled?, ih]
    · rw [doubled_cons_of_ne hc, undoubled?_cons_of_ne hc, ih]
      rfl

theorem eq_doubled_of_undoubled? (h : undoubled? quote ds = some cs) : ds = doubled quote cs := by
  fun_induction undoubled? quote ds generalizing cs with
  | case1 =>
    obtain rfl := Option.some.inj h
    rfl
  | case2 | case4 => cases h
  | case3 rest ih =>
    obtain ⟨cs, hcs, rfl⟩ := Option.map_eq_some_iff.1 h
    rw [doubled_cons_quote, ih hcs]
  | case5 c ds hc ih =>
    obtain ⟨cs, hcs, rfl⟩ := Option.map_eq_some_iff.1 h
    rw [doubled_cons_of_ne hc, ih hcs]

def identifier? (e : Engine) (token : String) : Option String :=
  match token.toList with
  | [] => none
  | c :: cs =>
    if c = e.identifierQuote ∧ cs.getLast? = some e.identifierQuote then
      (undoubled? e.identifierQuote cs.dropLast).map String.ofList
    else none

def quotedLexeme (e : Engine) (identifier : String) : Sql.Lexeme :=
  .quoted e.identifierQuote (doubled e.identifierQuote identifier.toList) true

theorem toList_quoteIdentifier (e : Engine) (identifier : String) :
    (e.quoteIdentifier identifier).toList = (e.quotedLexeme identifier).chars :=
  String.toList_ofList

theorem identifier?_eq_some_iff {token identifier : String} :
    e.identifier? token = some identifier ↔ token = e.quoteIdentifier identifier := by
  constructor
  · intro h
    unfold identifier? at h
    split at h
    · cases h
    · next c cs htoken =>
      obtain ⟨⟨rfl, hlast⟩, hinside⟩ := Option.ite_none_right_eq_some.1 h
      obtain ⟨name, hname, rfl⟩ := Option.map_eq_some_iff.1 hinside
      obtain ⟨inside, rfl⟩ := List.getLast?_eq_some_iff.1 hlast
      rw [List.dropLast_concat] at hname
      rw [← String.toList_inj, htoken, toList_quoteIdentifier, quotedLexeme, String.toList_ofList,
        eq_doubled_of_undoubled? hname]
      rfl
  · rintro rfl
    rw [identifier?, toList_quoteIdentifier]
    simp [quotedLexeme, Sql.Lexeme.chars, undoubled?_doubled]

end Engine

namespace Sql

open Text (At byte bytes encode)
open Lexeme

def PartsMove (bytes : Array UInt8) (i j : Nat) : Prop :=
  ∃ h step, parameterStep bytes i h = .ok step ∧ step.next = j

def StatementsMove (bytes : Array UInt8) (i j : Nat) : Prop :=
  ∃ h step, statementStep bytes i h = .ok step ∧ step.next i = j

def Visits (move : Nat → Nat → Prop) (i : Nat) : Prop := Relation.ReflTransGen move 0 i

/-- A loop that comes to `start` comes to `stop` next, and never to a position between them. -/
structure Leaps (move : Nat → Nat → Prop) (start stop : Nat) : Prop where
  next : ∀ j, move start j ↔ j = stop
  visits : Visits move start → Visits move stop
  between : Visits move start → ∀ i, Visits move i → i ≤ start ∨ stop ≤ i

section Leaps

variable {move : Nat → Nat → Prop} {start stop : Nat}

theorem le_of_moves (hlt : ∀ i j, move i j → i < j) {i j : Nat}
    (h : Relation.ReflTransGen move i j) :
    i ≤ j := by
  induction h with
  | refl => exact Nat.le_refl i
  | tail _ hmove ih => exact Nat.le_trans ih (Nat.le_of_lt (hlt _ _ hmove))

theorem leaps_of_move (hlt : ∀ i j, move i j → i < j) (hunique : Relator.RightUnique move)
    (hmove : move start stop) : Leaps move start stop where
  next j := ⟨fun h => hunique h hmove, fun h => h ▸ hmove⟩
  visits h := h.tail hmove
  between hstart i hi := by
    -- Of two positions that a loop comes to, one is on the way to the other.
    rcases Relation.ReflTransGen.total_of_right_unique hunique hi hstart with h | h
    · exact .inl (le_of_moves hlt h)
    · rcases Relation.ReflTransGen.cases_head h with rfl | ⟨j, hj, hrest⟩
      · exact .inl (Nat.le_refl _)
      · rw [hunique hj hmove] at hrest
        exact .inr (le_of_moves hlt hrest)

end Leaps

variable {bytes : Array UInt8} {i j : Nat}

theorem PartsMove.lt (h : PartsMove bytes i j) : i < j := by
  obtain ⟨_, step, hstep, rfl⟩ := h
  exact (parameterStep_bounds hstep).1

theorem partsMove_rightUnique (bytes : Array UInt8) : Relator.RightUnique (PartsMove bytes) := by
  rintro i _ _ ⟨_, step, hstep, rfl⟩ ⟨_, step', hstep', rfl⟩
  rw [Except.ok.inj (hstep.symm.trans hstep')]

theorem StatementsMove.lt (h : StatementsMove bytes i j) : i < j := by
  obtain ⟨_, step, hstep, rfl⟩ := h
  exact (statementStep_bounds hstep).1

theorem statementsMove_rightUnique (bytes : Array UInt8) :
    Relator.RightUnique (StatementsMove bytes) := by
  rintro i _ _ ⟨_, step, hstep, rfl⟩ ⟨_, step', hstep', rfl⟩
  rw [Except.ok.inj (hstep.symm.trans hstep')]

/-- The text from `start` to `stop` is one token. A scan that comes to its first byte goes on at
`stop` with what it has kept so far, and looks at nothing in between. -/
structure IsToken (text : String) (start stop : Nat) : Prop where
  quoted : pastQuoted (Text.bytes text) start = .ok stop
  parameterStep : ∃ h, Sql.parameterStep (Text.bytes text) start h = .ok (.skip stop)
  statementStep : ∃ h, Sql.statementStep (Text.bytes text) start h = .ok (.keep stop)
  partsFrom : ∀ textStart, Sql.partsFrom text (Text.bytes text) textStart start =
    Sql.partsFrom text (Text.bytes text) textStart stop
  statementsFrom : ∀ pending textStart,
    Sql.statementsFrom text (Text.bytes text) pending textStart start =
      Sql.statementsFrom text (Text.bytes text) pending textStart stop
  partsMove : Leaps (PartsMove (Text.bytes text)) start stop
  statementsMove : Leaps (StatementsMove (Text.bytes text)) start stop

theorem isToken_of_quoted {text : String} {before body rest : List Char} {quote : Char}
    (hl : Fits before.getLast? (.quoted quote body true) rest)
    (h : At text i before ((quoted quote body true).chars ++ rest)) :
    IsToken text i (i + (encode (quoted quote body true).chars).length) := by
  have hquote : isQuote quote = true := by
    cases hl
    assumption
  have hi := h.lt_size (List.append_ne_nil_of_left_ne_nil (chars_ne_nil _) rest)
  have hparameter := parameterStep_eq hl h (by simpa [chars] using toNat_lt_of_isQuote hquote) hi
  have hstatement := statementStep_eq hl h ⟨quote, rfl, by simp [opens, hquote]⟩ hi
  obtain ⟨stop, hstop, hend⟩ := pastQuoted_ends hquote h
  refine ⟨?_, ⟨hi, hparameter⟩, ⟨hi, hstatement⟩, fun _ => partsFrom_of_skip hi hparameter,
    fun _ _ => statementsFrom_of_keep hi hstatement, ?_, ?_⟩
  · rw [hstop, ← hend.position_eq hl rfl h]
  · exact leaps_of_move (fun _ _ => PartsMove.lt) (partsMove_rightUnique _) ⟨hi, _, hparameter, rfl⟩
  · exact leaps_of_move (fun _ _ => StatementsMove.lt) (statementsMove_rightUnique _)
      ⟨hi, _, hstatement, rfl⟩

end Sql

namespace Engine

open Sql (IsToken)

/-- Whatever stands before it, an identifier between quotes is one token unless another quote
follows it, and no other token stands for the identifier. -/
theorem quoteIdentifier_one_token (e : Engine) (identifier before after : String)
    (hafter : after.toList.head? ≠ some e.identifierQuote) :
    let token := e.quoteIdentifier identifier
    (∀ other, e.identifier? other = some identifier ↔ other = token) ∧
      IsToken (before ++ token ++ after) before.utf8ByteSize
        (before.utf8ByteSize + token.utf8ByteSize) := by
  intro token
  have htoken : token.toList = (e.quotedLexeme identifier).chars :=
    toList_quoteIdentifier e identifier
  have hfits : (e.quotedLexeme identifier).Fits before.toList.getLast? after.toList :=
    .quoted (isQuote_identifierQuote e) (isDoubled_doubled _ _) hafter
  have hat : Text.At (before ++ token ++ after) before.utf8ByteSize before.toList
      ((e.quotedLexeme identifier).chars ++ after.toList) := by
    refine ⟨?_, Text.utf8ByteSize_eq before⟩
    rw [String.toList_append, String.toList_append, htoken, List.append_assoc]
  refine ⟨fun other => identifier?_eq_some_iff, ?_⟩
  rw [Text.utf8ByteSize_eq token, htoken]
  exact Sql.isToken_of_quoted hfits hat

theorem quoteIdentifier_one_token_backtick :
    let before := "SELECT "
    let after := ", :p"
    let token := "\x60a\x60\x60é;--:b\x60\x60\x60"
    after.toList.head? ≠ some Engine.mysql.identifierQuote ∧
      Engine.mysql.quoteIdentifier "a\x60é;--:b\x60" = token ∧
      (∀ other, Engine.mysql.identifier? other = some "a\x60é;--:b\x60" ↔ other = token) ∧
      IsToken (before ++ token ++ after) before.utf8ByteSize
        (before.utf8ByteSize + token.utf8ByteSize) := by
  intro before after token
  have hafter : after.toList.head? ≠ some Engine.mysql.identifierQuote := by decide
  have htoken : Engine.mysql.quoteIdentifier "a\x60é;--:b\x60" = token := by decide
  refine ⟨hafter, htoken, ?_⟩
  rw [← htoken]
  exact quoteIdentifier_one_token .mysql "a\x60é;--:b\x60" before after hafter

end Engine

end QueryMapping
