import QueryMapping.Proofs.Sql.Skip
import QueryMapping.Sql.Statement

/-! The statements of a script are those that its lexemes give. Casts and parameters mean nothing to
a script, so the loop goes through them one byte at a time. -/

namespace QueryMapping.Sql

open Text (At byte bytes encode)
open Lexeme

variable {text : String} {i : Nat} {before after rest : List Char} {c : Char} {l : Lexeme}

def opens (c : Char) : Bool := isQuote c || c == '$' || c == '-' || c == '/' || c == ';'

def opensByte (b : UInt8) : Bool :=
  isQuoteByte b || b == byte '$' || b == byte '-' || b == byte '/' || b == byte ';'

theorem opensByte_of_mem {b : UInt8} (hb : b ∈ String.utf8EncodeChar c) :
    opensByte b = opens c := by
  have hbeq : ∀ d : Char, d.toNat < 128 → (b == byte d) = (c == d) := fun d hd =>
    Text.beq_byte_of_mem hd hb
  simp only [opensByte, opens, isQuoteByte_of_mem hb, hbeq '$' (by decide), hbeq '-' (by decide),
    hbeq '/' (by decide), hbeq ';' (by decide)]

theorem toNat_lt_of_opens (h : opens c = true) : c.toNat < 128 := by
  simp only [opens, Bool.or_eq_true, beq_iff_eq] at h
  rcases h with (((h | rfl) | rfl) | rfl) | rfl
  · exact toNat_lt_of_isQuote h
  all_goals decide

theorem opens_of_isNameChar (h : Text.isNameChar c = true) : opens c = false := by
  rw [← Bool.not_eq_true]
  intro hopens
  simp only [opens, isQuote, Bool.or_eq_true, beq_iff_eq] at hopens
  rcases hopens with (((((rfl | rfl) | rfl) | rfl) | rfl) | rfl) | rfl <;>
    exact absurd h (by decide)

theorem statementStep_of_not_opens {bytes : Array UInt8} {b : UInt8} (hb : bytes[i]? = some b)
    (hopens : opensByte b = false) (hi : i < bytes.size) :
    Sql.statementStep bytes i hi = .ok (.keep (i + 1)) := by
  have hb : bytes[i] = b := (Array.getElem?_eq_some_iff.1 hb).2
  simp only [opensByte, Bool.or_eq_false_iff, beq_eq_false_iff_ne] at hopens
  simp [Sql.statementStep, hb, hopens]

def Lexeme.statementStep (stop : Nat) : Lexeme → StatementStep
  | .lineComment _ => .comment "" stop
  | .blockComment _ _ => .comment " " stop
  | .semicolon => .finish
  | _ => .keep stop

theorem exists_statementStep (hc : c.toNat < 128) (hcolon : c ≠ ':')
    (h : At text i before (c :: after)) (hi : i < (bytes text).size) :
    ∃ j, Sql.statementStep (bytes text) i hi =
        .ok ((first before.getLast? c after).1.statementStep j) ∧ Ends text before c after j := by
  have hb : (bytes text)[i] = byte c := (Array.getElem?_eq_some_iff.1 (h.getElem?_of_lt hc)).2
  have hnext := h.next_ascii hc
  have hdash := hnext.getElem?_eq_some_byte (d := '-') (by decide)
  have hstar := hnext.getElem?_eq_some_byte (d := '*') (by decide)
  unfold Sql.statementStep
  simp only [hb, isQuoteByte_byte hc, Text.byte_inj hc (d := '-') (by decide),
    Text.byte_inj hc (d := '/') (by decide), Text.byte_inj hc (d := '$') (by decide),
    Text.byte_inj hc (d := ';') (by decide), hdash, hstar]
  cases opening c after with
  | quote hquote =>
    obtain ⟨j, hj, hend⟩ := pastQuoted_ends hquote h
    refine ⟨j, ?_, hend⟩
    rw [if_pos hquote, hj, first_quote hquote]
    rfl
  | dashes =>
    obtain ⟨j, hj, hend⟩ := pastLineComment_ends h
    exact ⟨j, by rw [hj]; rfl, hend⟩
  | slashStar =>
    obtain ⟨j, hj, hend⟩ := pastBlockComment_ends h
    exact ⟨j, by rw [hj]; rfl, hend⟩
  | dollar =>
    obtain ⟨found, hj, hend⟩ := pastDollarBody_ends h
    refine ⟨found.getD (i + 1), ?_, hend⟩
    rw [if_neg (by decide), if_pos rfl, hj, first_dollar, dollar]
    cases tag? before.getLast? after <;> rfl
  | colon => exact absurd rfl hcolon
  | semicolon => exact ⟨i + 1, rfl, hnext⟩
  | other hquote hdashes hslashStar hdollar hcolon hsemicolon =>
    refine ⟨i + 1, ?_, ?_⟩
    · rw [if_neg (by simp [hquote]), if_neg hdollar, if_neg hdashes, if_neg hslashStar,
        if_neg hsemicolon, first_other hquote hdashes hslashStar hdollar hcolon hsemicolon]
      rfl
    · rw [Ends, first_other hquote hdashes hslashStar hdollar hcolon hsemicolon]
      exact hnext

theorem statementStep_eq (hl : l.Fits before.getLast? rest) (h : At text i before (l.chars ++ rest))
    (hc : ∃ c ∈ l.chars.head?, opens c = true) (hi : i < (bytes text).size) :
    Sql.statementStep (bytes text) i hi =
      .ok (l.statementStep (i + (encode l.chars).length)) := by
  obtain ⟨c, hhead, hopens⟩ := hc
  obtain ⟨cs, hcs⟩ := List.head?_eq_some_iff.1 hhead
  have happ : l.chars ++ rest = c :: (cs ++ rest) := by rw [hcs, List.cons_append]
  have hcolon : c ≠ ':' := by
    rintro rfl
    cases hopens
  obtain ⟨j, hj, hend⟩ := exists_statementStep (toNat_lt_of_opens hopens) hcolon (happ ▸ h) hi
  rw [hj, hl.first_eq happ, hend.position_eq hl happ h]

section Step

variable {script : String} {bytes : Array UInt8} {pending : String} {start next : Nat}

theorem statementsFrom_of_keep (hi : i < bytes.size)
    (hstep : Sql.statementStep bytes i hi = .ok (.keep next)) :
    statementsFrom script bytes pending start i =
      statementsFrom script bytes pending start next := by
  rw [statementsFrom, dif_pos hi]
  split <;> simp_all

theorem statementsFrom_of_comment {gap : String} (hi : i < bytes.size)
    (hstep : Sql.statementStep bytes i hi = .ok (.comment gap next)) :
    statementsFrom script bytes pending start i = Text.cut script start i >>= fun text =>
      statementsFrom script bytes (pending ++ text ++ gap) next next := by
  rw [statementsFrom, dif_pos hi]
  split <;> simp_all

theorem statementsFrom_of_finish (hi : i < bytes.size)
    (hstep : Sql.statementStep bytes i hi = .ok .finish) :
    statementsFrom script bytes pending start i = do
      let text ← Text.cut script start i
      let rest ← statementsFrom script bytes "" (i + 1) (i + 1)
      return finished (pending ++ text) ++ rest := by
  rw [statementsFrom, dif_pos hi]
  split <;> simp_all

theorem statementsFrom_end (hi : i = bytes.size) :
    statementsFrom script bytes pending start i = do
      let text ← Text.cut script start i
      return finished (pending ++ text) := by
  rw [statementsFrom, dif_neg (Nat.not_lt.2 (Nat.le_of_eq hi.symm)), hi]

end Step

theorem not_opens_of_head {prev : Option Char} (hl : l.Fits prev rest)
    (hhead : ∀ c ∈ l.chars.head?, opens c = false) : ∀ c ∈ l.chars, opens c = false := by
  have hquoted : ∀ quote, isQuote quote = true → opens quote = true := by
    intro quote hquote
    simp [opens, hquote]
  cases hl with
  | quoted hquote | openQuoted hquote =>
    have hopens := hhead _ (by rw [chars]; rfl)
    rw [hquoted _ hquote] at hopens
    cases hopens
  | cast => simpa [chars] using hhead
  | parameter _ hname _ =>
    intro c hc
    rcases List.mem_cons.1 hc with rfl | hc
    · rfl
    · exact opens_of_isNameChar (hname c hc)
  | char => simpa [chars] using hhead
  | _ =>
    have hopens := hhead _ (by rw [chars]; rfl)
    cases hopens

theorem statementsFrom_keep (hl : l.Fits before.getLast? rest)
    (h : At text i before (l.chars ++ rest))
    (hkeep : ∀ stop, l.statementStep stop = .keep stop) (pending : String) (start : Nat) :
    statementsFrom text (bytes text) pending start i =
      statementsFrom text (bytes text) pending start (i + (encode l.chars).length) := by
  -- A lexeme that opens with a special byte is passed in one step, any other byte by byte.
  by_cases hopens : ∃ c ∈ l.chars.head?, opens c = true
  · have hi := h.lt_size (List.append_ne_nil_of_left_ne_nil l.chars_ne_nil rest)
    refine statementsFrom_of_keep hi ((statementStep_eq hl h hopens hi).trans ?_)
    rw [hkeep]
  · have hall := not_opens_of_head hl fun c hc => by
      rw [← Bool.not_eq_true]
      exact fun h => hopens ⟨c, hc, h⟩
    refine h.across (fun j b hb hpass => statementsFrom_of_keep (Array.getElem?_eq_some_iff.1 hb).1
      (statementStep_of_not_opens hb hpass _)) fun b hb => ?_
    obtain ⟨c, hc, hb⟩ := List.mem_flatMap.1 hb
    exact (opensByte_of_mem hb).trans (hall c hc)

section Cut

variable {between : List Char} {start : Nat}

theorem statementsFrom_comment {gap : String} (hl : l.Fits (before ++ between).getLast? rest)
    (hstart : At text start before (between ++ (l.chars ++ rest)))
    (hi : At text i (before ++ between) (l.chars ++ rest))
    (hopens : ∃ c ∈ l.chars.head?, opens c = true)
    (hstep : ∀ stop, l.statementStep stop = .comment gap stop) (pending : String) :
    statementsFrom text (bytes text) pending start i =
      statementsFrom text (bytes text) (pending ++ String.ofList between ++ gap)
        (i + (encode l.chars).length) (i + (encode l.chars).length) := by
  have hlt := hi.lt_size (List.append_ne_nil_of_left_ne_nil l.chars_ne_nil rest)
  have hpos := hstart.advance.position_unique hi
  rw [statementsFrom_of_comment hlt ((statementStep_eq hl hi hopens hlt).trans (by rw [hstep])),
    ← hpos, hstart.cut]
  rfl

theorem statementsFrom_semicolon (hl : Fits (before ++ between).getLast? .semicolon rest)
    (hstart : At text start before (between ++ ';' :: rest))
    (hi : At text i (before ++ between) (';' :: rest)) (pending : String) :
    statementsFrom text (bytes text) pending start i =
      (statementsFrom text (bytes text) "" (i + 1) (i + 1)).map
        (finished (pending ++ String.ofList between) ++ ·) := by
  have hlt := hi.lt_size (List.cons_ne_nil _ _)
  have hpos := hstart.advance.position_unique hi
  have hstep := statementStep_eq hl hi ⟨';', rfl, rfl⟩ hlt
  rw [statementsFrom_of_finish hlt hstep, ← hpos, hstart.cut]
  cases statementsFrom text (bytes text) "" (start + (encode between).length + 1)
    (start + (encode between).length + 1) <;> rfl

end Cut

namespace Lexeme

/-- What is left of a lexeme in a statement: nothing of a line comment, a space of a block
comment. -/
def written : Lexeme → List Char
  | .lineComment _ => []
  | .blockComment _ _ => [' ']
  | l => l.chars

end Lexeme

def statementsAfter (pending : List Char) : List Lexeme → List String
  | [] => finished (String.ofList pending)
  | .semicolon :: ls => finished (String.ofList pending) ++ statementsAfter [] ls
  | l :: ls => statementsAfter (pending ++ l.written) ls

theorem statementsFrom_eq {script : String} {start i : Nat} {before between after : List Char}
    {ls : List Lexeme} (pending : List Char) (hls : Lexed (before ++ between).getLast? after ls)
    (hstart : At script start before (between ++ after))
    (hi : At script i (before ++ between) after) :
    statementsFrom script (bytes script) (String.ofList pending) start i =
      .ok (statementsAfter (pending ++ between) ls) := by
  -- `between` is the text since `start`, and `pending` is what is kept of the statement before it.
  generalize hprev : (before ++ between).getLast? = prev at hls
  induction hls generalizing start i before between pending with
  | nil =>
    have hpos := hstart.advance.position_unique hi
    rw [statementsFrom_end hi.position_of_nil, ← hpos, hstart.cut, statementsAfter,
      String.ofList_append]
    rfl
  | @cons prev l rest ls hl hls ih =>
    subst hprev
    -- Behind a comment or a semicolon the text is taken from the next lexeme on, and behind any
    -- other lexeme from where it was taken before.
    have hfresh : ∀ fresh next, At script next (before ++ between ++ l.chars) rest →
        statementsFrom script (bytes script) (String.ofList fresh) next next =
          .ok (statementsAfter fresh ls) := by
      intro fresh next hnext
      have h := @ih next next (before ++ between ++ l.chars) [] fresh hnext (by simpa using hnext)
        (by rw [List.append_nil, getLast?_append_chars])
      rwa [List.append_nil] at h
    have hkeep : (∀ stop, l.statementStep stop = .keep stop) →
        statementsFrom script (bytes script) (String.ofList pending) start i =
          .ok (statementsAfter (pending ++ between ++ l.chars) ls) := by
      intro hstep
      rw [statementsFrom_keep hl hi hstep, List.append_assoc]
      refine @ih start _ before (between ++ l.chars) pending ?_ ?_ ?_
      · rwa [List.append_assoc]
      · rw [← List.append_assoc]
        exact hi.advance
      · rw [← List.append_assoc, getLast?_append_chars]
    cases l with
    | lineComment body =>
      rw [statementsFrom_comment hl hstart hi ⟨'-', rfl, rfl⟩ fun _ => rfl, statementsAfter]
      · rw [← String.ofList_append, String.append_empty, hfresh _ _ hi.advance, written,
          List.append_nil]
      · exact nofun
    | blockComment body closed =>
      rw [statementsFrom_comment hl hstart hi ⟨'/', rfl, rfl⟩ fun _ => rfl, statementsAfter]
      · have hspace : " " = String.ofList [' '] := rfl
        rw [hspace, ← String.ofList_append, ← String.ofList_append, hfresh _ _ hi.advance]
        rfl
      · exact nofun
    | semicolon =>
      rw [statementsFrom_semicolon hl hstart hi, ← String.ofList_append, statementsAfter]
      have hrest := hfresh [] (i + 1) (hi.next_ascii (by decide))
      rw [String.ofList_nil] at hrest
      rw [hrest]
      rfl
    | _ =>
      rw [hkeep fun _ => rfl, statementsAfter]
      · rfl
      · exact nofun

theorem scanStatements_eq (script : String) :
    scanStatements script = .ok (statementsAfter [] (scan script.toList)) :=
  @statementsFrom_eq script 0 0 [] [] script.toList _ [] (lexed_scan script.toList)
    (At.start script)
    (At.start script)

end QueryMapping.Sql
