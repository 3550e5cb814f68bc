import QueryMapping.Text.Ascii

/-! References to environment variables, written `${NAME}`. Complete references are replaced from
left to right by the variables' values, which are not looked at again; all other text stays. -/

namespace QueryMapping

abbrev Environment := String → Option String

namespace Dsn

/-- The name of a reference whose opening has been read, and what follows its closing brace. -/
def reference? (cs : List Char) : Option (List Char × List Char) :=
  if cs.head?.any Text.isNameStart then
    match cs.dropWhile Text.isNameChar with
    | '\x7d' :: rest => some (cs.takeWhile Text.isNameChar, rest)
    | _ => none
  else none

theorem reference?_length {cs : List Char} {r : List Char × List Char}
    (h : reference? cs = some r) :
    r.2.length < cs.length := by
  unfold reference? at h
  split at h
  · split at h
    · next heq =>
      have := (List.dropWhile_suffix Text.isNameChar (l := cs)).length_le
      rw [heq] at this
      rw [← Option.some.inj h]
      simp only [List.length_cons] at this
      exact this
    · simp at h
  · simp at h

/-- The failure is the name of a variable that is not set. -/
def expandChars (env : Environment) (cs : List Char) : Except String (List Char) :=
  match cs with
  | '$' :: '\x7b' :: rest =>
    match _h : reference? rest with
    | some (name, after) =>
      match env (String.ofList name) with
      | none => .error (String.ofList name)
      | some value => (expandChars env after).map (value.toList ++ ·)
    | none => (expandChars env rest).map ('$' :: '\x7b' :: ·)
  | c :: rest => (expandChars env rest).map (c :: ·)
  | [] => .ok []
termination_by cs.length
decreasing_by
  · exact Nat.lt_trans (reference?_length _h)
      (Nat.lt_trans (Nat.lt_succ_self _) (Nat.lt_succ_self _))
  · exact Nat.lt_trans (Nat.lt_succ_self _) (Nat.lt_succ_self _)
  · exact Nat.lt_succ_self _

def expand (env : Environment) (text : String) : Except String String :=
  (expandChars env text.toList).map String.ofList

end Dsn

end QueryMapping
