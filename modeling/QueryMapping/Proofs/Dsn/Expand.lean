import Mathlib.Data.List.TakeWhile
import QueryMapping.Dsn.Resolve
import QueryMapping.Proofs.Failure

/-! References to variables. A text goes by complete references and other characters, and no
complete reference reaches into another one, whatever unfinished ones stand before it. -/

namespace QueryMapping.Dsn

variable {env : Environment} {c : Char} {as cs name rest : List Char} {text value : String}

/-! ### Text without references -/

theorem expandChars_nil : expandChars env [] = .ok [] := by rw [expandChars]

theorem expandChars_cons_of_ne (hc : c ≠ '$') (cs : List Char) :
    expandChars env (c :: cs) = (expandChars env cs).map (c :: ·) := by
  rw [expandChars]
  exact fun rest heq => absurd heq hc

theorem expandChars_append_of_plain (has : '$' ∉ as) (cs : List Char) :
    expandChars env (as ++ cs) = (expandChars env cs).map (as ++ ·) := by
  induction as with
  | nil => cases h : expandChars env cs <;> simp [Except.map, h]
  | cons a as ih =>
    obtain ⟨ha, has⟩ := List.ne_and_not_mem_of_not_mem_cons has
    rw [List.cons_append, expandChars_cons_of_ne ha.symm, ih has]
    cases expandChars env cs <;> rfl

theorem expandChars_of_plain (h : '$' ∉ cs) : expandChars env cs = .ok cs := by
  have happend : expandChars env (cs ++ []) = _ := expandChars_append_of_plain h []
  rw [List.append_nil, expandChars_nil] at happend
  rw [happend]
  exact congrArg Except.ok (List.append_nil cs)

/-! ### Complete references -/

structure IsVariable (name : List Char) : Prop where
  head : name.head?.any Text.isNameStart = true
  chars : ∀ c ∈ name, Text.isNameChar c = true

theorem IsVariable.reference?_append (h : IsVariable name) (rest : List Char) :
    reference? (name ++ '\x7d' :: rest) = some (name, rest) := by
  have hhead : (name ++ '\x7d' :: rest).head?.any Text.isNameStart = true := by
    have hname := h.head
    cases name with
    | nil => cases hname
    | cons c cs => exact hname
  have hbrace : ¬ Text.isNameChar '\x7d' = true := by decide
  rw [reference?, if_pos hhead, List.dropWhile_append_of_pos h.chars,
    List.takeWhile_append_of_pos h.chars, List.dropWhile_cons_of_neg hbrace,
    List.takeWhile_cons_of_neg hbrace, List.append_nil]
  rfl

theorem isVariable_of_reference? (h : reference? cs = some (name, rest)) :
    IsVariable name ∧ cs = name ++ '\x7d' :: rest := by
  unfold reference? at h
  split at h
  · next hhead =>
    split at h
    · next after hdrop =>
      obtain ⟨rfl, rfl⟩ := Prod.mk.inj (Option.some.inj h)
      refine ⟨⟨?_, fun c hc => List.mem_takeWhile_imp hc⟩, ?_⟩
      · cases cs with
        | nil => cases hhead
        | cons c cs =>
          rw [List.takeWhile_cons_of_pos (Text.isNameChar_of_isNameStart hhead)]
          exact hhead
      · rw [← hdrop, List.takeWhile_append_dropWhile]
    · cases h
  · cases h

def referenceChars (name : List Char) : List Char := '$' :: '\x7b' :: (name ++ ['\x7d'])

theorem referenceChars_append (name rest : List Char) :
    referenceChars name ++ rest = '$' :: '\x7b' :: (name ++ '\x7d' :: rest) := by
  simp [referenceChars]

def valueOf (env : Environment) (name : String) : Except String String :=
  (env name).elim (.error name) .ok

theorem valueOf_eq_error_iff {e name : String} :
    valueOf env name = .error e ↔ env name = none ∧ e = name := by
  unfold valueOf
  cases env name <;> simp [eq_comm]

theorem expandChars_referenceChars (h : IsVariable name) (rest : List Char) :
    expandChars env (referenceChars name ++ rest) =
      valueOf env (String.ofList name) >>= fun value =>
        (expandChars env rest).map (value.toList ++ ·) := by
  have hreference := h.reference?_append rest
  rw [referenceChars_append, expandChars, valueOf]
  split
  · next name' after heq =>
    rw [hreference] at heq
    obtain ⟨rfl, rfl⟩ := Prod.mk.inj (Option.some.inj heq)
    cases env (String.ofList name) <;> rfl
  · next heq =>
    rw [hreference] at heq
    cases heq

theorem expandChars_reference (h : IsVariable name) (hvalue : env (String.ofList name) = some value)
    (rest : List Char) : expandChars env ('$' :: '\x7b' :: (name ++ '\x7d' :: rest)) =
      (expandChars env rest).map (value.toList ++ ·) := by
  rw [← referenceChars_append, expandChars_referenceChars h, valueOf, hvalue]
  rfl

/-! ### Texts by references -/

def BeginsReference (cs : List Char) : Prop :=
  ∃ name rest, IsVariable name ∧ cs = referenceChars name ++ rest

theorem reference_induction {motive : List Char → Prop} (nil : motive [])
    (reference : ∀ name rest, IsVariable name → motive rest → motive (referenceChars name ++ rest))
    (char : ∀ c rest, ¬ BeginsReference (c :: rest) → motive rest → motive (c :: rest))
    (cs : List Char) :
    motive cs := by
  match cs with
  | [] => exact nil
  | c :: rest =>
    by_cases hc : BeginsReference (c :: rest)
    · obtain ⟨name, rest', hname, heq⟩ := hc
      have hlt : rest'.length < (c :: rest).length := by
        rw [heq, referenceChars_append]
        simp only [List.length_cons, List.length_append]
        omega
      rw [heq]
      exact reference name rest' hname (reference_induction nil reference char rest')
    · exact char c rest hc (reference_induction nil reference char rest)
termination_by cs.length
decreasing_by
  · exact hlt
  · exact Nat.lt_succ_self _

theorem expandChars_cons (hc : ¬ BeginsReference (c :: cs)) :
    expandChars env (c :: cs) = (expandChars env cs).map (c :: ·) := by
  by_cases hdollar : c = '$'
  · subst hdollar
    rw [expandChars.eq_def]
    split
    · next rest heq =>
      obtain rfl := (List.cons.inj heq).2
      split
      · next name after hreference =>
        obtain ⟨hname, rfl⟩ := isVariable_of_reference? hreference
        exact absurd ⟨name, after, hname, (referenceChars_append name after).symm⟩ hc
      · rw [expandChars_cons_of_ne (by decide)]
        cases expandChars env rest <;> rfl
    · next heq =>
      obtain ⟨rfl, rfl⟩ := List.cons.inj heq
      rfl
    · next heq => cases heq
  · exact expandChars_cons_of_ne hdollar cs

theorem beginsReference_of_append (has : as ≠ []) (h : BeginsReference (as ++ '$' :: rest)) :
    BeginsReference as := by
  obtain ⟨name, after, hname, heq⟩ := h
  rcases List.append_eq_append_iff.1 heq with ⟨tail, hreference, htail⟩ | ⟨tail, rfl, -⟩
  · cases tail with
    | nil => exact ⟨name, [], hname, by rw [hreference, List.append_nil, List.append_nil]⟩
    | cons t tail =>
      obtain ⟨rfl, -⟩ := List.cons.inj htail
      obtain ⟨a, as, rfl⟩ := List.exists_cons_of_ne_nil has
      have hmem : '$' ∈ '\x7b' :: (name ++ ['\x7d']) := by
        rw [referenceChars, List.cons_append] at hreference
        rw [(List.cons.inj hreference).2]
        exact List.mem_append_right _ List.mem_cons_self
      have hnot : '$' ∉ name := fun hdollar => absurd (hname.chars _ hdollar) (by decide)
      simp [hnot] at hmem
  · exact ⟨name, tail, hname, rfl⟩

theorem expandChars_append_dollar (as rest : List Char) : expandChars env (as ++ '$' :: rest) =
    expandChars env as >>= fun front => (expandChars env ('$' :: rest)).map (front ++ ·) := by
  induction as using reference_induction with
  | nil =>
    rw [List.nil_append, expandChars_nil]
    cases expandChars env ('$' :: rest) <;> rfl
  | reference name as hname ih =>
    rw [List.append_assoc, expandChars_referenceChars hname, expandChars_referenceChars hname, ih]
    cases valueOf env (String.ofList name) with
    | error e => rfl
    | ok value =>
      cases expandChars env as with
      | error e => rfl
      | ok front => cases expandChars env ('$' :: rest) <;> simp [bind, Except.bind, Except.map]
  | char c as hc ih =>
    have hc' : ¬ BeginsReference (c :: (as ++ '$' :: rest)) := fun h =>
      hc (beginsReference_of_append (List.cons_ne_nil c as) h)
    rw [List.cons_append, expandChars_cons hc', expandChars_cons hc, ih]
    cases expandChars env as with
    | error e => rfl
    | ok front => cases expandChars env ('$' :: rest) <;> simp [bind, Except.bind, Except.map]

theorem expandChars_append_reference (hname : IsVariable name) (as rest : List Char) :
    expandChars env (as ++ referenceChars name ++ rest) =
      expandChars env as >>= fun front => valueOf env (String.ofList name) >>= fun value =>
        (expandChars env rest).map (front ++ value.toList ++ ·) := by
  rw [List.append_assoc]
  refine (expandChars_append_dollar as _).trans ?_
  change (expandChars env as >>= fun front =>
    (expandChars env (referenceChars name ++ rest)).map _) = _
  rw [expandChars_referenceChars hname]
  cases expandChars env as with
  | error e => rfl
  | ok front =>
    cases valueOf env (String.ofList name) with
    | error e => rfl
    | ok value => cases expandChars env rest <;> simp [bind, Except.bind, Except.map]

/-! ### What a text refers to -/

def HasReference (cs name : List Char) : Prop := IsVariable name ∧ referenceChars name <:+: cs

theorem HasReference.cons (h : HasReference cs name) (c : Char) : HasReference (c :: cs) name :=
  ⟨h.1, List.infix_cons h.2⟩

theorem expandChars_of_no_reference (h : ∀ name, ¬ HasReference cs name) :
    expandChars env cs = .ok cs := by
  induction cs using reference_induction with
  | nil => exact expandChars_nil
  | reference name rest hname ih =>
    exact absurd ⟨hname, (List.prefix_append _ rest).isInfix⟩ (h name)
  | char c rest hc ih =>
    rw [expandChars_cons hc, ih fun name hname => h name (hname.cons c)]
    rfl

theorem exists_reference_of_error {e : String} (h : expandChars env cs = .error e) :
    ∃ name, HasReference cs name ∧ env (String.ofList name) = none := by
  induction cs using reference_induction with
  | nil =>
    rw [expandChars_nil] at h
    cases h
  | reference name rest hname ih =>
    rw [expandChars_referenceChars hname] at h
    rcases bind_eq_error_iff.1 h with h | ⟨value, -, h⟩
    · exact ⟨name, ⟨hname, (List.prefix_append _ rest).isInfix⟩, (valueOf_eq_error_iff.1 h).1⟩
    · obtain ⟨name', hname', hnone⟩ := ih (map_eq_error_iff.1 h)
      exact ⟨name', ⟨hname'.1, hname'.2.trans (List.suffix_append _ rest).isInfix⟩, hnone⟩
  | char c rest hc ih =>
    rw [expandChars_cons hc] at h
    obtain ⟨name, hname, hnone⟩ := ih (map_eq_error_iff.1 h)
    exact ⟨name, hname.cons c, hnone⟩

theorem expandChars_error_iff : (∃ e, expandChars env cs = .error e) ↔
    ∃ name, HasReference cs name ∧ env (String.ofList name) = none := by
  constructor
  · rintro ⟨e, h⟩
    exact exists_reference_of_error h
  · rintro ⟨name, ⟨hname, before, after, rfl⟩, hnone⟩
    have hvalue : valueOf env (String.ofList name) = .error (String.ofList name) :=
      valueOf_eq_error_iff.2 ⟨hnone, rfl⟩
    rw [expandChars_append_reference hname, hvalue]
    cases expandChars env before with
    | error e => exact ⟨e, rfl⟩
    | ok front => exact ⟨_, rfl⟩

/-! ### Whole texts -/

theorem expanded_of_no_reference (h : ∀ name, ¬ HasReference text.toList name) :
    expanded env text = .ok text := by
  rw [expanded, expand, expandChars_of_no_reference h]
  exact congrArg Except.ok String.ofList_toList

theorem expanded_append_reference {name : String} (hname : IsVariable name.toList) (s t : String) :
    expanded env (s ++ "$\x7b" ++ name ++ "\x7d" ++ t) = do
      let before ← expanded env s
      let value ← orFail (.unsetVariable name) (env name)
      let after ← expanded env t
      return before ++ value ++ after := by
  have htext : (s ++ "$\x7b" ++ name ++ "\x7d" ++ t).toList =
      s.toList ++ referenceChars name.toList ++ t.toList := by
    simp [referenceChars]
  unfold expanded expand
  rw [htext, expandChars_append_reference hname, String.ofList_toList, valueOf]
  cases expandChars env s.toList with
  | error e => rfl
  | ok before =>
    cases env name with
    | none => rfl
    | some value =>
      cases expandChars env t.toList with
      | error e => rfl
      | ok after =>
        simp [orFail, bind, Except.bind, Except.map, Except.mapError, pure, Except.pure,
          String.append_assoc]

theorem expanded_error_iff : (∃ e, expanded env text = .error e) ↔
    ∃ name : String, HasReference text.toList name.toList ∧ env name = none := by
  have hchars : (∃ e, expanded env text = .error e) ↔
      ∃ e, expandChars env text.toList = .error e := by
    unfold expanded expand
    cases expandChars env text.toList <;> simp [Except.map, Except.mapError]
  rw [hchars, expandChars_error_iff]
  constructor
  · rintro ⟨name, hname, hnone⟩
    exact ⟨String.ofList name, by rwa [String.toList_ofList], hnone⟩
  · rintro ⟨name, hname, hnone⟩
    exact ⟨name.toList, hname, by rwa [String.ofList_toList]⟩

theorem exists_expanded_iff : (∃ value, expanded env text = .ok value) ↔
    ∀ name : String, HasReference text.toList name.toList → (env name).isSome := by
  have hnot : (∃ value, expanded env text = .ok value) ↔ ¬ ∃ e, expanded env text = .error e := by
    cases expanded env text <;> simp
  rw [hnot, expanded_error_iff]
  simp [Option.isSome_iff_ne_none]

/-- Expanding replaces complete references, each on its own, by the values of their variables, which
are not expanded themselves. Other text stays. It fails just if a complete reference names a
variable that is not set. -/
theorem expanded_exact (env : Environment) :
    (∀ text : String, (∀ name, ¬ HasReference text.toList name) → expanded env text = .ok text) ∧
    (∀ s t name : String, IsVariable name.toList →
      expanded env (s ++ "$\x7b" ++ name ++ "\x7d" ++ t) = do
      let before ← expanded env s
      let value ← orFail (.unsetVariable name) (env name)
      let after ← expanded env t
      return before ++ value ++ after) ∧
    ∀ text : String, (∃ e, expanded env text = .error e) ↔
      ∃ name : String, HasReference text.toList name.toList ∧ env name = none :=
  ⟨fun _ h => expanded_of_no_reference h, fun s t _ h => expanded_append_reference h s t,
    fun _ => expanded_error_iff⟩

example : expanded (fun _ => some "$\x7bB\x7d") "$$\x7ba$\x7bA\x7d$\x7b1\x7d" =
    .ok "$$\x7ba$\x7bB\x7d$\x7b1\x7d" := by
  decide +kernel

end QueryMapping.Dsn
