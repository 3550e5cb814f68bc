import QueryMapping.Json.Valid

/-! The scan that checks a document's form, and the grammar of documents. What the scan accepts is
what the grammar derives. -/

namespace QueryMapping.Json

/-- The sequences of tokens that documents are made of: values, the items of an array and the
members of an object, each of them at least one. -/
inductive Phrase where
  | value
  | items
  | members

inductive Derives : Phrase → List Token → Prop where
  | null : Derives .value [.null]
  | bool (b : Bool) : Derives .value [.bool b]
  | number (n : NumberText) : Derives .value [.number n]
  | string (parts : List StringPart) : Derives .value [.string parts]
  | emptyArray : Derives .value [.openArray, .closeArray]
  | array {us : List Token} (h : Derives .items us) :
    Derives .value (.openArray :: us ++ [.closeArray])
  | emptyObject : Derives .value [.openObject, .closeObject]
  | object {us : List Token} (h : Derives .members us) :
    Derives .value (.openObject :: us ++ [.closeObject])
  | item {v : List Token} (h : Derives .value v) : Derives .items v
  | nextItem {us v : List Token} (h : Derives .items us) (hv : Derives .value v) :
    Derives .items (us ++ .comma :: v)
  | pair {v : List Token} (key : List StringPart) (h : Derives .value v) :
    Derives .members (.string key :: .colon :: v)
  | nextPair {us v : List Token} (key : List StringPart) (h : Derives .members us)
    (hv : Derives .value v) :
    Derives .members (us ++ .comma :: .string key :: .colon :: v)

inductive Begun (p : Phrase) : List Token → Prop where
  | nil : Begun p []
  | comma {us : List Token} (h : Derives p us) : Begun p (us ++ [.comma])

theorem Begun.item {us v : List Token} (h : Begun .items us) (hv : Derives .value v) :
    Derives .items (us ++ v) := by
  cases h with
  | nil => exact .item hv
  | comma h =>
    rw [List.append_assoc]
    exact .nextItem h hv

theorem Begun.pair {us v : List Token} (h : Begun .members us) (key : List StringPart)
    (hv : Derives .value v) : Derives .members (us ++ .string key :: .colon :: v) := by
  cases h with
  | nil => exact .pair key hv
  | comma h =>
    rw [List.append_assoc]
    exact .nextPair key h hv

/-- What has been read where a value comes next, within the containers that are open, the innermost
first. -/
inductive Before : List Container → List Token → Prop where
  | start : Before [] []
  | inArray {cs : List Container} {ts us : List Token} (h : Before cs ts) (hus : Begun .items us) :
    Before (.array :: cs) (ts ++ .openArray :: us)
  | inObject {cs : List Container} {ts us : List Token} (h : Before cs ts) (hus : Begun .members us)
    (key : List StringPart) :
      Before (.object :: cs) (ts ++ .openObject :: us ++ [.string key, .colon])

namespace Scan

inductive Reads : Scan → List Token → Prop where
  | value {cs : List Container} {ts : List Token} (h : Before cs ts) : Reads ⟨cs, .value⟩ ts
  | element {cs : List Container} {ts : List Token} (h : Before cs ts) :
    Reads ⟨.array :: cs, .element⟩ (ts ++ [.openArray])
  | member {cs : List Container} {ts : List Token} (h : Before cs ts) :
    Reads ⟨.object :: cs, .member⟩ (ts ++ [.openObject])
  | key {cs : List Container} {ts us : List Token} (h : Before cs ts) (hus : Derives .members us) :
    Reads ⟨.object :: cs, .key⟩ (ts ++ .openObject :: (us ++ [.comma]))
  | colon {cs : List Container} {ts us : List Token} (h : Before cs ts) (hus : Begun .members us)
    (key : List StringPart) :
      Reads ⟨.object :: cs, .colon⟩ (ts ++ .openObject :: us ++ [.string key])
  | document {ts : List Token} (h : Derives .value ts) : Reads ⟨[], .separator⟩ ts
  | items {cs : List Container} {ts us : List Token} (h : Before cs ts) (hus : Derives .items us) :
    Reads ⟨.array :: cs, .separator⟩ (ts ++ .openArray :: us)
  | members {cs : List Container} {ts us : List Token} (h : Before cs ts)
    (hus : Derives .members us) :
    Reads ⟨.object :: cs, .separator⟩ (ts ++ .openObject :: us)

variable {cs : List Container} {ts : List Token} {t : Token} {s s' : Scan}

theorem reads_of_value {v : List Token} (h : Before cs ts) (hv : Derives .value v) :
    Reads ⟨cs, .separator⟩ (ts ++ v) := by
  cases h with
  | start => exact .document hv
  | inArray h hus =>
    rw [List.append_assoc, List.cons_append]
    exact .items h (hus.item hv)
  | inObject h hus key =>
    rw [List.append_assoc, List.append_assoc, List.cons_append]
    exact .members h (hus.pair key hv)

theorem reads_of_value? (h : Before cs ts) {next : Expectation}
    (hstep : Scan.value? ⟨cs, next⟩ t = some s') : Reads s' (ts ++ [t]) := by
  cases t with
  | openArray =>
    cases hstep
    exact .element h
  | openObject =>
    cases hstep
    exact .member h
  | null =>
    cases hstep
    exact reads_of_value h .null
  | bool b =>
    cases hstep
    exact reads_of_value h (.bool b)
  | number n =>
    cases hstep
    exact reads_of_value h (.number n)
  | string parts =>
    cases hstep
    exact reads_of_value h (.string parts)
  | closeArray | closeObject | comma | colon => cases hstep

theorem step?_element : step? ⟨cs, .element⟩ t =
    if t = .closeArray then close? ⟨cs, .element⟩ else value? ⟨cs, .element⟩ t := rfl

theorem step?_colon : step? ⟨cs, .colon⟩ t = if t = .colon then some ⟨cs, .value⟩ else none := rfl

theorem reads_step (h : Reads s ts) (hstep : s.step? t = some s') : Reads s' (ts ++ [t]) := by
  -- A token that closes a container makes it a value, read within the containers around it.
  cases h with
  | value h => exact reads_of_value? h hstep
  | element h =>
    rw [step?_element] at hstep
    split at hstep
    · next ht =>
      cases ht
      cases hstep
      rw [List.append_assoc]
      exact reads_of_value h .emptyArray
    · exact reads_of_value? (.inArray h .nil) hstep
  | member h =>
    cases t with
    | closeObject =>
      cases hstep
      rw [List.append_assoc]
      exact reads_of_value h .emptyObject
    | string parts =>
      cases hstep
      exact .colon h .nil parts
    | openArray | openObject | closeArray | comma | colon | null | bool b | number n => cases hstep
  | key h hus =>
    cases t with
    | string parts =>
      cases hstep
      exact .colon h (.comma hus) parts
    | openArray | openObject | closeArray | closeObject | comma | colon | null | bool b
    | number n =>
      cases hstep
  | colon h hus key =>
    rw [step?_colon] at hstep
    split at hstep
    · next ht =>
      cases ht
      cases hstep
      rw [List.append_assoc]
      exact .value (.inObject h hus key)
    · cases hstep
  | document h => cases hstep
  | items h hus =>
    cases t with
    | comma =>
      cases hstep
      rw [List.append_assoc]
      exact .value (.inArray h (.comma hus))
    | closeArray =>
      cases hstep
      rw [List.append_assoc]
      exact reads_of_value h (.array hus)
    | openArray | openObject | closeObject | colon | null | bool b | number n
    | string parts => cases hstep
  | members h hus =>
    cases t with
    | comma =>
      cases hstep
      rw [List.append_assoc]
      exact .key h hus
    | closeObject =>
      cases hstep
      rw [List.append_assoc]
      exact reads_of_value h (.object hus)
    | openArray | openObject | closeArray | colon | null | bool b | number n
    | string parts => cases hstep

theorem reads_foldlM (h : Reads s ts) {us : List Token} (hrun : us.foldlM step? s = some s') :
    Reads s' (ts ++ us) := by
  induction us generalizing s ts with
  | nil =>
    cases hrun
    rwa [List.append_nil]
  | cons t us ih =>
    rw [List.foldlM_cons] at hrun
    obtain ⟨s₁, hstep, hrun⟩ := Option.bind_eq_some_iff.1 hrun
    rw [List.append_cons]
    exact ih (reads_step h hstep) hrun

end Scan

theorem Derives.exists_eq_cons {p : Phrase} {ts : List Token} (h : Derives p ts) :
    ∃ t us, ts = t :: us ∧ t ≠ .closeArray ∧ t ≠ .closeObject := by
  induction h with
  | null | bool b | number n | string parts | emptyArray | array h | emptyObject | object h
  | pair key h => exact ⟨_, _, rfl, nofun, nofun⟩
  | item h ih => exact ih
  | nextItem h hv ih | nextPair key h hv ih =>
    obtain ⟨t, us, rfl, ht⟩ := ih
    exact ⟨t, _, rfl, ht⟩

namespace Phrase

def expectation : Phrase → Expectation
  | value | items => .value
  | members => .key

def Within : Phrase → List Container → Prop
  | value, _ => True
  | items, cs => cs.head? = some .array
  | members, cs => cs.head? = some .object

end Phrase

namespace Scan

variable {cs : List Container}

-- A container's first part is read like the others, but for the token that would close it.
theorem foldlM_element {ts : List Token} {t : Token} (ht : t ≠ .closeArray) :
    (t :: ts).foldlM step? ⟨cs, .element⟩ = (t :: ts).foldlM step? ⟨cs, .value⟩ := by
  rw [List.foldlM_cons, List.foldlM_cons, step?_element, if_neg ht]
  rfl

theorem foldlM_member {ts : List Token} {t : Token} (ht : t ≠ .closeObject) :
    (t :: ts).foldlM step? ⟨cs, .member⟩ = (t :: ts).foldlM step? ⟨cs, .key⟩ := by
  rw [List.foldlM_cons, List.foldlM_cons]
  cases t with
  | closeObject => exact absurd rfl ht
  | openArray | openObject | closeArray | comma | colon | null | bool b | number n
  | string parts => rfl

theorem foldlM_append_of_eq {s s' : Scan} {ts : List Token} (h : ts.foldlM step? s = some s')
    (us : List Token) : (ts ++ us).foldlM step? s = us.foldlM step? s' := by
  rw [List.foldlM_append, h]
  rfl

theorem foldlM_of_derives {p : Phrase} {ts : List Token} (h : Derives p ts) (hcs : p.Within cs) :
    ts.foldlM step? ⟨cs, p.expectation⟩ = some ⟨cs, .separator⟩ := by
  induction h generalizing cs with
  | null | bool b | number n | string parts | emptyArray | emptyObject => rfl
  | array h ih =>
    obtain ⟨t, us, rfl, ht, -⟩ := h.exists_eq_cons
    have hin : Phrase.items.Within (.array :: cs) := rfl
    calc List.foldlM step? ⟨cs, .value⟩ (.openArray :: (t :: us) ++ [.closeArray])
        = List.foldlM step? ⟨.array :: cs, .element⟩ (t :: us ++ [.closeArray]) := rfl
      _ = List.foldlM step? ⟨.array :: cs, .value⟩ (t :: us ++ [.closeArray]) := foldlM_element ht
      _ = some ⟨cs, .separator⟩ := foldlM_append_of_eq (ih hin) [.closeArray]
  | object h ih =>
    obtain ⟨t, us, rfl, -, ht⟩ := h.exists_eq_cons
    have hin : Phrase.members.Within (.object :: cs) := rfl
    calc List.foldlM step? ⟨cs, .value⟩ (.openObject :: (t :: us) ++ [.closeObject])
        = List.foldlM step? ⟨.object :: cs, .member⟩ (t :: us ++ [.closeObject]) := rfl
      _ = List.foldlM step? ⟨.object :: cs, .key⟩ (t :: us ++ [.closeObject]) := foldlM_member ht
      _ = some ⟨cs, .separator⟩ := foldlM_append_of_eq (ih hin) [.closeObject]
  | item h ih => exact ih trivial
  | nextItem h hv ih ihv =>
    obtain ⟨outer, rfl⟩ := List.head?_eq_some_iff.1 hcs
    exact (foldlM_append_of_eq (ih hcs) _).trans (ihv trivial)
  | pair key h ih => exact ih trivial
  | nextPair key h hv ih ihv =>
    obtain ⟨outer, rfl⟩ := List.head?_eq_some_iff.1 hcs
    exact (foldlM_append_of_eq (ih hcs) _).trans (ihv trivial)

end Scan

/-- The texts that are valid are those that the grammar derives. -/
theorem isValid_iff {text : String} :
    isValid text = true ↔ ∃ ts, tokens? text.toList = some ts ∧ Derives .value ts := by
  unfold isValid
  cases tokens? text.toList with
  | none => simp
  | some ts =>
    simp only [Option.any_eq_true, Option.some.injEq, exists_eq_left']
    constructor
    · rintro ⟨s, hrun, hdone⟩
      obtain rfl : s = ⟨[], .separator⟩ := eq_of_beq hdone
      cases Scan.reads_foldlM (.value .start) hrun with
      | document h => exact h
    · intro h
      exact ⟨_, Scan.foldlM_of_derives h trivial, rfl⟩

end QueryMapping.Json
