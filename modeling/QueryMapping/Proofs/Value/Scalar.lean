import QueryMapping.Value.Scalar

/-! Scalars are read back from the values that they are written as. Besides these values, reading
accepts integers as Boolean values and the texts of a vendor's types, and nothing else. -/

namespace QueryMapping

theorem Value.isNull_iff {v : Value} :
    v.isNull = true ↔ v = .null ∨ ∃ name, v = .typed ⟨name, none⟩ := by
  cases v with
  | null => exact iff_of_true rfl (.inl rfl)
  | typed t =>
    obtain ⟨name, text⟩ := t
    cases text <;> simp [isNull]
  | _ => simp [isNull]

namespace Scalar

variable {s : Scalar} {v : Value} {n : Int64}

def isBasic : Scalar → Bool
  | .value | .optional _ => false
  | _ => true

/-- A value of one kind read as a scalar of another. -/
inductive Coerces : (s : Scalar) → Value → s.Carrier → Prop
  | bool (n : Int64) : Coerces .bool (.int n) (n != 0)
  | text (name text : String) : Coerces .text (.typed ⟨name, some text⟩) text

/-! ### Integers of 32 bits -/

theorem fitsInt32_iff : fitsInt32 n = true ↔ -Int.pow 2 31 ≤ n.toInt ∧ n.toInt < Int.pow 2 31 := by
  rw [show Int.pow 2 31 = 2147483648 from rfl]
  simp only [fitsInt32, Bool.and_eq_true, decide_eq_true_eq]
  omega

theorem fitsInt32_toInt64 (m : Int32) : fitsInt32 m.toInt64 = true := by
  rw [fitsInt32_iff, Int32.toInt_toInt64]
  exact ⟨m.le_toInt, m.toInt_lt⟩

theorem toInt_toInt32_of_fits (h : fitsInt32 n = true) : n.toInt32.toInt = n.toInt := by
  simp only [fitsInt32, Bool.and_eq_true, decide_eq_true_eq] at h
  rw [Int64.toInt_toInt32]
  exact Int.bmod_eq_of_le (by omega) (by omega)

theorem toInt64_toInt32_of_fits (h : fitsInt32 n = true) : n.toInt32.toInt64 = n := by
  rw [← Int64.toInt_inj, Int32.toInt_toInt64, toInt_toInt32_of_fits h]

theorem read_int32_eq_ok_iff {m : Int32} : read .int32 v = .ok m ↔
    ∃ n, read .int64 v = .ok n ∧ -Int.pow 2 31 ≤ n.toInt ∧ n.toInt < Int.pow 2 31 ∧
    m.toInt = n.toInt := by
  cases v with
  | int n =>
    cases hfits : fitsInt32 n with
    | true =>
      rw [show read .int32 (.int n) = .ok n.toInt32 from if_pos hfits]
      constructor
      · intro h
        obtain rfl := Except.ok.inj h
        obtain ⟨hlow, hhigh⟩ := fitsInt32_iff.1 hfits
        exact ⟨n, rfl, hlow, hhigh, toInt_toInt32_of_fits hfits⟩
      · rintro ⟨k, hk, -, -, hm⟩
        obtain rfl := Except.ok.inj hk
        rw [Int32.toInt_inj.1 (hm.trans (toInt_toInt32_of_fits hfits).symm)]
    | false =>
      rw [show read .int32 (.int n) = _ from if_neg (by simp [hfits])]
      refine iff_of_false nofun ?_
      rintro ⟨k, hk, hlow, hhigh, -⟩
      obtain rfl := Except.ok.inj hk
      exact Bool.false_ne_true (hfits.symm.trans (fitsInt32_iff.2 ⟨hlow, hhigh⟩))
  | _ => simp [read]

/-! ### Scalars that are not optional -/

theorem read_toValue (hs : s.isBasic = true) (a : s.Carrier) : s.read (s.toValue a) = .ok a := by
  cases s with
  | int32 =>
    have hback : Int64.toInt32 (Int32.toInt64 a) = a := Int32.toInt32_toInt64 a
    rw [toValue, read, if_pos (fitsInt32_toInt64 a), hback]
  | value | optional => cases hs
  | _ => rfl

theorem Coerces.read_eq {a : s.Carrier} (h : Coerces s v a) : s.read v = .ok a := by
  cases h <;> rfl

theorem eq_toValue_or_coerces (hs : s.isBasic = true) {a : s.Carrier} (h : s.read v = .ok a) :
    v = s.toValue a ∨ Coerces s v a := by
  cases s with
  | bool =>
    cases v with
    | bool b =>
      obtain rfl := Except.ok.inj h
      exact .inl rfl
    | int n =>
      obtain rfl := Except.ok.inj h
      exact .inr (.bool n)
    | _ => cases h
  | int32 =>
    cases v with
    | int n =>
      rw [read] at h
      split at h
      · next hfits =>
        obtain rfl := Except.ok.inj h
        exact .inl (congrArg Value.int (toInt64_toInt32_of_fits hfits).symm)
      · cases h
    | _ => cases h
  | text =>
    cases v with
    | text text =>
      obtain rfl := Except.ok.inj h
      exact .inl rfl
    | typed t =>
      obtain ⟨name, _ | text⟩ := t
      · cases h
      · obtain rfl := Except.ok.inj h
        exact .inr (.text name text)
    | _ => cases h
  | value | optional => cases hs
  | _ =>
    -- Each of the others is read from its own kind only.
    cases v <;> cases h
    exact .inl rfl

/-! ### Optional scalars -/

theorem read_optional_of_null (h : v.isNull = true) : (optional s).read v = .ok none := if_pos h

theorem read_optional_of_not_null (h : v.isNull = false) :
    (optional s).read v = (s.read v).map some :=
  if_neg (by simp [h])

theorem read_optional_eq_none_iff : (optional s).read v = .ok none ↔ v.isNull = true := by
  cases h : v.isNull with
  | true => exact iff_of_true (read_optional_of_null h) rfl
  | false =>
    rw [read_optional_of_not_null h]
    refine iff_of_false (fun hread => ?_) Bool.false_ne_true
    cases hs : s.read v <;> rw [hs] at hread <;> cases hread

theorem isNull_toValue (hs : s.isBasic = true) (htyped : s ≠ .typed) (a : s.Carrier) :
    (s.toValue a).isNull = false := by
  cases s with
  | typed => exact absurd rfl htyped
  | value | optional => cases hs
  | _ => rfl

theorem read_optional_toValue (hs : s.isBasic = true) (htyped : s ≠ .typed) (o : Option s.Carrier) :
    (optional s).read ((optional s).toValue o) = .ok o := by
  cases o with
  | none => rfl
  | some a =>
    rw [toValue, read_optional_of_not_null (isNull_toValue hs htyped a), read_toValue hs]
    rfl

theorem read_optional_typed_toValue (o : Option TypedValue) :
    (optional .typed).read ((optional .typed).toValue o) =
      .ok (o.filter fun t => t.text.isSome) := by
  cases o with
  | none => rfl
  | some t =>
    obtain ⟨name, _ | text⟩ := t <;> rfl

/-- What is written is read back, and what is read was written or is one of the coercions. -/
theorem reads_what_is_written :
    (∀ s : Scalar, s.isBasic = true →
      (∀ a, s.read (s.toValue a) = .ok a) ∧
        (∀ v a, s.read v = .ok a ↔ v = s.toValue a ∨ Coerces s v a) ∧
        (s ≠ .typed → ∀ o, (optional s).read ((optional s).toValue o) = .ok o) ∧
        ∀ v, ((optional s).read v = .ok none ↔ v = .null ∨ ∃ name, v = .typed ⟨name, none⟩) ∧
          ((optional s).read v ≠ .ok none → (optional s).read v = (s.read v).map some)) ∧
      (∀ o, (optional .typed).read ((optional .typed).toValue o) =
        .ok (o.filter fun t => t.text.isSome)) ∧
      ∀ v m, read .int32 v = .ok m ↔
        ∃ n, read .int64 v = .ok n ∧ -Int.pow 2 31 ≤ n.toInt ∧ n.toInt < Int.pow 2 31 ∧
        m.toInt = n.toInt := by
  refine ⟨fun s hs => ⟨read_toValue hs, fun v a => ⟨eq_toValue_or_coerces hs, ?_⟩,
    fun htyped => read_optional_toValue hs htyped, fun v => ⟨?_, fun hsome => ?_⟩⟩,
    read_optional_typed_toValue, fun v m => read_int32_eq_ok_iff⟩
  · rintro (rfl | h)
    · exact read_toValue hs a
    · exact h.read_eq
  · rw [read_optional_eq_none_iff, Value.isNull_iff]
  · rw [ne_eq, read_optional_eq_none_iff, Bool.not_eq_true] at hsome
    exact read_optional_of_not_null hsome

/-- The text of a document type is read as a text, and as absent if there is none. -/
theorem reads_document_text :
    isBasic .text = true ∧ read .text (.typed ⟨"jsonb", some "\x7b\x7d"⟩) = .ok "\x7b\x7d" ∧
      read (.optional .text) (.typed ⟨"jsonb", none⟩) = .ok none := by
  obtain ⟨-, hread, -, hoptional⟩ := reads_what_is_written.1 .text rfl
  exact ⟨rfl, (hread _ _).2 (.inr (.text _ _)), (hoptional _).1.2 (.inr ⟨_, rfl⟩)⟩

end Scalar

end QueryMapping
