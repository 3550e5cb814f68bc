import QueryMapping.Database.Query
import QueryMapping.Proofs.Failure

/-! When a statement can be sent, and with what. Its values are looked up in the order of its
placeholders, and then checked in the same order; the first that fails is reported. -/

namespace QueryMapping

namespace Value

def Bindable (v : Value) : Prop :=
  ∀ t text, v = .typed t → t.text = some text → t.isJson = true → Json.isValid text = true

/-- What a value is bound as: documents as such, without the white space around them, and what has
no type of its own to a driver as text. -/
def argument : Value → Argument
  | .null => .null
  | .bool b => .bool b
  | .int n => .int n
  | .float x => .float x
  | .text s => .text s
  | .bytes bs => .bytes bs
  | .typed ⟨_, none⟩ => .null
  | .typed ⟨name, some content⟩ =>
    let t : TypedValue := ⟨name, some content⟩
    if t.isJson then .document t.isBinary (Json.stripped content) else .text content

end Value

theorem boundValue_of_bindable {v : Value} (h : v.Bindable) : boundValue v = .ok v.argument := by
  cases v with
  | typed t =>
    obtain ⟨name, _ | text⟩ := t
    · rfl
    · by_cases hjson : TypedValue.isJson ⟨name, some text⟩ = true
      · simp [boundValue, Value.argument, hjson, h _ text rfl rfl hjson]
      · simp [boundValue, Value.argument, hjson]
  | _ => rfl

theorem boundValue_of_not_bindable {v : Value} (h : ¬ v.Bindable) :
    ∃ t, v = .typed t ∧ boundValue v = .error (.bind t.typeName) := by
  simp only [Value.Bindable, not_forall, Bool.not_eq_true] at h
  obtain ⟨t, text, rfl, htext, hjson, hvalid⟩ := h
  exact ⟨t, rfl, by simp [boundValue, htext, hjson, hvalid]⟩

theorem boundValue_eq_ok_iff {v : Value} {a : Argument} :
    boundValue v = .ok a ↔ v.Bindable ∧ v.argument = a := by
  by_cases h : v.Bindable
  · simp [boundValue_of_bindable h, h]
  · obtain ⟨t, -, herror⟩ := boundValue_of_not_bindable h
    simp [herror, h]

theorem boundValue_eq_error_iff {v : Value} {e : DatabaseError} :
    boundValue v = .error e ↔ ∃ t, v = .typed t ∧ ¬ v.Bindable ∧ .bind t.typeName = e := by
  by_cases h : v.Bindable
  · simp [boundValue_of_bindable h, h]
  · obtain ⟨t, rfl, herror⟩ := boundValue_of_not_bindable h
    simp [herror, h]

namespace NamedSql

def Supplied (s : NamedSql) (params : Params) (values : List Value) : Prop :=
  if s.names = [] then values = params.positional
  else List.Forall₂ (fun name v => params.get? name = some v) s.names values

def FirstMissing (s : NamedSql) (params : Params) (name : String) : Prop :=
  ∃ before after, s.names = before ++ name :: after ∧
    (∀ name' ∈ before, (params.get? name').isSome) ∧ params.get? name = none

variable {s : NamedSql} {params : Params}

theorem value_eq_ok_iff {name : String} {v : Value} :
    params.value name = .ok v ↔ params.get? name = some v := by
  unfold Params.value
  cases params.get? name <;> simp

theorem value_eq_error_iff {name name' : String} :
    params.value name = .error name' ↔ params.get? name = none ∧ name = name' := by
  unfold Params.value
  cases params.get? name <;> simp

theorem values_eq_ok_iff {values : List Value} :
    s.values params = .ok values ↔ s.Supplied params values := by
  unfold NamedSql.values Supplied
  by_cases h : s.names = []
  · simp [hasParameters, h, eq_comm]
  · simp [hasParameters, h, mapM_eq_ok_iff, value_eq_ok_iff]

theorem values_eq_error_iff {name : String} :
    s.values params = .error name ↔ s.FirstMissing params name := by
  unfold NamedSql.values FirstMissing
  by_cases h : s.names = []
  · simp [hasParameters, h]
  · simp [hasParameters, h, mapM_eq_error_iff, value_eq_ok_iff, value_eq_error_iff,
      Option.isSome_iff_exists]

end NamedSql

inductive Refused (sql : String) (params : Params) : DatabaseError → Prop where
  | missing {name : String} (h : (NamedSql.parse sql).FirstMissing params name) :
      Refused sql params (.missingParameter name)
  | unbindable {before after : List Value} {t : TypedValue}
      (hvalues : (NamedSql.parse sql).Supplied params (before ++ .typed t :: after))
      (hbefore : ∀ v ∈ before, v.Bindable) (ht : ¬ (Value.typed t).Bindable) :
      Refused sql params (.bind t.typeName)

inductive Ready (e : Engine) (sql : String) (params : Params) : PreparedStatement → Prop where
  | intro {values : List Value} (hvalues : (NamedSql.parse sql).Supplied params values)
      (hbindable : ∀ v ∈ values, v.Bindable) :
      Ready e sql params ⟨(NamedSql.parse sql).render e, values.map Value.argument⟩

variable {e : Engine} {sql : String} {params : Params}

theorem mapM_boundValue_eq_ok_iff {values : List Value} {arguments : List Argument} :
    values.mapM boundValue = .ok arguments ↔
      (∀ v ∈ values, v.Bindable) ∧ values.map Value.argument = arguments := by
  rw [mapM_eq_ok_iff]
  simp only [boundValue_eq_ok_iff, List.forall₂_and_left]
  rw [← List.forall₂_map_left_iff (R := Eq), List.forall₂_eq_eq_eq]

theorem prepare_eq_ok_iff {st : PreparedStatement} :
    prepare e sql params = .ok st ↔ Ready e sql params st := by
  simp only [prepare, bind_eq_ok_iff, mapError_eq_ok_iff, NamedSql.values_eq_ok_iff,
    mapM_boundValue_eq_ok_iff]
  constructor
  · rintro ⟨values, hvalues, _, ⟨hbindable, rfl⟩, h⟩
    obtain rfl := Except.ok.inj h
    exact .intro hvalues hbindable
  · rintro ⟨hvalues, hbindable⟩
    exact ⟨_, hvalues, _, ⟨hbindable, rfl⟩, rfl⟩

theorem prepare_eq_error_iff {err : DatabaseError} :
    prepare e sql params = .error err ↔ Refused sql params err := by
  simp only [prepare, bind_eq_error_iff, mapError_eq_ok_iff, mapError_eq_error_iff,
    NamedSql.values_eq_ok_iff, NamedSql.values_eq_error_iff, mapM_eq_error_iff,
    boundValue_eq_ok_iff,
    boundValue_eq_error_iff]
  constructor
  · rintro (⟨name, hname, rfl⟩ | ⟨_, hvalues,
      ⟨before, _, after, rfl, hbefore, t, rfl, ht, rfl⟩ | ⟨_, _, h⟩⟩)
    · exact .missing hname
    · exact .unbindable hvalues (fun v hv => (hbefore v hv).choose_spec.1) ht
    · cases h
  · rintro (⟨hname⟩ | ⟨hvalues, hbefore, ht⟩)
    · exact .inl ⟨_, hname, rfl⟩
    · exact .inr ⟨_, hvalues,
        .inl ⟨_, _, _, rfl, fun v hv => ⟨_, hbefore v hv, rfl⟩, _, rfl, ht, rfl⟩⟩

end QueryMapping
