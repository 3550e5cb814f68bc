import QueryMapping.Proofs.Database.Prepare
import QueryMapping.Proofs.Sql.Parameter

/-! A statement and its values as they are sent. The text around the parameters stays as it is, the
parameters become placeholders in their order, and the values come in the same order. -/

namespace QueryMapping

namespace Params

def bindAll (p : Params) (binds : List (String × Value)) : Params :=
  binds.foldl (fun p b => p.bind b.1 b.2) p

def LastBound (binds : List (String × Value)) (name : String) (v : Value) : Prop :=
  ∃ before after, binds = before ++ (name, v) :: after ∧ ∀ b ∈ after, b.1 ≠ name

variable {p : Params} {binds : List (String × Value)} {name other : String} {v w : Value}

theorem not_lastBound_nil : ¬ LastBound [] name v := by
  rintro ⟨before, after, h, -⟩
  simp at h

theorem lastBound_concat :
    LastBound (binds ++ [(other, w)]) name v ↔
      (other = name ∧ w = v) ∨ (other ≠ name ∧ LastBound binds name v) := by
  constructor
  · rintro ⟨before, after, heq, hafter⟩
    rcases List.eq_nil_or_concat after with rfl | ⟨after, last, rfl⟩
    · obtain ⟨-, hlast⟩ := List.append_inj' heq rfl
      obtain ⟨rfl, rfl⟩ := Prod.mk.inj (List.cons.inj hlast).1
      exact .inl ⟨rfl, rfl⟩
    · rw [List.concat_eq_append] at heq hafter
      obtain ⟨rfl, hlast⟩ : binds = before ++ (name, v) :: after ∧ [(other, w)] = [last] :=
        List.append_inj' (by simpa using heq) rfl
      obtain rfl := (List.cons.inj hlast).1
      exact .inr ⟨hafter (other, w) (by simp),
        before, after, rfl, fun b hb => hafter b (List.mem_append_left _ hb)⟩
  · rintro (⟨rfl, rfl⟩ | ⟨hne, before, after, rfl, hafter⟩)
    · exact ⟨binds, [], rfl, List.forall_mem_nil _⟩
    · refine ⟨before, after ++ [(other, w)], by simp, fun b hb => ?_⟩
      rcases List.mem_append.1 hb with hb | hb
      · exact hafter b hb
      · rw [List.mem_singleton.1 hb]
        exact hne

theorem bindAll_concat (p : Params) (binds : List (String × Value)) (b : String × Value) :
    p.bindAll (binds ++ [b]) = (p.bindAll binds).bind b.1 b.2 := by
  rw [bindAll, List.foldl_append]
  rfl

theorem get?_bind (p : Params) (name other : String) (v : Value) :
    (p.bind other v).get? name = if other = name then some v else p.get? name :=
  Table.get?_set p.named other name v

theorem positional_bindAll (p : Params) (binds : List (String × Value)) :
    (p.bindAll binds).positional = p.positional := by
  induction binds using List.reverseRecOn with
  | nil => rfl
  | append_singleton binds b ih => rw [bindAll_concat, ← ih, bind]

theorem get?_bindAll (values : List Value) :
    ((ofPositional values).bindAll binds).get? name = some v ↔ LastBound binds name v := by
  -- A later value replaces an earlier one, so the induction takes the last one off.
  induction binds using List.reverseRecOn with
  | nil => exact iff_of_false (by simp [bindAll, get?, ofPositional]) not_lastBound_nil
  | append_singleton binds b ih =>
    obtain ⟨other, w⟩ := b
    rw [bindAll_concat, get?_bind, lastBound_concat]
    by_cases h : other = name <;> simp [h, ih]

theorem get?_bindAll_eq_none (values : List Value) :
    ((ofPositional values).bindAll binds).get? name = none ↔ ¬ ∃ v, LastBound binds name v := by
  simp only [Option.eq_none_iff_forall_ne_some, Ne, get?_bindAll, not_exists]

end Params

namespace Sql

open Lexeme

structure Segment where
  name : String
  gap : List Char

def Segment.source (s : Segment) : List Char := ':' :: s.name.toList ++ s.gap

def Segment.rendered (e : Engine) (s : Segment × Nat) : List Char :=
  (e.placeholder s.2).toList ++ s.1.gap

theorem Segment.rendered_postgres (s : Segment × Nat) :
    Segment.rendered .postgres s = '$' :: Nat.toDigits 10 s.2 ++ s.1.gap := by
  rw [Segment.rendered, Engine.toList_placeholder_postgres]

theorem Segment.rendered_of_ne {e : Engine} (he : e ≠ .postgres) (s : Segment × Nat) :
    Segment.rendered e s = '?' :: s.1.gap := by
  rw [Segment.rendered, Engine.toList_placeholder_of_ne he, List.singleton_append]

def leading : List Lexeme → List Char
  | [] | .parameter _ :: _ => []
  | l :: ls => l.chars ++ leading ls

def segments : List Lexeme → List Segment
  | [] => []
  | .parameter name :: ls => ⟨String.ofList name, leading ls⟩ :: segments ls
  | _ :: ls => segments ls

theorem flatMap_segments (ls : List Lexeme) :
    leading ls ++ (segments ls).flatMap Segment.source = ls.flatMap chars := by
  fun_induction segments ls with
  | case1 => rfl
  | case2 name ls ih =>
    simp [leading, Segment.source, chars, ← ih]
  | case3 l ls hl ih => rw [leading, List.append_assoc, ih, List.flatMap_cons]; exact hl

theorem map_name_segments (ls : List Lexeme) :
    (segments ls).map Segment.name = ls.filterMap name? := by
  fun_induction segments ls with
  | case1 => rfl
  | case2 name ls ih => exact congrArg (String.ofList name :: ·) ih
  | case3 l ls hl ih =>
    rw [ih, List.filterMap_cons_none (name?_of_ne hl)]

theorem occursAfter_segments {before : List Char} {name : String} {ls : List Lexeme} :
    (∃ gap before', before = leading ls ++ before' ∧
        OccursAfter Segment.source before' ⟨name, gap⟩ (segments ls)) ↔
      OccursAfter chars before (.parameter name.toList) ls := by
  fun_induction segments ls generalizing before with
  | case1 => simp [not_occursAfter_nil]
  | case2 other ls ih =>
    have hother : Lexeme.parameter other = .parameter name.toList ↔ String.ofList other = name := by
      rw [Lexeme.parameter.injEq, ← String.toList_inj, String.toList_ofList]
    simp only [occursAfter_cons, ← ih, hother, leading, List.nil_append, Segment.mk.injEq,
      exists_eq_left', Segment.source, String.toList_ofList, chars, List.cons_append,
      List.append_assoc]
    constructor
    · rintro ⟨gap, (⟨⟨rfl, rfl⟩, rfl⟩ | ⟨before', rfl, h⟩)⟩
      · exact .inl ⟨rfl, rfl⟩
      · exact .inr ⟨_, rfl, gap, before', rfl, h⟩
    · rintro (⟨rfl, rfl⟩ | ⟨_, rfl, gap, before', rfl, h⟩)
      · exact ⟨leading ls, .inl ⟨⟨rfl, rfl⟩, rfl⟩⟩
      · exact ⟨gap, .inr ⟨before', rfl, h⟩⟩
  | case3 l ls hl ih =>
    have hne : l ≠ .parameter name.toList := hl _
    rw [occursAfter_cons]
    simp only [hne, false_and, false_or, ← ih, leading, List.append_assoc]
    constructor
    · rintro ⟨gap, before', rfl, h⟩
      exact ⟨_, rfl, gap, before', rfl, h⟩
    · rintro ⟨_, rfl, gap, before', rfl, h⟩
      exact ⟨gap, before', rfl, h⟩

theorem renderFrom_textPartOf (e : Engine) (index : Nat) (cs : List Char) (parts : List Part) :
    NamedSql.renderFrom e index (textPartOf cs ++ parts) =
      cs ++ NamedSql.renderFrom e index parts := by
  cases cs with
  | nil => rfl
  | cons c cs => simp [textPartOf, NamedSql.renderFrom]

theorem renderFrom_partsOf (e : Engine) (index : Nat) (pending : List Char) (ls : List Lexeme) :
    NamedSql.renderFrom e index (partsOf pending ls) =
      pending ++ (leading ls ++ ((segments ls).zipIdx index).flatMap (Segment.rendered e)) := by
  fun_induction partsOf pending ls generalizing index with
  | case1 pending =>
    rw [← List.append_nil (textPartOf pending), renderFrom_textPartOf]
    rfl
  | case2 pending name ls ih =>
    rw [renderFrom_textPartOf, NamedSql.renderFrom, ih]
    simp [leading, segments, Segment.rendered]
  | case3 pending l ls hl ih =>
    rw [ih, leading, segments, List.append_assoc, List.append_assoc] <;> exact hl

theorem toList_render (sql : String) (e : Engine) :
    ((NamedSql.parse sql).render e).toList =
      leading (scan sql.toList) ++
        ((segments (scan sql.toList)).zipIdx 1).flatMap (Segment.rendered e) := by
  rw [NamedSql.render, String.toList_ofList, parts_parse, renderFrom_partsOf, List.nil_append]

theorem toList_render_postgres (sql : String) :
    ((NamedSql.parse sql).render .postgres).toList =
      leading (scan sql.toList) ++ ((segments (scan sql.toList)).zipIdx 1).flatMap fun s =>
        '$' :: Nat.toDigits 10 s.2 ++ s.1.gap := by
  rw [toList_render, List.flatMap_congr fun s _ => Segment.rendered_postgres s]

theorem toList_render_of_ne (sql : String) {e : Engine} (he : e ≠ .postgres) :
    ((NamedSql.parse sql).render e).toList =
      leading (scan sql.toList) ++ (segments (scan sql.toList)).flatMap fun s => '?' :: s.gap := by
  have hgaps := List.flatMap_map Prod.fst (fun s : Segment => '?' :: s.gap)
    ((segments (scan sql.toList)).zipIdx 1)
  rw [toList_render, List.flatMap_congr fun s _ => Segment.rendered_of_ne he s, ← hgaps,
    List.zipIdx_map_fst]

end Sql

namespace NamedSql

open Sql Params

section Values

variable {s : NamedSql} {segments : List Segment} {values : List Value}
  {binds binds' : List (String × Value)}

theorem hasParameters_iff : s.hasParameters = true ↔ s.names ≠ [] := by simp [hasParameters]

theorem values_of_nil (h : s.names = []) (p : Params) : s.values p = .ok p.positional := by
  simp [NamedSql.values, hasParameters, h]

theorem values_of_ne_nil (h : s.names ≠ []) (p : Params) : s.values p = s.names.mapM p.value :=
  if_pos (hasParameters_iff.2 h)

/-- A value under a name that the statement does not have is of no use to it. -/
theorem values_bindAll_congr (positional : List Value)
    (h : ∀ name ∈ s.names, ∀ v, LastBound binds name v ↔ LastBound binds' name v) :
    s.values ((ofPositional positional).bindAll binds) =
      s.values ((ofPositional positional).bindAll binds') := by
  by_cases hnames : s.names = []
  · rw [values_of_nil hnames, values_of_nil hnames, positional_bindAll, positional_bindAll]
  · rw [values_of_ne_nil hnames, values_of_ne_nil hnames]
    refine mapM_congr fun name hname => ?_
    have hget : ((ofPositional positional).bindAll binds).get? name =
        ((ofPositional positional).bindAll binds').get? name :=
      Option.ext fun v => by rw [get?_bindAll, get?_bindAll, h name hname]
    rw [Params.value, Params.value, hget]

theorem values_eq_ok_iff_segments (positional : List Value)
    (hnames : s.names = segments.map Segment.name) (hne : segments ≠ []) :
    s.values ((ofPositional positional).bindAll binds) = .ok values ↔
      List.Forall₂ (fun segment v => LastBound binds segment.name v) segments values := by
  have hne : s.names ≠ [] := by simpa [hnames] using hne
  rw [values_of_ne_nil hne, hnames, mapM_eq_ok_iff, List.forall₂_map_left_iff]
  simp only [value_eq_ok_iff, get?_bindAll]

theorem exists_values_iff_segments (positional : List Value)
    (hnames : s.names = segments.map Segment.name) (hne : segments ≠ []) :
    (∃ values, s.values ((ofPositional positional).bindAll binds) = .ok values) ↔
      ∀ segment ∈ segments, ∃ v, LastBound binds segment.name v := by
  have hne : s.names ≠ [] := by simpa [hnames] using hne
  rw [values_of_ne_nil hne, hnames, exists_mapM_eq_ok_iff, List.forall_mem_map]
  simp only [value_eq_ok_iff, get?_bindAll]

theorem values_eq_error_iff_segments {name : String} (positional : List Value)
    (hnames : s.names = segments.map Segment.name) (hne : segments ≠ []) :
    s.values ((ofPositional positional).bindAll binds) = .error name ↔
      ∃ front segment back, segments = front ++ segment :: back ∧
        (∀ earlier ∈ front, ∃ v, LastBound binds earlier.name v) ∧
        (¬ ∃ v, LastBound binds segment.name v) ∧ segment.name = name := by
  have hne : s.names ≠ [] := by simpa [hnames] using hne
  rw [values_of_ne_nil hne, hnames, List.mapM_map, mapM_eq_error_iff]
  simp only [Function.comp_apply, value_eq_ok_iff, value_eq_error_iff, get?_bindAll,
    get?_bindAll_eq_none]

end Values

/-- The text is that of the segments at its parameters, and rendering puts `$` and its own number,
or a question mark, in the place of each parameter. The values are those bound last under the names,
in the same order, or the first name without one is reported. -/
theorem rendered_and_bound (sql : String) (e : Engine) (positional : List Value)
    (binds : List (String × Value)) :
    let params := (ofPositional positional).bindAll binds
    let bound := ((parse sql).values params).mapError DatabaseError.missingParameter
    ∃ ls start segments,
      (∀ ls', Lexed none sql.toList ls' ↔ ls' = ls) ∧
      (∀ before name,
        (∃ gap before', before = start ++ before' ∧
          OccursAfter Segment.source before' ⟨name, gap⟩ segments) ↔
        ∃ after, sql.toList = before ++ ':' :: after ∧ Names ls before name.toList after) ∧
      sql.toList = start ++ segments.flatMap Segment.source ∧
      (e = .postgres → ((parse sql).render e).toList =
        start ++ (segments.zipIdx 1).flatMap fun s => '$' :: Nat.toDigits 10 s.2 ++ s.1.gap) ∧
      (e ≠ .postgres → ((parse sql).render e).toList =
        start ++ segments.flatMap fun s => '?' :: s.gap) ∧
      (segments = [] → bound = .ok positional) ∧
      (segments ≠ [] →
        ((∃ values, bound = .ok values) ↔
          ∀ segment ∈ segments, ∃ v, LastBound binds segment.name v) ∧
        (∀ values, bound = .ok values ↔
          List.Forall₂ (fun segment v => LastBound binds segment.name v) segments values) ∧
        ∀ err, bound = .error err ↔ ∃ front segment back, segments = front ++ segment :: back ∧
          (∀ earlier ∈ front, ∃ v, LastBound binds earlier.name v) ∧
          (¬ ∃ v, LastBound binds segment.name v) ∧ err = .missingParameter segment.name) ∧
      ∀ binds', (∀ segment ∈ segments, ∀ v,
          LastBound binds segment.name v ↔ LastBound binds' segment.name v) →
        (parse sql).values params =
          (parse sql).values ((ofPositional positional).bindAll binds') := by
  intro params bound
  have hlexed := lexed_scan sql.toList
  have hnames : (parse sql).names = (segments (scan sql.toList)).map Segment.name := by
    rw [names_parse, map_name_segments]
  refine ⟨scan sql.toList, leading (scan sql.toList), segments (scan sql.toList),
    fun ls' => lexed_iff.trans eq_comm, fun before name => ?_, ?_,
    fun he => he ▸ toList_render_postgres sql, toList_render_of_ne sql, fun hnil => ?_,
    fun hne => ⟨?_, fun values => ?_, fun err => ?_⟩, fun binds' h => ?_⟩
  · rw [occursAfter_segments, occursAfter_iff_names hlexed]
  · rw [flatMap_segments, hlexed.chars_eq]
  · have hnone : (parse sql).names = [] := by rw [hnames, hnil, List.map_nil]
    exact mapError_eq_ok_iff.2 ((values_of_nil hnone params).trans
      (congrArg Except.ok (positional_bindAll (ofPositional positional) binds)))
  · simp only [bound, mapError_eq_ok_iff]
    exact exists_values_iff_segments positional hnames hne
  · exact mapError_eq_ok_iff.trans (values_eq_ok_iff_segments positional hnames hne)
  · simp only [bound, mapError_eq_error_iff]
    simp only [params, values_eq_error_iff_segments positional hnames hne]
    constructor
    · rintro ⟨_, ⟨front, segment, back, heq, hfront, hmissing, rfl⟩, rfl⟩
      exact ⟨front, segment, back, heq, hfront, hmissing, rfl⟩
    · rintro ⟨front, segment, back, heq, hfront, hmissing, rfl⟩
      exact ⟨_, ⟨front, segment, back, heq, hfront, hmissing, rfl⟩, rfl⟩
  · refine values_bindAll_congr positional ?_
    rw [hnames]
    exact List.forall_mem_map.2 h

end NamedSql

end QueryMapping
