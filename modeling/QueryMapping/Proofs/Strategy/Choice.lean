import QueryMapping.Proofs.Failure
import QueryMapping.Proofs.Strategy.Registration
import QueryMapping.Proofs.Strategy.Rows
import QueryMapping.Sample.Strategy
import QueryMapping.Strategy.Method

/-! The strategies that a query method ends up with, compared by what they make of a cursor. A list
is the values of the rows taken as one, and a method's own extractor leaves nothing else to choose
from. -/

namespace QueryMapping

section Reading

variable {α : Type}

def materializeFound (found : Except MaterializeError (Materializer α)) (c : Cursor) :
    Except MaterializeError (Materialized α) × Cursor :=
  match found with
  | .error e => (.error e, c)
  | .ok m => m.materialize c

namespace Materialized

theorem intoSingle_eq_ok_iff {m : Materialized α} {a : α} :
    m.intoSingle = .ok a ↔ ∃ rest, m.intoRows = a :: rest := by
  rcases m with a' | (_ | ⟨a', rest⟩) <;> simp [intoSingle, intoRows]

theorem intoSingle_eq_error_iff {m : Materialized α} {e : MaterializeError} :
    m.intoSingle = .error e ↔ m.intoRows = [] ∧ e = .emptyResult := by
  rcases m with a' | (_ | ⟨a', rest⟩) <;> simp [intoSingle, intoRows, eq_comm]

end Materialized

theorem bind_intoSingle_eq_ok_iff {x : Except MaterializeError (Materialized α)} {a : α} :
    x >>= Materialized.intoSingle = .ok a ↔
    ∃ rest, x.map Materialized.intoRows = .ok (a :: rest) := by
  simp only [bind_eq_ok_iff, Materialized.intoSingle_eq_ok_iff, map_eq_ok_iff]
  constructor
  · rintro ⟨m, hm, rest, hrest⟩
    exact ⟨rest, m, hm, hrest⟩
  · rintro ⟨rest, m, hm, hrest⟩
    exact ⟨m, hm, rest, hrest⟩

theorem bind_intoSingle_eq_error_iff {x : Except MaterializeError (Materialized α)}
    {e : MaterializeError} :
    x >>= Materialized.intoSingle = .error e ↔
      x = .error e ∨ (x.map Materialized.intoRows = .ok [] ∧ e = .emptyResult) := by
  simp only [bind_eq_error_iff, Materialized.intoSingle_eq_error_iff, map_eq_ok_iff]
  constructor
  · rintro (h | ⟨m, hm, hrows, rfl⟩)
    · exact .inl h
    · exact .inr ⟨⟨m, hm, hrows⟩, rfl⟩
  · rintro (h | ⟨⟨m, hm, hrows⟩, rfl⟩)
    · exact .inl h
    · exact .inr ⟨m, hm, hrows, rfl⟩

end Reading

namespace DefaultMappers

theorem materialize_collected {α : Type} (m : Materializer α) (c : Cursor) :
    (Materializer.extract (collected m)).materialize c =
      ((m.materialize c).1.map fun result => .single result.intoRows, (m.materialize c).2) := by
  cases m with
  | extract e =>
    simp only [Materializer.materialize, collected]
    cases (e c).1 <;> rfl
  | mapRows f =>
    simp only [Materializer.materialize, collected]
    cases (f.mapAll c).1 <;> rfl

variable {τ : Type} [TypeFamily τ] [DecidableEq τ] (d : DefaultMappers τ) (r : Registry τ)
  (method : QueryMethod) (t : OutputType τ)

theorem resolveList_of_extractor {key : StrategyKey} (h : method.extractor = some key) :
    d.resolveList r method t = r.resolve key t.list := by
  simp only [resolveList, h]

theorem resolveList_of_no_extractor (h : method.extractor = none) :
    d.resolveList r method t = (d.resolveRows r method t).map fun m => .extract (collected m) := by
  simp only [resolveList, h]
  cases d.resolveRows r method t <;> rfl

theorem resolveRows_of_extractor {key : StrategyKey} (h : method.extractor = some key) :
    d.resolveRows r method t = .error (.extractorReferenced key) := by
  simp only [resolveRows, h]

theorem resolveRows_of_rowMapper {key : StrategyKey} (hextractor : method.extractor = none)
    (h : method.rowMapper = some key) : d.resolveRows r method t = r.resolve key t := by
  simp only [resolveRows, hextractor, h]

theorem materializeFound_resolveList (h : method.extractor = none) (c : Cursor) :
    let rows := materializeFound (d.resolveRows r method t) c
    materializeFound (d.resolveList r method t) c =
      (rows.1.map fun result => .single result.intoRows, rows.2) := by
  rw [resolveList_of_no_extractor d r method t h]
  cases d.resolveRows r method t with
  | error e => rfl
  | ok m => exact materialize_collected m c

end DefaultMappers

namespace QueryMethod

variable {τ : Type} [TypeFamily τ] [DecidableEq τ] (r : Registry τ) (method : QueryMethod)
  (t : OutputType τ)

theorem resolveWhole_of_extractor {key : StrategyKey} (h : method.extractor = some key) :
    method.resolveWhole r t = r.resolve key t := by
  simp only [resolveWhole, h]

theorem resolveWhole_of_rowMapper {key : StrategyKey} (hextractor : method.extractor = none)
    (h : method.rowMapper = some key) : method.resolveWhole r t = r.resolve key t := by
  simp only [resolveWhole, hextractor, h]

end QueryMethod

namespace Registry

variable {τ : Type} [TypeFamily τ] [DecidableEq τ]

theorem resolve_congr {r r' : Registry τ} {key : StrategyKey}
    (h : r'.entries.get? key = r.entries.get? key) (t : OutputType τ) :
    r'.resolve key t = r.resolve key t := by
  simp only [resolve, h]

end Registry

namespace QueryMethod

variable {τ : Type} [TypeFamily τ] [DecidableEq τ]

open Materialized (intoSingle intoRows)
open Sample (Entity)

/-- Whatever is registered, a method without an extractor yields as a list, from any cursor, what it
yields row by row, and as a whole the first of these. With an extractor it is the extractor's entry
alone that counts: a bad one is reported, whatever else there might be to fall back on. -/
theorem choices_agree (d : DefaultMappers τ) (r : Registry τ) (method : QueryMethod)
    (t : OutputType τ) (c : Cursor) :
    let rows := materializeFound (d.resolveRows r method t) c
    let list := materializeFound (d.resolveList r method t) c
    let whole := materializeFound (method.resolveWhole r t) c
    (method.extractor = none → (list.1 >>= intoSingle, list.2) = (rows.1.map intoRows, rows.2)) ∧
      (method.extractor = none → ∀ key, method.rowMapper = some key →
        whole.2 = rows.2 ∧
          (∀ a, whole.1 >>= intoSingle = .ok a ↔ ∃ rest, rows.1.map intoRows = .ok (a :: rest)) ∧
          (∀ e, whole.1 >>= intoSingle = .error e ↔
            rows.1.map intoRows = .error e ∨ (rows.1.map intoRows = .ok [] ∧ e = .emptyResult)) ∧
          ((∃ result, whole.1 = .ok result ∧ result.intoSingle = .error .emptyResult) ↔
            rows.1.map intoRows = .ok [])) ∧
      ∀ key, method.extractor = some key →
        d.resolveRows r method t = .error (.extractorReferenced key) ∧
          (∀ (d' : DefaultMappers τ) (r' : Registry τ) (method' : QueryMethod),
            method'.extractor = some key → r'.entries.get? key = r.entries.get? key →
              d'.resolveList r' method' t = d.resolveList r method t ∧
                method'.resolveWhole r' t = method.resolveWhole r t) ∧
          (r.entries.get? key = none →
            d.resolveList r method t = .error (.notFound key) ∧
              method.resolveWhole r t = .error (.notFound key)) ∧
          ∀ s, r.entries.get? key = some s →
            (s.output ≠ t.list →
              d.resolveList r method t = .error (.typeMismatch key s.output.name t.list.name)) ∧
              (s.output ≠ t →
                method.resolveWhole r t = .error (.typeMismatch key s.output.name t.name)) := by
  intro rows list whole
  refine ⟨fun h => ?_, fun h key hkey => ?_, fun key h => ?_⟩
  · have hlist : list = (rows.1.map fun result => .single result.intoRows, rows.2) :=
      d.materializeFound_resolveList r method t h c
    rw [hlist]
    cases rows.1 <;> rfl
  · have hwhole : whole = rows := by
      simp only [whole, rows, d.resolveRows_of_rowMapper r method t h hkey,
        method.resolveWhole_of_rowMapper r t h hkey]
    rw [hwhole]
    refine ⟨rfl, fun a => bind_intoSingle_eq_ok_iff, fun e => ?_, ?_⟩
    · rw [bind_intoSingle_eq_error_iff]
      cases rows.1 <;> simp [Except.map]
    · simp only [Materialized.intoSingle_eq_error_iff, and_true, map_eq_ok_iff]
  · rw [d.resolveList_of_extractor r method t h, method.resolveWhole_of_extractor r t h]
    refine ⟨d.resolveRows_of_extractor r method t h, ?_, fun hnone => ?_, fun s hs => ?_⟩
    · intro d' r' method' h' hentry
      rw [d'.resolveList_of_extractor r' method' t h', method'.resolveWhole_of_extractor r' t h']
      exact ⟨Registry.resolve_congr hentry _, Registry.resolve_congr hentry _⟩
    · exact ⟨Registry.resolve_eq_error_iff.2 (.inl ⟨hnone, rfl⟩),
        Registry.resolve_eq_error_iff.2 (.inl ⟨hnone, rfl⟩)⟩
    · exact ⟨fun hne => Registry.resolve_eq_error_iff.2 (.inr ⟨s, hs, hne, rfl⟩),
        fun hne => Registry.resolve_eq_error_iff.2 (.inr ⟨s, hs, hne, rfl⟩)⟩

/-- A row mapper may itself fail with the error that stands for no rows, and there is a row all the
same. -/
theorem emptyResult_of_mapper :
    let fails : RowMapper String := fun _ _ => .error .emptyResult
    let r : Registry Entity := ⟨[(.named "none", ⟨Sample.text, .mapRows fails⟩)]⟩
    let method : QueryMethod := ⟨"SELECT model FROM car", none, some (.named "none")⟩
    let c := Cursor.ofRows [⟨"model", "TEXT"⟩] [[.text "alpha"]]
    let rows := materializeFound (DefaultMappers.empty.resolveRows r method Sample.text) c
    let whole := materializeFound (method.resolveWhole r Sample.text) c
    whole.1 >>= intoSingle = .error .emptyResult ∧ rows.1.map intoRows = .error .emptyResult := by
  intro fails r method c rows whole
  obtain ⟨row, hrow⟩ : ∃ row, Cursor.delivered c.columns (.ok [.text "alpha"]) = .ok row := ⟨_, rfl⟩
  have hread : fails.mapAll c = (.error .emptyResult, { c with unread := [], position := 1 }) :=
    RowMapper.mapFrom_of_unmapped rfl hrow rfl
  have hrows : rows = (.error .emptyResult, { c with unread := [], position := 1 }) := by
    change ((fails.mapAll c).1.map Materialized.rows, (fails.mapAll c).2) = _
    rw [hread]
    rfl
  have hwhole : whole = rows := rfl
  rw [hwhole, hrows]
  exact ⟨rfl, rfl⟩

end QueryMethod

end QueryMapping
