import Mathlib.Data.List.Perm.Basic
import Mathlib.Data.Prod.Lex
import Mathlib.Data.String.Basic
import QueryMapping.Proofs.Dsn.Frame

/-! The parameters of settings in the query of their data source name. The URL of a server holds
them encoded, so that they are read as they are. The name of an SQLite database holds them as they
are, so that what a form gives a meaning to is read with that meaning. -/

namespace QueryMapping

namespace Dsn

open Url (IsFormLiteral readForm)

variable {env : Environment} {c : ConnectionSettings} {d text : String} {engine : Engine}
    {base : Option String}
  {u v start : Url} {cs : List Char} {params values : List (String × String)}
  {a b : String × String}

/-! ### Sorting -/

theorem paramLe_iff : paramLe a b = true ↔ toLex a ≤ toLex b := by
  rw [paramLe, Bool.or_eq_true, decide_eq_true_eq, Bool.and_eq_true, beq_iff_eq, Bool.not_eq_true',
    decide_eq_false_iff_not, not_lt, Prod.Lex.le_iff]
  rfl

theorem pairwise_toLex_sortedParams (params : List (String × String)) :
    (sortedParams params).Pairwise fun a b => toLex a ≤ toLex b := by
  have htrans (a b c : String × String) (hab : paramLe a b = true) (hbc : paramLe b c = true) :
      paramLe a c = true :=
    paramLe_iff.2 ((paramLe_iff.1 hab).trans (paramLe_iff.1 hbc))
  have htotal (a b : String × String) : (paramLe a b || paramLe b a) = true := by
    rw [Bool.or_eq_true, paramLe_iff, paramLe_iff]
    exact le_total _ _
  exact (List.pairwise_mergeSort htrans htotal params).imp paramLe_iff.1

theorem pairwise_sortedParams (params : List (String × String)) :
    (sortedParams params).Pairwise fun a b => a.1 ≤ b.1 := by
  refine (pairwise_toLex_sortedParams params).imp fun hle => ?_
  rcases Prod.Lex.le_iff.1 hle with hlt | ⟨heq, -⟩
  · exact le_of_lt hlt
  · exact le_of_eq heq

theorem sortedParams_eq_of_perm {params params' : List (String × String)}
    (h : params.Perm params') :
    sortedParams params = sortedParams params' := by
  have hperm := (perm_sortedParams params).trans (h.trans (perm_sortedParams params').symm)
  exact hperm.eq_of_pairwise (fun _ _ _ _ hab hba => toLex.injective (le_antisymm hab hba))
    (pairwise_toLex_sortedParams params) (pairwise_toLex_sortedParams params')

def Configured (env : Environment) (c : ConnectionSettings)
    (values : List (String × String)) : Prop :=
  ∃ params, List.Forall₂ (Expands env) (c.params.getD []) params ∧ values.Perm params ∧
    values.Pairwise fun a b => a.1 ≤ b.1

theorem keys_of_expands (h : List.Forall₂ (Expands env) params values) :
    values.map Prod.fst = params.map Prod.fst := by
  induction h with
  | nil => rfl
  | cons hab _ ih => rw [List.map_cons, List.map_cons, hab.1, ih]

/-! ### Names of SQLite databases -/

def afterMark (cs : List Char) : List Char := (cs.dropWhile (· ≠ '?')).drop 1

theorem afterMark_of_not_mem (h : '?' ∉ cs) : afterMark cs = [] := by
  rw [afterMark, List.dropWhile_eq_nil_iff.2 (Url.ne_mark_of_mem h), List.drop_nil]

theorem afterMark_append_cons {before : List Char} (h : '?' ∉ before) (cs : List Char) :
    afterMark (before ++ '?' :: cs) = cs := by
  rw [afterMark, List.dropWhile_append_of_pos (Url.ne_mark_of_mem h),
    List.dropWhile_cons_of_neg (by simp), List.drop_one, List.tail_cons]

theorem readForm_queryText (values : List (String × String)) :
    readForm (queryText values) = values.flatMap fun p => readForm (pairText p) := by
  rw [queryText, Url.readForm_intercalate, List.flatMap_map]

/-- Parameters are read after the pairs that are there, each pair from what is written of it. -/
theorem readForm_withParams (text : String) (values : List (String × String)) :
    readForm (afterMark (withParams text values).toList) =
      readForm (afterMark text.toList) ++ values.flatMap fun p => readForm (pairText p) := by
  by_cases hnil : values = []
  · rw [hnil, withParams, List.flatMap_nil, List.append_nil]
  · rw [toList_withParams text hnil, ← readForm_queryText]
    by_cases hmark : '?' ∈ text.toList
    · obtain ⟨before, after, heq, hbefore⟩ := List.eq_append_cons_of_mem hmark
      rw [if_pos hmark, heq, afterMark_append_cons hbefore, List.append_assoc, List.cons_append,
        afterMark_append_cons hbefore, Url.readForm_append]
    · rw [if_neg hmark, afterMark_append_cons hmark, afterMark_of_not_mem hmark, Url.readForm_nil,
        List.nil_append]

theorem isFormKey_of_mem_sqliteParameters {key : String} (h : key ∈ sqliteParameters) :
    Url.IsFormKey key.toList := by
  have hall : ∀ key ∈ sqliteParameters, ['&', '+', '%', '='].all (· ∉ key.toList) = true := by
    decide
  have hkey : ∀ c ∈ ['&', '+', '%', '='], c ∉ key.toList := List.all_iff_forall_prop.1 (hall key h)
  exact ⟨⟨hkey '&' (by decide), hkey '+' (by decide),
    Url.not_hasEscape_of_not_mem (hkey '%' (by decide))⟩, hkey '=' (by decide)⟩

/-- Every parameter is read as it is configured just if no value has anything that a form gives a
meaning to. -/
theorem readForm_withParams_iff (text : String) (hkeys : ∀ p ∈ values, p.1 ∈ sqliteParameters) :
    readForm (afterMark (withParams text values).toList) =
      readForm (afterMark text.toList) ++ values.map paramBytes ↔
      ∀ p ∈ values, IsFormLiteral p.2.toList := by
  have hpairs := @Url.flatMap_rawPair_iff (values.map fun p => (p.1.toList, p.2.toList))
    (List.forall_mem_map.2 fun p hp => isFormKey_of_mem_sqliteParameters (hkeys p hp))
  rw [List.flatMap_map, List.map_map, List.forall_mem_map] at hpairs
  rw [readForm_withParams, List.append_cancel_left_eq]
  exact hpairs

theorem sqliteParameter_eq_ok_iff :
    sqliteParameter env a = .ok b ↔ a.1 ∈ sqliteParameters ∧ Expands env a b := by
  by_cases hkey : a.1 ∈ sqliteParameters
  · have hstep : sqliteParameter env a = expanded env a.2 >>= fun value => .ok (a.1, value) := by
      rw [sqliteParameter, if_neg (by simpa using hkey)]
      rfl
    rw [hstep, bind_eq_ok_iff, and_iff_right hkey, Expands]
    constructor
    · rintro ⟨value, hvalue, heq⟩
      obtain rfl := Except.ok.inj heq
      exact ⟨rfl, hvalue⟩
    · rintro ⟨hfst, hsnd⟩
      exact ⟨b.2, hsnd, by rw [← hfst]⟩
  · refine iff_of_false (fun h => ?_) fun h => hkey h.1
    rw [sqliteParameter, if_pos (by simpa using hkey)] at h
    cases h

theorem configured_of_sqliteParameter
    (h : (c.params.getD []).mapM (sqliteParameter env) = .ok params) :
    Configured env c (sortedParams params) ∧ ∀ p ∈ sortedParams params, p.1 ∈ sqliteParameters := by
  simp only [mapM_eq_ok_iff, sqliteParameter_eq_ok_iff, List.forall₂_and_left] at h
  obtain ⟨hkeys, hparams⟩ := h
  refine ⟨⟨params, hparams, perm_sortedParams params, pairwise_sortedParams params⟩, fun p hp => ?_⟩
  have hmem := List.mem_map_of_mem (f := Prod.fst) ((perm_sortedParams params).subset hp)
  rw [keys_of_expands hparams] at hmem
  obtain ⟨a, ha, heq⟩ := List.mem_map.1 hmem
  exact heq ▸ hkeys a ha

/-! ### Names of servers -/

theorem configured_of_sorted
    (h : List.Forall₂ (Expands env) (sortedParams (c.params.getD [])) values) :
    Configured env c values := by
  obtain ⟨params, hparams, hperm⟩ :=
    List.perm_comp_forall₂ (perm_sortedParams (c.params.getD [])).symm h
  have hsorted := pairwise_sortedParams (c.params.getD [])
  rw [← List.pairwise_map, ← keys_of_expands h, List.pairwise_map] at hsorted
  exact ⟨params, hparams, hperm.symm, hsorted⟩

theorem afterMark_write (h : u.IsNormal) (hmarks : ∀ c ∈ u.hierarchyText, c ∉ ['?', '#']) :
    afterMark (u.write.takeWhile (· ≠ '#')) = u.query.getD [] := by
  have hfront : ∀ c ∈ u.scheme ++ [':'] ++ u.hierarchyText, c ∉ ['?', '#'] := by
    intro c hc
    rcases List.mem_append.1 hc with hc | hc
    · rcases List.mem_append.1 hc with hc | hc
      · have hchar := h.scheme.chars c hc
        rintro hmark
        rcases List.mem_pair.1 hmark with rfl | rfl <;> cases hchar
      · obtain rfl := List.mem_singleton.1 hc
        decide
    · exact hmarks c hc
  have hquery : '#' ∉ u.query.elim [] ('?' :: ·) := by
    cases hq : u.query with
    | none => exact List.not_mem_nil
    | some q =>
      intro hmem
      rcases List.mem_cons.1 hmem with hmem | hmem
      · exact absurd hmem (by decide)
      · exact (Url.visible_of_not_inQuerySet (h.query q hq '#' hmem).2).2 rfl
  have hwrite : u.write =
      (u.scheme ++ [':'] ++ u.hierarchyText ++ u.query.elim [] ('?' :: ·)) ++
        u.fragment.elim [] ('#' :: ·) := by
    rw [u.write_eq, Url.endText]
    simp only [List.append_assoc]
  have hbefore :
      '#' ∉ u.scheme ++ [':'] ++ u.hierarchyText ++ u.query.elim [] ('?' :: ·) := fun hmem =>
    (List.mem_append.1 hmem).elim (fun hmem => hfront _ hmem (by decide)) hquery
  have hspan := Url.span_append _ (u.fragment.elim [] ('#' :: ·)) (Url.ne_mark_of_mem hbefore)
    (by cases u.fragment <;> simp)
  rw [List.span_eq_takeWhile_dropWhile, Prod.mk.injEq] at hspan
  have hmark : '?' ∉ u.scheme ++ [':'] ++ u.hierarchyText := fun hmem => hfront _ hmem (by decide)
  rw [hwrite, hspan.1]
  cases u.query with
  | none => rw [Option.elim_none, List.append_nil, afterMark_of_not_mem hmark, Option.getD_none]
  | some q => rw [Option.elim_some, afterMark_append_cons hmark, Option.getD_some]

theorem isOpaque_withServer (h : withServer env c u = .ok v) (hform : v.isOpaque = true) :
    u.isOpaque = true :=
  (keeps_withServer h).isOpaque_of_path (path_withServer h) hform

def Unmarked (c : ConnectionSettings) : Prop :=
  ∀ name ∈ c.database, ∀ c ∈ name.toList, c ∉ ['?', '#']

theorem unmarked_withFields (hread : start.IsRead) (h : withFields env c engine start = .ok u)
    (hname : start.isOpaque = true → Unmarked c) (hform : u.isOpaque = true) :
    ∀ c ∈ u.path, c ∉ ['?', '#'] := by
  rw [withFields_eq] at h
  obtain ⟨u₁, hserver, h⟩ := bind_eq_ok_iff.1 h
  obtain ⟨u₂, hdatabase, hquery⟩ := bind_eq_ok_iff.1 h
  obtain ⟨⟨query, rfl⟩, -⟩ := withQuery_eq hquery
  change u₂.isOpaque = true at hform
  change ∀ c ∈ u₂.path, c ∉ ['?', '#']
  cases hfield : c.database with
  | none =>
    rw [hfield, withDatabase_none_eq] at hdatabase
    split at hdatabase
    · obtain rfl := Except.ok.inj hdatabase
      rw [path_withServer hserver]
      exact (hread.path (isOpaque_withServer hserver hform)).unmarked
    · cases hdatabase
  | some name =>
    rw [hfield] at hdatabase
    obtain rfl := Except.ok.inj hdatabase
    rw [Url.isOpaque_setPath] at hform
    rw [Url.setPath_of_isOpaque hform]
    intro c hc hmark
    rcases List.mem_append.1 hc with hc | hc
    · rcases List.mem_pair.1 hmark with rfl | rfl <;> revert hc <;> decide
    · have hmem := Url.mem_of_mem_encode hc (Url.not_mem_escape_of_mark hmark)
      exact hname (isOpaque_withServer hserver hform) name hfield c
        (List.mem_of_mem_filter hmem) hmark

theorem readForm_withFields (hport : ∀ p ∈ c.port, p ≤ 65535)
    (hstart : baseUrl engine base = .ok start)
    (h : withFields env c engine start = .ok u) : ∃ values, Configured env c values ∧
      ((start.isOpaque = true → Unmarked c) →
        readForm (afterMark (u.write.takeWhile (· ≠ '#'))) =
          start.pairs ++ values.map paramBytes) := by
  have hnormal := (carries_withFields hport h).2 (normal_baseUrl hstart)
  have hunmarked := unmarked_withFields (isRead_baseUrl hstart) h
  rw [withFields_eq] at h
  obtain ⟨u₁, hserver, h⟩ := bind_eq_ok_iff.1 h
  obtain ⟨u₂, hdatabase, hquery⟩ := bind_eq_ok_iff.1 h
  obtain ⟨values, hvalues, hpairs⟩ := pairs_withQuery hquery
  refine ⟨values, configured_of_sorted hvalues, fun hname => ?_⟩
  -- Neither of the first steps looks at the parameters.
  have hkept : KeepsUnset { c with params := none } start u₂ :=
    (keeps_withServer (c := { c with params := none }) hserver).trans
      (keeps_withDatabase (c := { c with params := none }) hdatabase)
  have hsame : u₂.query = start.query := hkept.query rfl
  have hmarks : ∀ c ∈ u.hierarchyText, c ∉ ['?', '#'] := by
    intro c hc
    cases hform : u.isOpaque with
    | true =>
      rw [Url.hierarchyText_of_isOpaque hform] at hc
      exact hunmarked hname hform c hc
    | false => exact (hnormal.of_mem_hierarchyText hform hc).2
  rw [afterMark_write hnormal hmarks]
  change u.pairs = _
  rw [hpairs, Url.pairs, hsame, Url.pairs]

theorem readForm_sqliteDsn (h : sqliteDsn env c base = .ok d) :
    ∃ values, Configured env c values ∧ ∀ text ∈ base,
    readForm (afterMark d.toList) =
      readForm (afterMark text.toList) ++ values.flatMap (fun p => readForm (pairText p)) ∧
    (readForm (afterMark d.toList) = readForm (afterMark text.toList) ++ values.map paramBytes ↔
      ∀ p ∈ values, IsFormLiteral p.2.toList) := by
  cases base with
  | none =>
    obtain ⟨p, hpath⟩ := exists_path_of_sqliteDsn h
    obtain ⟨-, -, params, hparams, -⟩ := (sqliteDsn_of_path_iff hpath).1 h
    exact ⟨_, (configured_of_sqliteParameter hparams).1, nofun⟩
  | some text =>
    obtain ⟨-, -, params, hparams, rfl⟩ := sqliteDsn_of_base_iff.1 h
    obtain ⟨hconfigured, hkeys⟩ := configured_of_sqliteParameter hparams
    refine ⟨_, hconfigured, fun text' htext => ?_⟩
    obtain rfl := Option.some.inj htext
    exact ⟨readForm_withParams text _, readForm_withParams_iff text hkeys⟩

/-- The query of a data source name that is accepted is read as the pairs of the name that the
settings begin with and then the configured parameters. For a server these are read as they are,
unless the name of a database puts a mark into an opaque path. For an SQLite database each is read
from what its value is written as, and all are read as they are just if no value has an ampersand, a
plus sign or an escape. -/
theorem resolve_query (hport : ∀ p ∈ c.port, p ≤ 65535) (h : resolve env c = .ok d) :
    ∃ base engine values, c.dsn.mapM (expanded env) = .ok base ∧ Chooses c base engine ∧
    Configured env c values ∧
      (engine = .sqlite → ∀ text ∈ base,
        readForm (afterMark d.toList) =
          readForm (afterMark text.toList) ++ values.flatMap (fun p => readForm (pairText p)) ∧
        (readForm (afterMark d.toList) = readForm (afterMark text.toList) ++ values.map paramBytes ↔
          ∀ p ∈ values, IsFormLiteral p.2.toList)) ∧
      (engine ≠ .sqlite → ∃ start, baseUrl engine base = .ok start ∧
        ((start.isOpaque = true → Unmarked c) →
          readForm (afterMark (d.toList.takeWhile (· ≠ '#'))) =
            start.pairs ++ values.map paramBytes)) := by
  obtain ⟨base, engine, hbase, hengine, ⟨rfl, hdsn⟩ | ⟨hserver, start, u, hstart, hu, rfl⟩⟩ :=
    cases_of_resolve h
  · obtain ⟨values, hvalues, hread⟩ := readForm_sqliteDsn hdsn
    exact ⟨base, .sqlite, values, hbase, chooses_of_engineOf hengine, hvalues, fun _ => hread,
      fun hserver => absurd rfl hserver⟩
  · obtain ⟨values, hvalues, hread⟩ := readForm_withFields hport hstart hu
    refine ⟨base, engine, values, hbase, chooses_of_engineOf hengine, hvalues,
      fun heq => absurd heq hserver, fun _ => ⟨start, hstart, ?_⟩⟩
    rwa [String.toList_ofList]

theorem resolve_query_ampersand :
    let c := dsnSettings "mysql://h/d?a=1#f?g" none [("k y", "x&y=%41+$\x7bPW\x7d")]
    let d := "mysql://h/d?a=1&k+y=x%26y%3D%2541%2Bp%40ss#f?g"
    (∀ p ∈ c.port, p ≤ 65535) ∧ resolve secret c = .ok d ∧
      ∃ base engine values, c.dsn.mapM (expanded secret) = .ok base ∧ Chooses c base engine ∧
        Configured secret c values ∧
        (engine = .sqlite → ∀ text ∈ base,
          readForm (afterMark d.toList) =
            readForm (afterMark text.toList) ++ values.flatMap (fun p => readForm (pairText p)) ∧
          (readForm (afterMark d.toList) =
            readForm (afterMark text.toList) ++ values.map paramBytes ↔
            ∀ p ∈ values, IsFormLiteral p.2.toList)) ∧
        (engine ≠ .sqlite → ∃ start, baseUrl engine base = .ok start ∧
          ((start.isOpaque = true → Unmarked c) →
            readForm (afterMark (d.toList.takeWhile (· ≠ '#'))) =
              start.pairs ++ values.map paramBytes)) := by
  intro c d
  have hport : ∀ p ∈ c.port, p ≤ 65535 := nofun
  have hresolve : resolve secret c = .ok d := by decide +kernel
  exact ⟨hport, hresolve, resolve_query hport hresolve⟩

/-- An ampersand in a value of an SQLite parameter begins another parameter, and an escape is read
for what it stands for. -/
theorem value_adds_parameter :
    let c := dsnSettings "sqlite://a.db" none [("mode", "rwc&cache=shared")]
    let c' := dsnSettings "sqlite://a.db" none [("mode", "r%77c")]
    resolve (fun _ => none) c = .ok "sqlite://a.db?mode=rwc&cache=shared" ∧
      readForm (afterMark "sqlite://a.db?mode=rwc&cache=shared".toList) =
        [("mode", "rwc"), ("cache", "shared")].map paramBytes ∧
      resolve (fun _ => none) c' = .ok "sqlite://a.db?mode=r%77c" ∧
      readForm (afterMark "sqlite://a.db?mode=r%77c".toList) = [("mode", "rwc")].map paramBytes ∧
      readForm (afterMark "sqlite://a.db?mode=r%77c".toList) ≠
        [("mode", "r%77c")].map paramBytes := by
  decide +kernel

end Dsn

end QueryMapping
