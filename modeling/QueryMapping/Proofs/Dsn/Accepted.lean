import QueryMapping.Proofs.Dsn.Expand
import QueryMapping.Proofs.Dsn.Query

/-! Which settings of an SQLite database are accepted, and the data source name that they have
then. -/

namespace QueryMapping

namespace Dsn

variable {env : Environment} {c : ConnectionSettings} {d text : String} {engine : Engine}
    {base : Option String}
  {params values : List (String × String)} {start : String × Bool}

/-! ### Conditions -/

def ChoosesSqlite (env : Environment) (c : ConnectionSettings) : Prop :=
  c.engine = some .sqlite ∨
    c.engine = none ∧ ∃ text ∈ c.dsn, ∃ base, expanded env text = .ok base ∧
    detect base = .ok .sqlite

def IsKnown (env : Environment) (text : String) : Prop :=
  ∀ name : String, HasReference text.toList name.toList → (env name).isSome

structure IsAcceptable (env : Environment) (c : ConnectionSettings) : Prop where
  dsn : ∀ text ∈ c.dsn, IsKnown env text ∧ ∀ base, expanded env text = .ok base →
    detect base = .ok .sqlite
  serverless : c.host = none ∧ c.port = none ∧ c.user = none ∧ c.password = none ∧ c.database = none
  source : c.dsn.isSome ↔ c.path = none
  keys : ∀ p ∈ c.params.getD [], p.1 ∈ ["mode", "cache", "immutable", "vfs"]
  values : ∀ p ∈ c.params.getD [], IsKnown env p.2

structure IsFollowed (start : String) (params : List (String × String)) (d : String) : Prop where
  bare : params = [] → d = start
  query : params ≠ [] →
    d.toList = start.toList ++ (if '?' ∈ start.toList then '&' else '?') :: queryText params

def IsName (env : Environment) (c : ConnectionSettings) (d : String) : Prop :=
  ∃ start values params,
    ((∃ text ∈ c.dsn, expanded env text = .ok start) ∨ ∃ p ∈ c.path, start = "sqlite://" ++ p) ∧
      List.Forall₂ (Expands env) (c.params.getD []) values ∧
      params.Perm (if c.path.isSome then withMode values else values) ∧
        (params.Pairwise fun a b => a.1 ≤ b.1) ∧
      IsFollowed start params d

theorem isFollowed_withParams (start : String) (params : List (String × String)) :
    IsFollowed start params (withParams start params) :=
  ⟨fun h => by rw [h, withParams], toList_withParams start⟩

/-! ### Steps -/

theorem serverField?_eq_none_iff : serverField? c = none ↔
    c.host = none ∧ c.port = none ∧ c.user = none ∧ c.password = none ∧ c.database = none := by
  simp [serverField?]

theorem exists_sqliteParameter_iff : (∃ values, params.mapM (sqliteParameter env) = .ok values) ↔
    (∀ p ∈ params, p.1 ∈ sqliteParameters) ∧ ∀ p ∈ params, IsKnown env p.2 := by
  have hparam (p : String × String) : (∃ value, sqliteParameter env p = .ok value) ↔
      p.1 ∈ sqliteParameters ∧ IsKnown env p.2 := by
    rw [IsKnown, ← exists_expanded_iff]
    simp only [sqliteParameter_eq_ok_iff, Expands]
    constructor
    · rintro ⟨value, hkey, -, hvalue⟩
      exact ⟨hkey, value.2, hvalue⟩
    · rintro ⟨hkey, value, hvalue⟩
      exact ⟨(p.1, value), hkey, rfl, hvalue⟩
  simp only [exists_mapM_eq_ok_iff, hparam]
  exact forall₂_and

theorem expandedDsn_eq_ok_iff : c.dsn.mapM (expanded env) = .ok base ↔
    c.dsn = none ∧ base = none ∨ ∃ text ∈ c.dsn, ∃ b, expanded env text = .ok b ∧
    base = some b := by
  cases c.dsn with
  | none =>
    change Except.ok none = Except.ok base ↔ _
    simp [eq_comm]
  | some text =>
    change (expanded env text >>= fun b => .ok (some b)) = _ ↔ _
    rw [bind_eq_ok_iff]
    constructor
    · rintro ⟨b, hb, heq⟩
      exact .inr ⟨text, rfl, b, hb, (Except.ok.inj heq).symm⟩
    · rintro (⟨hnone, -⟩ | ⟨_, htext, b, hb, rfl⟩)
      · cases hnone
      · obtain rfl := Option.some.inj htext
        exact ⟨b, hb, rfl⟩

theorem engineOf_eq_ok_iff (hbase : c.dsn.mapM (expanded env) = .ok base)
    (h : ChoosesSqlite env c) :
    engineOf c.engine base = .ok engine ↔
    engine = .sqlite ∧ ∀ text ∈ base, detect text = .ok .sqlite := by
  rcases h with hconfigured | ⟨hnone, text, htext, b, hb, hdetect⟩
  · rw [hconfigured]
    cases base with
    | none => simp [engineOf, eq_comm]
    | some text =>
      rw [engineOf_some_iff]
      constructor
      · rintro ⟨hdetect, hsame⟩
        obtain rfl := hsame .sqlite rfl
        exact ⟨rfl, by simpa using hdetect⟩
      · rintro ⟨rfl, hdetect⟩
        exact ⟨hdetect text rfl, by simp⟩
  · rcases expandedDsn_eq_ok_iff.1 hbase with ⟨hdsn, -⟩ | ⟨text', htext', b', hb', rfl⟩
    · rw [hdsn] at htext
      cases htext
    · obtain rfl := Option.mem_unique htext htext'
      obtain rfl := Except.ok.inj (hb.symm.trans hb')
      rw [hnone]
      simp [engineOf, hdetect, eq_comm]

theorem resolve_eq_ok_iff_of_choosesSqlite (h : ChoosesSqlite env c) : resolve env c = .ok d ↔
    ∃ base start values, c.dsn.mapM (expanded env) = .ok base ∧
    (∀ text ∈ base, detect text = .ok .sqlite) ∧
      sqliteStart c base = .ok start ∧ (c.params.getD []).mapM (sqliteParameter env) = .ok values ∧
      sqliteText start values = d := by
  have hdsn (base : Option String) : sqliteDsn env c base = .ok d ↔
    ∃ start values, sqliteStart c base = .ok start ∧
      (c.params.getD []).mapM (sqliteParameter env) = .ok values ∧ sqliteText start values = d := by
    simp only [sqliteDsn_eq, bind_eq_ok_iff, map_eq_ok_iff, ← exists_and_left]
  constructor
  · intro hd
    obtain ⟨base, engine, hbase, hengine, hcases⟩ := cases_of_resolve hd
    obtain ⟨rfl, hdetect⟩ := (engineOf_eq_ok_iff hbase h).1 hengine
    obtain ⟨start, values, hrest⟩ :=
      (hdsn base).1 (hcases.resolve_right fun hserver => hserver.1 rfl).2
    exact ⟨base, start, values, hbase, hdetect, hrest⟩
  · rintro ⟨base, start, values, hbase, hdetect, hrest⟩
    rw [resolve_of_engine hbase ((engineOf_eq_ok_iff hbase h).2 ⟨rfl, hdetect⟩), if_pos rfl]
    exact (hdsn base).2 ⟨start, values, hrest⟩

theorem exists_sqliteStart_iff : (∃ base start, c.dsn.mapM (expanded env) = .ok base ∧
      (∀ text ∈ base, detect text = .ok .sqlite) ∧ sqliteStart c base = .ok start) ↔
    (∀ text ∈ c.dsn, IsKnown env text ∧ ∀ base, expanded env text = .ok base →
      detect base = .ok .sqlite) ∧
      serverField? c = none ∧ (c.dsn.isSome ↔ c.path = none) := by
  constructor
  · rintro ⟨base, start, hbase, hdetect, hstart⟩
    obtain ⟨hfield, hcases⟩ := sqliteStart_eq_ok_iff.1 hstart
    rcases expandedDsn_eq_ok_iff.1 hbase with ⟨hdsn, rfl⟩ | ⟨text, htext, b, hb, rfl⟩
    · obtain ⟨p, -, hpath, -⟩ := hcases.resolve_left fun ⟨_, h, _⟩ => by cases h
      exact ⟨by simp [hdsn], hfield, by simp [hdsn, hpath]⟩
    · obtain ⟨_, -, hpath, -⟩ := hcases.resolve_right fun ⟨_, h, _⟩ => by cases h
      refine ⟨fun text' htext' => ?_, hfield, by simp [Option.mem_def.1 htext, hpath]⟩
      obtain rfl := Option.mem_unique htext htext'
      refine ⟨exists_expanded_iff.1 ⟨b, hb⟩, fun b' hb' => ?_⟩
      rw [← Except.ok.inj (hb.symm.trans hb')]
      exact hdetect b rfl
  · rintro ⟨hnamed, hfield, hsource⟩
    cases hdsn : c.dsn with
    | none =>
      obtain ⟨p, hpath⟩ := Option.ne_none_iff_exists'.1 fun hpath => by
        have hsome := hsource.2 hpath
        rw [hdsn] at hsome
        cases hsome
      exact ⟨none, ("sqlite://" ++ p, true), rfl, nofun,
        sqliteStart_eq_ok_iff.2 ⟨hfield, .inr ⟨p, rfl, hpath, rfl⟩⟩⟩
    | some text =>
      obtain ⟨hknown, hdetect⟩ := hnamed text hdsn
      obtain ⟨b, hb⟩ := exists_expanded_iff.2 hknown
      have hpath := hsource.1 (by rw [hdsn]; rfl)
      have hbase : (some text).mapM (expanded env) = .ok (some b) := bind_eq_ok_iff.2 ⟨b, hb, rfl⟩
      refine ⟨some b, (b, false), hbase, fun b' hb' => ?_,
        sqliteStart_eq_ok_iff.2 ⟨hfield, .inl ⟨b, rfl, hpath, rfl⟩⟩⟩
      obtain rfl := Option.some.inj hb'
      exact hdetect b hb

theorem isName_of_steps (hbase : c.dsn.mapM (expanded env) = .ok base)
    (hstart : sqliteStart c base = .ok start)
    (hvalues : (c.params.getD []).mapM (sqliteParameter env) = .ok values) :
    IsName env c (sqliteText start values) := by
  have hexpands : List.Forall₂ (Expands env) (c.params.getD []) values :=
    (mapM_eq_ok_iff.1 hvalues).imp fun _ _ hparam => (sqliteParameter_eq_ok_iff.1 hparam).2
  obtain ⟨-, ⟨text, rfl, hpath, rfl⟩ | ⟨p, rfl, hpath, rfl⟩⟩ := sqliteStart_eq_ok_iff.1 hstart
  · obtain ⟨text', htext', b, hb, heq⟩ :=
      (expandedDsn_eq_ok_iff.1 hbase).resolve_left fun h => by cases h.2
    obtain rfl := Option.some.inj heq
    refine ⟨text, values, sortedParams values, .inl ⟨text', htext', hb⟩, hexpands, ?_,
      pairwise_sortedParams _, isFollowed_withParams _ _⟩
    rw [hpath]
    exact perm_sortedParams values
  · refine ⟨_, values, sortedParams (withMode values), .inr ⟨p, hpath, rfl⟩, hexpands, ?_,
      pairwise_sortedParams _, isFollowed_withParams _ _⟩
    rw [hpath]
    exact perm_sortedParams (withMode values)

/-- Settings whose engine is SQLite have a data source name just if they are acceptable. It is the
expanded one that they begin with, or that of the path, followed by the parameters sorted by key,
with a mode for a path that has none. -/
theorem resolve_sqlite (h : ChoosesSqlite env c) :
    ((∃ d, resolve env c = .ok d) ↔ IsAcceptable env c) ∧ ∀ d, resolve env c = .ok d →
    IsName env c d := by
  simp only [resolve_eq_ok_iff_of_choosesSqlite h]
  constructor
  · constructor
    · rintro ⟨d, base, start, values, hbase, hdetect, hstart, hvalues, -⟩
      obtain ⟨hdsn, hfield, hsource⟩ :=
        exists_sqliteStart_iff.1 ⟨base, start, hbase, hdetect, hstart⟩
      obtain ⟨hkeys, hknown⟩ := exists_sqliteParameter_iff.1 ⟨values, hvalues⟩
      exact ⟨hdsn, serverField?_eq_none_iff.1 hfield, hsource, hkeys, hknown⟩
    · rintro ⟨hdsn, hserverless, hsource, hkeys, hknown⟩
      obtain ⟨base, start, hbase, hdetect, hstart⟩ :=
        exists_sqliteStart_iff.2 ⟨hdsn, serverField?_eq_none_iff.2 hserverless, hsource⟩
      obtain ⟨values, hvalues⟩ := exists_sqliteParameter_iff.2 ⟨hkeys, hknown⟩
      exact ⟨_, base, start, values, hbase, hdetect, hstart, hvalues, rfl⟩
  · rintro d ⟨base, start, values, hbase, -, hstart, hvalues, rfl⟩
    exact isName_of_steps hbase hstart hvalues

theorem resolve_sqlite_vfs :
    let c := { dsnSettings "sqlite:$\x7bFILE\x7d?mode=ro" none [("vfs", "$\x7bLAYER\x7d")] with
      engine := some .sqlite }
    let env := fun name =>
      if name = "FILE" then some "a$\x7bb.db" else if name = "LAYER" then some "unix" else none
    ChoosesSqlite env c ∧ resolve env c = .ok "sqlite:a$\x7bb.db?mode=ro&vfs=unix" ∧
      ((∃ d, resolve env c = .ok d) ↔ IsAcceptable env c) ∧ ∀ d, resolve env c = .ok d →
      IsName env c d := by
  intro c env
  have hengine : ChoosesSqlite env c := .inl rfl
  exact ⟨hengine, by decide +kernel, resolve_sqlite hengine⟩

end Dsn

end QueryMapping
