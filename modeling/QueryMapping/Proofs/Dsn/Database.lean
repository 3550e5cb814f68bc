import QueryMapping.Proofs.Dsn.Server

/-! Which settings of a server name a database. A name that is given becomes the path without a
check, so that a path without any name is refused only where no name is given. -/

namespace QueryMapping

namespace Url

variable {u v : Url} {cs : List Char}

def NamesDatabase (u : Url) : Prop := u.path.dropWhile (· = '/') ≠ []

instance (u : Url) : Decidable u.NamesDatabase := inferInstanceAs (Decidable (_ ≠ _))

theorem namesDatabase_iff : u.NamesDatabase ↔ ∃ c ∈ u.path, c ≠ '/' := by
  unfold NamesDatabase
  rw [ne_eq, List.dropWhile_eq_nil_iff]
  simp

theorem namesDatabase_congr (h : v.path = u.path) : v.NamesDatabase ↔ u.NamesDatabase := by
  unfold NamesDatabase
  rw [h]

def segmentsOf (cs : List Char) : List (List Char) :=
  Path.resolveFrom [] (((cs.filter (!isTabOrNewline ·)).splitOn '/').map (encode inPathSet))

def HasSegment (cs : List Char) : Prop := ∃ s ∈ segmentsOf cs, s ≠ []

instance (cs : List Char) : Decidable (HasSegment cs) :=
  inferInstanceAs (Decidable (∃ s ∈ segmentsOf cs, _))

theorem namesDatabase_setPath_iff (u : Url) (cs : List Char) :
    (u.setPath cs).NamesDatabase ↔ u.isOpaque = true ∨ HasSegment cs := by
  rw [namesDatabase_iff]
  cases hform : u.isOpaque with
  | true =>
    -- The slash is escaped, and so it is a name.
    rw [setPath_of_isOpaque hform]
    exact iff_of_true ⟨'%', List.mem_cons_self, by decide⟩ (.inl rfl)
  | false =>
    have hslash : ∀ s ∈ segmentsOf cs, '/' ∉ s :=
      fun s hs => (Path.isSegment_of_mem_resolveFrom hs).slash
    rw [setPath_of_not_isOpaque hform, or_iff_right Bool.false_ne_true, HasSegment,
      ← exists_mem_intercalate_ne_iff hslash]
    change (∃ c ∈ '/' :: ['/'].intercalate (segmentsOf cs), c ≠ '/') ↔ _
    rw [List.exists_mem_cons_iff, or_iff_right (not_not.2 rfl)]

example : ¬ HasSegment "app/..".toList := by decide +kernel

end Url

namespace Dsn

open Url (HasSegment)

variable {env : Environment} {c : ConnectionSettings} {d : String} {engine : Engine}
    {base : Option String}
  {u v : Url} {text : String}

/-! ### What the steps leave -/

def withServer (env : Environment) (c : ConnectionSettings) (url : Url) : Except DsnError Url := do
  let url ← withHost c.host url
  let url ← withPort c.port url
  let url ← withUser c.user url
  withPassword env c.password url

theorem withFields_eq : withFields env c engine u = withServer env c u >>= fun url =>
    withDatabase engine c.database url >>= withQuery env (sortedParams (c.params.getD [])) := by
  simp only [withFields, withServer, bind_assoc]

theorem path_withHost {host : Option String} (h : withHost host u = .ok v) : v.path = u.path := by
  cases host with
  | none => rw [Except.ok.inj h]
  | some text =>
    obtain ⟨-, part, parsed, -, -, rfl⟩ := Url.setHost_eq_ok_iff.1 (mapError_eq_ok_iff.1 h)
    rfl

theorem path_withPort {port : Option Nat} (h : withPort port u = .ok v) : v.path = u.path := by
  cases port with
  | none => rw [Except.ok.inj h]
  | some p =>
    obtain ⟨a, setOff, -, -, -, rfl⟩ := Url.eq_of_setPort? (orFail_eq_ok_iff.1 h)
    rfl

theorem path_withUser {user : Option String} (h : withUser user u = .ok v) : v.path = u.path := by
  cases user with
  | none => rw [Except.ok.inj h]
  | some text =>
    obtain ⟨a, -, -, rfl⟩ := Url.modifyAuthority?_eq_some_iff.1 (orFail_eq_ok_iff.1 h)
    rfl

theorem path_withPassword {password : Option String} (h : withPassword env password u = .ok v) :
    v.path = u.path := by
  cases password with
  | none => rw [Except.ok.inj h]
  | some text =>
    obtain ⟨text', -, h⟩ := bind_eq_ok_iff.1 h
    obtain ⟨a, -, -, rfl⟩ := Url.modifyAuthority?_eq_some_iff.1 (orFail_eq_ok_iff.1 h)
    rfl

theorem path_withServer (h : withServer env c u = .ok v) : v.path = u.path := by
  obtain ⟨u₁, hhost, h⟩ := bind_eq_ok_iff.1 h
  obtain ⟨u₂, hport, h⟩ := bind_eq_ok_iff.1 h
  obtain ⟨u₃, huser, hpassword⟩ := bind_eq_ok_iff.1 h
  rw [path_withPassword hpassword, path_withUser huser, path_withPort hport, path_withHost hhost]

theorem withDatabase_none_eq : withDatabase engine none u =
    if u.NamesDatabase then .ok u else .error (.badSetting (.noDatabase engine)) := by
  have hall : u.path.all (· = '/') = true ↔ ¬ u.NamesDatabase := by
    rw [Url.namesDatabase_iff]
    simp
  unfold withDatabase
  by_cases h : u.NamesDatabase
  · rw [if_pos h]
    exact if_neg fun hslashes => hall.1 hslashes h
  · rw [if_neg h]
    exact if_pos (hall.2 h)

theorem database_withFields (h : withFields env c engine u = .ok v) :
    (c.database = none → v.NamesDatabase) ∧
      ∀ name ∈ c.database, v.NamesDatabase ↔ v.isOpaque = true ∨ HasSegment name.toList := by
  rw [withFields_eq] at h
  obtain ⟨u₁, hserver, h⟩ := bind_eq_ok_iff.1 h
  obtain ⟨u₂, hdatabase, hquery⟩ := bind_eq_ok_iff.1 h
  obtain ⟨⟨query, rfl⟩, -⟩ := withQuery_eq hquery
  constructor
  · intro hnone
    rw [hnone, withDatabase_none_eq] at hdatabase
    split at hdatabase
    · next hnames =>
      obtain rfl := Except.ok.inj hdatabase
      exact hnames
    · cases hdatabase
  · intro name hname
    rw [hname] at hdatabase
    obtain rfl := Except.ok.inj hdatabase
    have hiff := Url.namesDatabase_setPath_iff u₁ name.toList
    rw [← Url.isOpaque_setPath u₁ name.toList] at hiff
    exact hiff

/-! ### What the steps refuse -/

theorem expanded_ne (b : BadSetting) : expanded env text ≠ .error (.badSetting b) :=
  mapError_ne fun _ => nofun

theorem mapM_expanded_ne (dsn : Option String) (b : BadSetting) :
    dsn.mapM (expanded env) ≠ .error (.badSetting b) := by
  cases dsn with
  | none => exact nofun
  | some text => exact bind_ne_error (expanded_ne b) fun _ => nofun

theorem detect_ne (b : BadSetting) : detect text ≠ .error (.badSetting b) := by
  unfold detect
  split <;> exact nofun

theorem engineOf_ne {configured : Option Engine} (engine : Engine) :
    engineOf configured base ≠ .error (.badSetting (.noDatabase engine)) := by
  cases configured with
  | none =>
    cases base with
    | none => exact nofun
    | some dsn => exact detect_ne _
  | some engine' =>
    cases base with
    | none => exact nofun
    | some dsn =>
      refine bind_ne_error (detect_ne _) fun named => ?_
      split <;> exact nofun

theorem sqliteParameter_ne {param : String × String} (engine : Engine) :
    sqliteParameter env param ≠ .error (.badSetting (.noDatabase engine)) := by
  unfold sqliteParameter
  split
  · exact nofun
  · apply bind_ne_error (expanded_ne _)
    exact fun _ => nofun

theorem sqliteDsn_ne (engine : Engine) :
    sqliteDsn env c base ≠ .error (.badSetting (.noDatabase engine)) := by
  have hparams : (c.params.getD []).mapM (sqliteParameter env) ≠
      .error (.badSetting (.noDatabase engine)) := by
    intro h
    obtain ⟨-, param, -, -, -, h⟩ := mapM_eq_error_iff.1 h
    exact sqliteParameter_ne engine h
  unfold sqliteDsn
  cases serverField? c with
  | some field => exact nofun
  | none =>
    have hread (write : List (String × String) → String) :
        ((c.params.getD []).mapM (sqliteParameter env) >>= fun params => .ok (write params)) ≠
          .error (.badSetting (.noDatabase engine)) := bind_ne_error hparams fun _ => nofun
    cases base with
    | none =>
      cases c.path with
      | none => exact nofun
      | some path => exact bind_ne_error nofun fun source => hread _
    | some dsn =>
      cases c.path with
      | none => exact bind_ne_error nofun fun source => hread _
      | some path => exact nofun

theorem baseUrl_ne (engine engine' : Engine) :
    baseUrl engine base ≠ .error (.badSetting (.noDatabase engine')) := by
  cases base with
  | none => exact nofun
  | some dsn => exact mapError_ne fun _ => nofun

theorem withServer_ne (engine : Engine) :
    withServer env c u ≠ .error (.badSetting (.noDatabase engine)) := by
  refine bind_ne_error ?_ fun u₁ => bind_ne_error ?_ fun u₂ => bind_ne_error ?_ fun u₃ => ?_
  · cases c.host with
    | none => exact nofun
    | some text => exact mapError_ne fun _ => nofun
  · cases c.port with
    | none => exact nofun
    | some p => exact orFail_ne nofun
  · cases c.user with
    | none => exact nofun
    | some text => exact orFail_ne nofun
  · cases c.password with
    | none => exact nofun
    | some text => exact bind_ne_error (expanded_ne _) fun _ => orFail_ne nofun

theorem withQuery_ne {params : List (String × String)} (b : BadSetting) :
    withQuery env params u ≠ .error (.badSetting b) := by
  induction params generalizing u with
  | nil => exact nofun
  | cons param rest ih =>
    exact bind_ne_error (bind_ne_error (expanded_ne b) fun _ => nofun) fun v => ih

theorem withFields_eq_noDatabase_iff {engine' : Engine} :
    withFields env c engine u = .error (.badSetting (.noDatabase engine')) ↔
      engine' = engine ∧ c.database = none ∧ ¬ u.NamesDatabase ∧
      ∃ v, withServer env c u = .ok v := by
  rw [withFields_eq, bind_eq_error_iff_of_ne (withServer_ne _)]
  constructor
  · rintro ⟨v, hv, h⟩
    rcases bind_eq_error_iff.1 h with h | ⟨w, -, h⟩
    · cases hdatabase : c.database with
      | some name =>
        rw [hdatabase] at h
        cases h
      | none =>
        rw [hdatabase, withDatabase_none_eq] at h
        split at h
        · cases h
        · next hnot =>
          rw [Url.namesDatabase_congr (path_withServer hv)] at hnot
          cases h
          exact ⟨rfl, rfl, hnot, v, hv⟩
    · exact absurd h (withQuery_ne _)
  · rintro ⟨rfl, hdatabase, hnot, v, hv⟩
    refine ⟨v, hv, bind_eq_error_iff.2 (.inl ?_)⟩
    rw [hdatabase, withDatabase_none_eq, if_neg]
    rwa [Url.namesDatabase_congr (path_withServer hv)]

/-! ### Whole settings -/

/-- The URL that the settings of a server begin with, when its host, port, user and password can be
set as they say. -/
structure Begins (env : Environment) (c : ConnectionSettings) (engine : Engine)
    (start : Url) : Prop where
  path : c.path = none
  server : engine ≠ .sqlite
  base : ∃ base, c.dsn.mapM (expanded env) = .ok base ∧ engineOf c.engine base = .ok engine ∧
    baseUrl engine base = .ok start
  fields : ∃ v, withServer env c start = .ok v

theorem serverDsn_eq_noDatabase_iff {engine' : Engine} :
    serverDsn env c engine base = .error (.badSetting (.noDatabase engine')) ↔
      engine' = engine ∧ c.path = none ∧ c.database = none ∧
      ∃ start, baseUrl engine base = .ok start ∧
        ¬ start.NamesDatabase ∧ ∃ v, withServer env c start = .ok v := by
  unfold serverDsn
  cases hpath : c.path with
  | some path => exact iff_of_false (fun h => by cases h) fun h => by cases h.2.1
  | none =>
    change (baseUrl engine base >>= fun url => withFields env c engine url >>= fun url =>
      .ok (String.ofList url.write)) = _ ↔ _
    rw [bind_eq_error_iff_of_ne (baseUrl_ne _ _)]
    simp only [bind_eq_error_iff, withFields_eq_noDatabase_iff, reduceCtorEq, and_false,
      exists_false, or_false]
    constructor
    · rintro ⟨start, hstart, hengine, hdatabase, hnot, hserver⟩
      exact ⟨hengine, trivial, hdatabase, start, hstart, hnot, hserver⟩
    · rintro ⟨hengine, -, hdatabase, start, hstart, hnot, hserver⟩
      exact ⟨start, hstart, hengine, hdatabase, hnot, hserver⟩

theorem resolve_eq_noDatabase_iff : resolve env c = .error (.badSetting (.noDatabase engine)) ↔
    c.database = none ∧ ∃ start, Begins env c engine start ∧ ¬ start.NamesDatabase := by
  unfold resolve
  rw [bind_eq_error_iff_of_ne (mapM_expanded_ne _ _)]
  constructor
  · rintro ⟨base, hbase, h⟩
    obtain ⟨named, hnamed, h⟩ := (bind_eq_error_iff_of_ne (engineOf_ne _)).1 h
    have hserver : named ≠ .sqlite ∧
        serverDsn env c named base = .error (.badSetting (.noDatabase engine)) := by
      cases named with
      | sqlite => exact absurd h (sqliteDsn_ne _)
      | postgres => exact ⟨by decide, h⟩
      | mysql => exact ⟨by decide, h⟩
    obtain ⟨rfl, hpath, hdatabase, start, hstart, hnot, hfields⟩ :=
      serverDsn_eq_noDatabase_iff.1 hserver.2
    exact ⟨hdatabase, start, ⟨hpath, hserver.1, ⟨base, hbase, hnamed, hstart⟩, hfields⟩, hnot⟩
  · rintro ⟨hdatabase, start, ⟨hpath, hserver, ⟨base, hbase, hnamed, hstart⟩, hfields⟩, hnot⟩
    have hdsn := serverDsn_eq_noDatabase_iff.2 ⟨rfl, hpath, hdatabase, start, hstart, hnot, hfields⟩
    refine ⟨base, hbase, bind_eq_error_iff.2 (.inr ⟨engine, hnamed, ?_⟩)⟩
    cases engine with
    | sqlite => exact absurd rfl hserver
    | postgres => exact hdsn
    | mysql => exact hdsn

/-- Without a name in the settings the data source name of a server names a database, and settings
that would give none are refused for it. A name in the settings is taken in any case, and it has to
leave a segment that is not empty once it is a path. -/
theorem resolve_database (env : Environment) (c : ConnectionSettings) :
    (∀ d, ForServer env c → resolve env c = .ok d → ∃ u, Completed env c u ∧
      d = String.ofList u.write ∧
      (c.database = none → u.NamesDatabase) ∧
      (∀ name ∈ c.database, u.NamesDatabase ↔ u.isOpaque = true ∨ HasSegment name.toList) ∧
      ((∀ p ∈ c.port, p ≤ 65535) → u.hasHost = true →
        Url.parse d.toList = .ok { u with setOff := false })) ∧
    ∀ engine, resolve env c = .error (.badSetting (.noDatabase engine)) ↔
      c.database = none ∧ ∃ start, Begins env c engine start ∧ ¬ start.NamesDatabase := by
  refine ⟨fun d hserver h => ?_, fun engine => resolve_eq_noDatabase_iff⟩
  obtain ⟨u, hcompleted, rfl⟩ := exists_completed hserver h
  have hsteps := hcompleted
  obtain ⟨base, engine, start, -, -, hstart, hu⟩ := hsteps
  obtain ⟨hnone, hsome⟩ := database_withFields hu
  refine ⟨u, hcompleted, rfl, hnone, hsome, fun hport hhost => ?_⟩
  have hnormal := (carries_withFields hport hu).2 (normal_baseUrl hstart)
  rw [String.toList_ofList]
  exact hnormal.parse_write hhost

def hostSettings (engine : Engine) (database : Option String) : ConnectionSettings :=
  { engine := some engine, dsn := none, host := some "db", port := none, user := none,
    password := none, database, path := none, params := none, pool := none }

theorem resolve_database_parent :
    let c := hostSettings .mysql (some "old/../app")
    ForServer (fun _ => none) c ∧ resolve (fun _ => none) c = .ok "mysql://db/app" ∧
      (∃ u, Completed (fun _ => none) c u ∧ "mysql://db/app" = String.ofList u.write ∧
        (c.database = none → u.NamesDatabase) ∧
        (∀ name ∈ c.database, u.NamesDatabase ↔ u.isOpaque = true ∨ HasSegment name.toList) ∧
        ((∀ p ∈ c.port, p ≤ 65535) → u.hasHost = true →
          Url.parse "mysql://db/app".toList = .ok { u with setOff := false })) ∧
      resolve (fun _ => none) (hostSettings .mysql none) =
        .error (.badSetting (.noDatabase .mysql)) := by
  intro c
  have hserver : ForServer (fun _ => none) c := by
    rw [ForServer]
    decide +kernel
  have hresolve : resolve (fun _ => none) c = .ok "mysql://db/app" := by decide +kernel
  have hfields :
      ∃ v, withServer (fun _ => none) (hostSettings .mysql none) (defaultUrl .mysql) = .ok v :=
    ⟨{ defaultUrl .mysql with authority := some ⟨[], [], .name "db".toList, none⟩ }, by
      decide +kernel⟩
  have hbegins : Begins (fun _ => none) (hostSettings .mysql none) .mysql (defaultUrl .mysql) :=
    ⟨rfl, by decide, ⟨none, rfl, rfl, rfl⟩, hfields⟩
  have hnot : ¬ (defaultUrl .mysql).NamesDatabase := by decide
  exact ⟨hserver, hresolve, (resolve_database _ c).1 _ hserver hresolve,
    ((resolve_database _ _).2 .mysql).2 ⟨rfl, _, hbegins, hnot⟩⟩

/-- An empty name in the settings is taken for one, and the data source name that it makes names no
database. -/
theorem blank_name_is_taken :
    let c := hostSettings .postgres (some "")
    ForServer (fun _ => none) c ∧ resolve (fun _ => none) c = .ok "postgres://db/" ∧
      (Url.parse "postgres://db/".toList).map (fun u => decide u.NamesDatabase) = .ok false := by
  refine ⟨?_, by decide +kernel, by decide +kernel⟩
  rw [ForServer]
  decide +kernel

end Dsn

end QueryMapping
