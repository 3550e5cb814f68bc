import QueryMapping.Proofs.Failure
import QueryMapping.Proofs.Text.Blank
import QueryMapping.Proofs.Url.Parse
import QueryMapping.Storage.Handle

/-! Data source names of SQLite databases that are given by a file. The path is written as it is,
and whoever reads the name ends it at its first question mark: from there on it is taken for
parameters. -/

namespace QueryMapping

namespace Dsn

variable {env : Environment} {c : ConnectionSettings} {d p : String} {before after : List Char}
  {params : List (String × String)}

/-! ### Writing parameters -/

def pairText (param : String × String) : List Char := param.1.toList ++ '=' :: param.2.toList

def queryText (params : List (String × String)) : List Char :=
  ['&'].intercalate (params.map pairText)

theorem toList_foldl_params (rest : List (String × String)) (dsn : String) :
    (rest.foldl (fun dsn p => dsn ++ "&" ++ p.1 ++ "=" ++ p.2) dsn).toList =
      dsn.toList ++ rest.flatMap fun param => '&' :: pairText param := by
  induction rest generalizing dsn with
  | nil => simp
  | cons param rest ih =>
    rw [List.foldl_cons, ih]
    simp [pairText]

theorem queryText_cons (param : String × String) (rest : List (String × String)) :
    queryText (param :: rest) = pairText param ++ rest.flatMap fun param =>
      '&' :: pairText param := by
  induction rest generalizing param with
  | nil => simp [queryText]
  | cons next rest ih =>
    have hne : (next :: rest).map pairText ≠ [] := by simp
    unfold queryText at ih ⊢
    rw [List.map_cons, intercalate_cons '&' _ hne, ih next]
    rfl

theorem toList_withParams (dsn : String) (h : params ≠ []) :
    (withParams dsn params).toList =
      dsn.toList ++ (if '?' ∈ dsn.toList then '&' else '?') :: queryText params := by
  obtain ⟨param, rest, rfl⟩ := List.exists_cons_of_ne_nil h
  unfold withParams
  rw [toList_foldl_params, queryText_cons]
  by_cases hmark : '?' ∈ dsn.toList <;> simp [hmark, pairText]

/-! ### Reading names -/

def scheme : List Char := "sqlite://".toList

theorem trimStart_of_scheme {rest : List Char} (h : d.toList = scheme ++ rest) :
    Text.trimStart d.toList = scheme ++ rest := by
  rw [h]
  exact Text.trimStart_cons_of_not_blank (by decide)

theorem sqliteParts_of_query (h : d.toList = scheme ++ before ++ '?' :: after)
    (hbefore : '?' ∉ before) :
    sqliteParts d = (before, some after) := by
  have hspan := Url.span_append before ('?' :: after) (Url.ne_mark_of_mem hbefore) (by simp)
  have htrim := trimStart_of_scheme (h.trans (List.append_assoc ..))
  have hrest : withoutStart "//".toList (withoutStart "sqlite:".toList (Text.trimStart d.toList)) =
      before ++ '?' :: after := by
    rw [htrim]
    rfl
  unfold sqliteParts
  rw [hrest]
  simp only [hspan]

/-! ### Names of files -/

theorem perm_sortedParams (params : List (String × String)) : (sortedParams params).Perm params :=
  List.mergeSort_perm _ _

theorem sortedParams_eq_nil_iff {params : List (String × String)} :
    sortedParams params = [] ↔ params = [] := by
  have hperm := perm_sortedParams params
  exact ⟨fun h => List.nil_perm.1 (h ▸ hperm), fun h => List.perm_nil.1 (h ▸ hperm)⟩

def withMode (params : List (String × String)) : List (String × String) :=
  if params.any (·.1 == "mode") then params else params ++ [("mode", "rwc")]

theorem withMode_ne_nil (params : List (String × String)) : withMode params ≠ [] := by
  unfold withMode
  split
  · next hmode =>
    intro hempty
    rw [hempty] at hmode
    cases hmode
  · exact List.concat_ne_nil _ _

theorem sortedParams_withMode_ne_nil (params : List (String × String)) :
    sortedParams (withMode params) ≠ [] :=
  mt sortedParams_eq_nil_iff.1 (withMode_ne_nil params)

def sqliteStart (c : ConnectionSettings) (base : Option String) : Except DsnError (String × Bool) :=
  match serverField? c, base, c.path with
  | some field, _, _ => .error (.conflict (.serverField field))
  | none, some dsn, none => .ok (dsn, false)
  | none, none, some path => .ok ("sqlite://" ++ path, true)
  | none, some _, some _ => .error (.conflict .dsnAndPath)
  | none, none, none => .error (.badSetting .noSource)

def sqliteText (start : String × Bool) (values : List (String × String)) : String :=
  withParams start.1 (sortedParams (if start.2 then withMode values else values))

theorem sqliteDsn_eq (base : Option String) : sqliteDsn env c base =
    sqliteStart c base >>= fun start =>
      ((c.params.getD []).mapM (sqliteParameter env)).map (sqliteText start) := by
  have hmode (params : List (String × String)) :
      (if true && !params.any (·.1 == "mode") then params ++ [("mode", "rwc")] else params) =
        withMode params := by
    unfold withMode
    cases params.any (·.1 == "mode") <;> rfl
  unfold sqliteDsn sqliteStart
  cases serverField? c with
  | some field => rfl
  | none =>
    rcases base with _ | dsn <;> rcases c.path with _ | path
    · rfl
    · change ((c.params.getD []).mapM (sqliteParameter env) >>= fun params =>
        .ok (withParams _
          (sortedParams (if true && !params.any (·.1 == "mode") then _ else params)))) = _
      simp only [hmode]
      rfl
    · rfl
    · rfl

theorem sqliteStart_eq_ok_iff {base : Option String} {start : String × Bool} :
    sqliteStart c base = .ok start ↔
    serverField? c = none ∧ ((∃ text, base = some text ∧ c.path = none ∧ start = (text, false)) ∨
      ∃ p, base = none ∧ c.path = some p ∧ start = ("sqlite://" ++ p, true)) := by
  unfold sqliteStart
  cases serverField? c <;> cases base <;> cases c.path <;> simp [eq_comm]

theorem sqliteDsn_of_path_iff {base : Option String} (hpath : c.path = some p) :
    sqliteDsn env c base = .ok d ↔ serverField? c = none ∧ base = none ∧
      ∃ params, (c.params.getD []).mapM (sqliteParameter env) = .ok params ∧
        withParams ("sqlite://" ++ p) (sortedParams (withMode params)) = d := by
  rw [sqliteDsn_eq, bind_eq_ok_iff]
  simp [sqliteStart_eq_ok_iff, hpath, map_eq_ok_iff, sqliteText, and_assoc]

theorem sqliteDsn_of_base_iff {text : String} :
    sqliteDsn env c (some text) = .ok d ↔ serverField? c = none ∧ c.path = none ∧
      ∃ params, (c.params.getD []).mapM (sqliteParameter env) = .ok params ∧
        withParams text (sortedParams params) = d := by
  rw [sqliteDsn_eq, bind_eq_ok_iff]
  simp [sqliteStart_eq_ok_iff, map_eq_ok_iff, sqliteText, and_assoc]

theorem engineOf_none_iff {configured : Option Engine} {engine : Engine} :
    engineOf configured none = .ok engine ↔ configured = some engine := by
  cases configured <;> simp [engineOf]

theorem engineOf_some_iff {configured : Option Engine} {engine : Engine} {text : String} :
    engineOf configured (some text) = .ok engine ↔
    detect text = .ok engine ∧ ∀ e ∈ configured, e = engine := by
  cases configured with
  | none => simp [engineOf]
  | some e =>
    constructor
    · intro h
      obtain ⟨named, hnamed, h⟩ := bind_eq_ok_iff.1 h
      split at h
      · next heq =>
        obtain rfl := Except.ok.inj h
        exact ⟨heq ▸ hnamed, by simp⟩
      · cases h
    · rintro ⟨hnamed, hconfigured⟩
      obtain rfl := hconfigured e rfl
      exact bind_eq_ok_iff.2 ⟨e, hnamed, if_pos rfl⟩

theorem resolve_of_path_iff (hpath : c.path = some p) : resolve env c = .ok d ↔
    c.dsn = none ∧ c.engine = some .sqlite ∧ serverField? c = none ∧
      ∃ params, (c.params.getD []).mapM (sqliteParameter env) = .ok params ∧
        withParams ("sqlite://" ++ p) (sortedParams (withMode params)) = d := by
  unfold resolve
  rw [bind_eq_ok_iff]
  constructor
  · rintro ⟨base, hbase, h⟩
    obtain ⟨engine, hengine, h⟩ := bind_eq_ok_iff.1 h
    -- A server that is given by a path is a conflict, whatever else is set.
    have hserver : serverDsn env c engine base ≠ .ok d := by
      unfold serverDsn
      rw [hpath]
      intro hd
      cases hd
    cases engine with
    | postgres => exact absurd h hserver
    | mysql => exact absurd h hserver
    | sqlite =>
      obtain ⟨hfield, rfl, hparams⟩ := (sqliteDsn_of_path_iff hpath).1 h
      refine ⟨?_, engineOf_none_iff.1 hengine, hfield, hparams⟩
      cases hdsn : c.dsn with
      | none => rfl
      | some dsn =>
        rw [hdsn] at hbase
        obtain ⟨text, -, hbase⟩ := bind_eq_ok_iff.1 hbase
        cases hbase
  · rintro ⟨hdsn, hengine, hfield, h⟩
    refine ⟨none, by rw [hdsn]; rfl, bind_eq_ok_iff.2 ⟨.sqlite, engineOf_none_iff.2 hengine, ?_⟩⟩
    exact (sqliteDsn_of_path_iff hpath).2 ⟨hfield, rfl, h⟩

/-- The query of a file's name. If the path has a question mark, what follows it there comes
first. -/
def queryBehind (path query : List Char) : List Char :=
  match path.dropWhile (· ≠ '?') with
  | [] => query
  | _ :: after => after ++ '&' :: query

theorem sqliteParts_withParams (h : params ≠ []) :
    sqliteParts (withParams ("sqlite://" ++ p) params) =
    (p.toList.takeWhile (· ≠ '?'), some (queryBehind p.toList (queryText params))) := by
  have htext : ("sqlite://" ++ p).toList = scheme ++ p.toList := String.toList_append
  have hscheme : '?' ∉ scheme := by decide
  by_cases hmark : '?' ∈ p.toList
  · obtain ⟨before, after, hp, hbefore⟩ := List.eq_append_cons_of_mem hmark
    have hcut := Url.span_append before ('?' :: after) (Url.ne_mark_of_mem hbefore) (by simp)
    rw [List.span_eq_takeWhile_dropWhile, Prod.mk.injEq] at hcut
    have hname : (withParams ("sqlite://" ++ p) params).toList =
        scheme ++ before ++ '?' :: (after ++ '&' :: queryText params) := by
      rw [toList_withParams _ h, htext, hp, if_pos (by simp)]
      simp
    rw [queryBehind, hp, hcut.1, hcut.2]
    exact sqliteParts_of_query hname hbefore
  · have hall := Url.ne_mark_of_mem hmark
    have hname : (withParams ("sqlite://" ++ p) params).toList =
        scheme ++ p.toList ++ '?' :: queryText params := by
      rw [toList_withParams _ h, htext, if_neg (by simp [hscheme, hmark])]
    rw [queryBehind, List.takeWhile_eq_self_iff.2 hall, List.dropWhile_eq_nil_iff.2 hall]
    exact sqliteParts_of_query hname hmark

theorem takeWhile_mark_eq_iff :
    String.ofList (p.toList.takeWhile (· ≠ '?')) = p ↔ '?' ∉ p.toList := by
  rw [← String.toList_inj, String.toList_ofList, List.takeWhile_eq_self_iff]
  exact ⟨fun h hmem => by simpa using h _ hmem, Url.ne_mark_of_mem⟩

/-! ### Opening files -/

section Opening

variable {o : ConnectOptions} {files : Files} {rest : List Char}

def connectBelow (file : String) (o : ConnectOptions) (dsn : String) (files : Files) :
    Except DatabaseError Handle × Files :=
  match files.makeParents? file with
  | none => (.error (.file file), files)
  | some files => Handle.connect { o with createDirectories := false } dsn files

theorem detect_of_scheme (h : d.toList = scheme ++ rest) : detect d = .ok .sqlite := by
  have hname : (scheme ++ rest).takeWhile (· ≠ ':') = "sqlite".toList := rfl
  rw [detect, trimStart_of_scheme h, hname, String.ofList_toList]
  rfl

theorem isPrefixOf_of_scheme (h : d.toList = scheme ++ rest) :
    "sqlite:".toList.isPrefixOf (Text.trimStart d.toList) = true := by
  rw [trimStart_of_scheme h]
  rfl

theorem makeDirectories_of_isPrefixOf
    (h : "sqlite:".toList.isPrefixOf (Text.trimStart d.toList) = true) :
    Handle.makeDirectories d files =
      match files.makeParents? (sqlitePath d) with
      | some made => .ok made
      | none => .error (.file (sqlitePath d)) := if_pos h

theorem poolOptions_createDirectories (o : ConnectOptions) (d : String) :
    Handle.poolOptions { o with createDirectories := false } d =
      { Handle.poolOptions o d with createDirectories := false } := by
  unfold Handle.poolOptions
  split <;> rfl

theorem connect_eq_connectBelow (hdetect : detect d = .ok .sqlite)
    (h : "sqlite:".toList.isPrefixOf (Text.trimStart d.toList) = true)
    (hmemory : isMemory d = false) (ho : o.createDirectories = true) :
    Handle.connect o d files = connectBelow (sqlitePath d) o d files := by
  simp only [connectBelow, Handle.connect, hdetect, Handle.connectSqlite, hmemory, ho,
    makeDirectories_of_isPrefixOf h, poolOptions_createDirectories]
  cases files.makeParents? (sqlitePath d) with
  | none => rfl
  | some made => rfl

end Opening

/-- The name of a file ends it at the first question mark of its path, and it is the directories
above that place that are made. The rest of the path becomes the beginning of the query, before the
parameters. -/
theorem resolve_of_path (hpath : c.path = some p) (h : resolve env c = .ok d) :
    let file := String.ofList (p.toList.takeWhile (· ≠ '?'))
    (∃ params, (c.params.getD []).mapM (sqliteParameter env) = .ok params ∧ sqliteParts d =
      (file.toList, some (queryBehind p.toList (queryText (sortedParams (withMode params)))))) ∧
    (sqlitePath d = p ↔ '?' ∉ p.toList) ∧
    ∀ (o : ConnectOptions) (files : Files), o.createDirectories = true → isMemory d = false →
      Handle.connect o d files = connectBelow file o d files := by
  intro file
  obtain ⟨-, -, -, params, hparams, rfl⟩ := (resolve_of_path_iff hpath).1 h
  have hne := sortedParams_withMode_ne_nil params
  have hparts := sqliteParts_withParams (p := p) hne
  have hfile :
      sqlitePath (withParams ("sqlite://" ++ p) (sortedParams (withMode params))) = file := by
    rw [sqlitePath, hparts]
  refine ⟨⟨params, hparams, by rw [hparts, String.toList_ofList]⟩, ?_, fun o files ho hmemory => ?_⟩
  · rw [hfile]
    exact takeWhile_mark_eq_iff
  · have hscheme := toList_withParams ("sqlite://" ++ p) hne
    rw [String.toList_append, List.append_assoc] at hscheme
    rw [← hfile]
    exact connect_eq_connectBelow (detect_of_scheme hscheme)
      (isPrefixOf_of_scheme hscheme) hmemory ho

def fileSettings (path : String) (params : List (String × String)) : ConnectionSettings :=
  { engine := some .sqlite, dsn := none, host := none, port := none, user := none, password := none,
    database := none, path := some path, params := some params, pool := none }

theorem resolve_of_path_read_only :
    let c := fileSettings "var/app.db" [("mode", "$\x7bMODE\x7d")]
    let env := fun name => if name = "MODE" then some "ro" else none
    let file := String.ofList ("var/app.db".toList.takeWhile (· ≠ '?'))
    c.path = some "var/app.db" ∧ resolve env c = .ok "sqlite://var/app.db?mode=ro" ∧
      (∃ params, (c.params.getD []).mapM (sqliteParameter env) = .ok params ∧
        sqliteParts "sqlite://var/app.db?mode=ro" =
          (file.toList,
            some (queryBehind "var/app.db".toList (queryText (sortedParams (withMode params)))))) ∧
      (sqlitePath "sqlite://var/app.db?mode=ro" = "var/app.db" ↔ '?' ∉ "var/app.db".toList) ∧
      ∀ (o : ConnectOptions) (files : Files), o.createDirectories = true →
        isMemory "sqlite://var/app.db?mode=ro" = false →
        Handle.connect o "sqlite://var/app.db?mode=ro" files =
          connectBelow file o "sqlite://var/app.db?mode=ro" files := by
  intro c env file
  have hresolve : resolve env c = .ok "sqlite://var/app.db?mode=ro" := by decide +kernel
  exact ⟨rfl, hresolve, resolve_of_path rfl hresolve⟩

/-- With a question mark in its path, the name of a file is that of another one. -/
theorem mark_ends_path :
    let c := fileSettings "a?b.db" []
    resolve (fun _ => none) c = .ok "sqlite://a?b.db&mode=rwc" ∧
      sqlitePath "sqlite://a?b.db&mode=rwc" = "a" ∧ c.path ≠ some "a" := by
  decide +kernel

end Dsn

end QueryMapping
