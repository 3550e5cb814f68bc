import QueryMapping.Proofs.Dsn.Database
import QueryMapping.Proofs.Dsn.Sqlite
import QueryMapping.Proofs.Url.Form
import QueryMapping.Proofs.Url.Reread

/-! What settings leave of the data source name that they begin with: its engine, and every part of
its URL that no field is set for. A name can still be read otherwise than it was put together, and
it is said here when. -/

namespace QueryMapping

namespace Dsn

open Url (Authority pairBytes)

variable {env : Environment} {c : ConnectionSettings} {d text : String} {engine : Engine}
    {base : Option String}
  {u v w : Url} {cs rest : List Char} {params : List (String × String)}

/-! ### Engines -/

def engineName (cs : List Char) : List Char := (Text.trimStart cs).takeWhile (· ≠ ':')

def engineNames : List (List Char) :=
  ["postgres".toList, "postgresql".toList, "mysql".toList, "sqlite".toList]

theorem mem_engineNames_of_detect (h : detect text = .ok engine) :
    engineName text.toList ∈ engineNames := by
  have hname (name : String)
    (heq : String.ofList ((Text.trimStart text.toList).takeWhile (· ≠ ':')) = name) :
      engineName text.toList = name.toList := by
    rw [← heq, String.toList_ofList, engineName]
  rw [detect] at h
  split at h
  · next heq => exact hname _ heq ▸ by decide
  · next heq => exact hname _ heq ▸ by decide
  · next heq => exact hname _ heq ▸ by decide
  · next heq => exact hname _ heq ▸ by decide
  · cases h

theorem detect_of_engineName (hname : engineName d.toList = engineName text.toList)
    (h : detect text = .ok engine) :
    detect d = .ok engine := by
  unfold engineName at hname
  unfold detect at h ⊢
  rw [hname]
  split at h
  all_goals first | exact h | cases h

theorem of_mem_engineNames {name : List Char} (hname : name ∈ engineNames) : name ≠ [] ∧
    (∀ c ∈ name, 0x20 < c.toNat ∧ Text.isBlank c = false ∧ c ∉ [':', '?', '&']) ∧
    name.map Char.toLower = name := by
  have hall : ∀ name ∈ engineNames, name ≠ [] ∧
      name.all (fun c => 0x20 < c.toNat ∧ Text.isBlank c = false ∧ c ∉ [':', '?', '&']) = true ∧
      name.map Char.toLower = name := by decide
  exact (hall name hname).imp_right (And.imp_left List.all_iff_forall_prop.1)

theorem takeWhile_colon {name : List Char} (hname : ':' ∉ name) (rest : List Char) :
    (name ++ ':' :: rest).takeWhile (· ≠ ':') = name := by
  rw [List.takeWhile_append_of_pos (Url.ne_mark_of_mem hname), List.takeWhile_cons_of_neg (by simp),
    List.append_nil]

theorem engineName_append {name : List Char} (hname : name ∈ engineNames) (rest : List Char) :
    engineName (name ++ ':' :: rest) = name := by
  obtain ⟨hne, hchars, -⟩ := of_mem_engineNames hname
  obtain ⟨c, cs, rfl⟩ := List.exists_cons_of_ne_nil hne
  rw [engineName, List.cons_append,
    Text.trimStart_cons_of_not_blank (hchars c List.mem_cons_self).2.1, ← List.cons_append,
    takeWhile_colon fun hmem => (hchars _ hmem).2.2 List.mem_cons_self]

theorem dropWhile_isControlOrSpace_eq {c : Char} (hname : engineName cs ∈ engineNames)
    (hhead : (cs.dropWhile Url.isControlOrSpace).head? = some c) (hc : Text.isBlank c = false) :
    cs.dropWhile Url.isControlOrSpace = Text.trimStart cs := by
  obtain ⟨hne, hchars, -⟩ := of_mem_engineNames hname
  obtain ⟨first, more, hfirst⟩ := List.exists_cons_of_ne_nil hne
  have htrim : ∃ tail, Text.trimStart cs = first :: tail := by
    rw [engineName] at hfirst
    cases htext : Text.trimStart cs with
    | nil =>
      rw [htext] at hfirst
      cases hfirst
    | cons a tail =>
      rw [htext, List.takeWhile_cons] at hfirst
      split at hfirst
      · exact ⟨tail, by rw [(List.cons.inj hfirst).1]⟩
      · cases hfirst
  obtain ⟨tail, htail⟩ := htrim
  obtain ⟨rest, hrest⟩ := List.head?_eq_some_iff.1 hhead
  have hcut : cs.takeWhile Url.isControlOrSpace ++ c :: rest =
      cs.takeWhile Text.isBlank ++ first :: tail := by
    rw [← hrest, List.takeWhile_append_dropWhile, ← htail]
    exact (List.takeWhile_append_dropWhile (p := Text.isBlank)).symm
  have hfirst' := hchars first (hfirst ▸ List.mem_cons_self)
  rw [hrest, htail]
  refine tail_eq_of_append_eq hcut (fun hmem => ?_) fun hmem => ?_
  · rw [List.mem_takeWhile_imp hmem] at hc
    cases hc
  · exact Url.not_isControlOrSpace_iff.2 hfirst'.1 (List.mem_takeWhile_imp hmem)

theorem dropWhile_isControlOrSpace_of_alpha (hname : engineName cs ∈ engineNames)
    (halpha : (Url.significant cs).head?.any Char.isAlpha = true) :
    cs.dropWhile Url.isControlOrSpace = Text.trimStart cs := by
  rw [Url.significant_eq] at halpha
  cases hdrop : cs.dropWhile Url.isControlOrSpace with
  | nil =>
    rw [hdrop] at halpha
    cases halpha
  | cons c rest =>
    have hc : ¬ Url.isControlOrSpace c = true := by
      have hnot := List.head?_dropWhile_not Url.isControlOrSpace cs
      rw [hdrop] at hnot
      exact Bool.eq_false_iff.1 hnot
    have hvisible : ∀ d ∈ [c], 0x20 < d.toNat := by simpa using Url.not_isControlOrSpace_iff.1 hc
    rw [hdrop, ← List.singleton_append, Url.significantEnd_append hvisible] at halpha
    have hchar : Text.isNameChar c = true := by
      have hletter : c.isAlpha = true := halpha
      simp [Text.isNameChar, Char.isAlphanum, hletter]
    rw [← hdrop]
    exact dropWhile_isControlOrSpace_eq hname (by rw [hdrop]; rfl)
      (Text.isBlank_of_isNameChar hchar)

theorem eq_of_append_significantEnd {as name more : List Char} (has : ':' ∉ as) (hname : ':' ∉ name)
    (hrest : ∀ c ∈ rest.head?, c = ':') (h : as ++ Url.significantEnd rest = name ++ ':' :: more) :
    as = name := by
  cases rest with
  | nil =>
    change as ++ [] = _ at h
    rw [List.append_nil] at h
    exact absurd (h ▸ List.mem_append_right _ List.mem_cons_self) has
  | cons c rest =>
    obtain rfl := hrest c rfl
    have hvisible : ∀ c ∈ [':'], 0x20 < c.toNat := List.forall_mem_singleton.2 (by decide)
    rw [← List.singleton_append, Url.significantEnd_append hvisible, List.singleton_append] at h
    have htake := congrArg (List.takeWhile (· ≠ ':')) h
    rwa [takeWhile_colon has, takeWhile_colon hname] at htake

theorem scheme_eq_engineName (hdetect : detect text = .ok engine)
    (hparse : Url.parse text.toList = .ok u) :
    u.scheme = engineName text.toList := by
  have hname := mem_engineNames_of_detect hdetect
  obtain ⟨-, hchars, hlower⟩ := of_mem_engineNames hname
  obtain ⟨rest, hscheme, -⟩ := Url.exists_of_parse hparse
  obtain ⟨name, htext, hlow, hnameChars, hhead⟩ := Url.exists_of_scheme? hscheme
  have htrim := dropWhile_isControlOrSpace_of_alpha hname hhead
  generalize text.toList = cs at *
  have hsplit : Text.trimStart cs = engineName cs ++ (Text.trimStart cs).dropWhile (· ≠ ':') :=
    (List.takeWhile_append_dropWhile ..).symm
  have hvisible : ∀ c ∈ engineName cs, 0x20 < c.toNat := fun c hc => (hchars c hc).1
  rw [Url.significant_eq, htrim, hsplit, Url.significantEnd_append hvisible] at htext
  have hcolon : ':' ∉ engineName cs := fun hmem => (hchars _ hmem).2.2 List.mem_cons_self
  have hnameColon : ':' ∉ name := fun hmem => absurd (hnameChars _ hmem) (by decide)
  have hmark : ∀ c ∈ ((Text.trimStart cs).dropWhile (· ≠ ':')).head?, c = ':' := by
    intro c hc
    have hnot := List.head?_dropWhile_not (· ≠ ':') (Text.trimStart cs)
    rw [Option.mem_def.1 hc] at hnot
    simpa using hnot
  rw [hlow, ← eq_of_append_significantEnd hcolon hnameColon hmark htext, hlower]

theorem detect_write (hscheme : u.scheme = engineName text.toList)
    (hdetect : detect text = .ok engine) :
    detect (String.ofList u.write) = .ok engine := by
  refine detect_of_engineName ?_ hdetect
  rw [String.toList_ofList, u.write_eq, List.append_assoc, List.singleton_append, hscheme]
  exact engineName_append (mem_engineNames_of_detect hdetect) _

theorem engineName_append_of_colon (hcolon : ':' ∈ cs) (rest : List Char) :
    engineName (cs ++ rest) = engineName cs := by
  have hmem : ':' ∈ Text.trimStart cs := by
    rw [← List.takeWhile_append_dropWhile (p := Text.isBlank) (l := cs)] at hcolon
    refine (List.mem_append.1 hcolon).resolve_left fun hblank => ?_
    exact absurd (List.mem_takeWhile_imp hblank) (by decide)
  obtain ⟨before, after, heq, hbefore⟩ := List.eq_append_cons_of_mem hmem
  rw [engineName, engineName, Text.trimStart_append (List.ne_nil_of_mem hmem), heq,
    List.append_assoc, List.cons_append, takeWhile_colon hbefore, takeWhile_colon hbefore]

/-! ### Parts -/

/-- The parts of a URL that no field is set for are those of the URL before. -/
structure KeepsUnset (c : ConnectionSettings) (u v : Url) : Prop where
  scheme : v.scheme = u.scheme
  host : c.host = none → v.authority.map Authority.host = u.authority.map Authority.host
  port : c.port = none → v.authorityOrBlank.port = u.authorityOrBlank.port
  user : c.user = none → v.authorityOrBlank.username = u.authorityOrBlank.username
  password : c.password = none → v.authorityOrBlank.password = u.authorityOrBlank.password
  path : c.database = none → v.path = u.path
  query : c.params.getD [] = [] → v.query = u.query
  pairs : u.pairs <+: v.pairs
  fragment : v.fragment = u.fragment
  bare : v.authority = none → u.authority = none ∧ v.setOff = u.setOff
  unqueried : v.query = none → u.query = none

namespace KeepsUnset

theorem refl (c : ConnectionSettings) (u : Url) : KeepsUnset c u u :=
  ⟨rfl, fun _ => rfl, fun _ => rfl, fun _ => rfl, fun _ => rfl, fun _ => rfl, fun _ => rfl,
    List.prefix_rfl, rfl, fun hnone => ⟨hnone, rfl⟩, id⟩

theorem trans (h : KeepsUnset c u v) (h' : KeepsUnset c v w) : KeepsUnset c u w :=
  ⟨h'.scheme.trans h.scheme, fun hnone => (h'.host hnone).trans (h.host hnone),
    fun hnone => (h'.port hnone).trans (h.port hnone), fun hnone =>
      (h'.user hnone).trans (h.user hnone),
    fun hnone => (h'.password hnone).trans (h.password hnone), fun hnone =>
      (h'.path hnone).trans (h.path hnone),
    fun hnone => (h'.query hnone).trans (h.query hnone), h.pairs.trans h'.pairs,
      h'.fragment.trans h.fragment,
    fun hnone => (h.bare (h'.bare hnone).1).imp_right (h'.bare hnone).2.trans,
    fun hnone => h.unqueried (h'.unqueried hnone)⟩

theorem of_modifyAuthority? {f : Authority → Authority} (h : u.modifyAuthority? f = some v)
    (hhost : ∀ a, (f a).host = a.host) (hport : c.port = none → ∀ a, (f a).port = a.port)
    (huser : c.user = none → ∀ a, (f a).username = a.username)
    (hpassword : c.password = none → ∀ a, (f a).password = a.password) : KeepsUnset c u v := by
  have hparts := Url.authorityOrBlank_of_modifyAuthority? h
  obtain ⟨a, ha, -, rfl⟩ := Url.modifyAuthority?_eq_some_iff.1 h
  refine ⟨rfl, fun _ => ?_, fun hnone => ?_, fun hnone => ?_, fun hnone => ?_, fun _ => rfl,
    fun _ => rfl, List.prefix_rfl, rfl, nofun, id⟩
  · rw [ha, Option.map_some, Option.map_some, hhost]
  · rw [hparts, hport hnone]
  · rw [hparts, huser hnone]
  · rw [hparts, hpassword hnone]

end KeepsUnset

theorem keeps_withHost (h : withHost c.host u = .ok v) : KeepsUnset c u v := by
  cases hfield : c.host with
  | none =>
    rw [hfield] at h
    exact Except.ok.inj h ▸ .refl c u
  | some text =>
    rw [hfield] at h
    obtain ⟨-, part, host, -, -, rfl⟩ := Url.setHost_eq_ok_iff.1 (mapError_eq_ok_iff.1 h)
    refine { KeepsUnset.refl c u with host := fun hnone => ?_, bare := nofun }
    rw [hfield] at hnone
    cases hnone

theorem keeps_withPort (h : withPort c.port u = .ok v) : KeepsUnset c u v := by
  cases hfield : c.port with
  | none =>
    rw [hfield] at h
    exact Except.ok.inj h ▸ .refl c u
  | some p =>
    rw [hfield] at h
    have hset := orFail_eq_ok_iff.1 h
    have hrest := KeepsUnset.of_modifyAuthority? (c := c) hset (fun _ => rfl) (by simp [hfield])
      (fun _ _ => rfl)
      (fun _ _ => rfl)
    obtain ⟨a, setOff, -, -, -, rfl⟩ := Url.eq_of_setPort? hset
    exact { hrest with bare := nofun }

theorem keeps_withUser (h : withUser c.user u = .ok v) : KeepsUnset c u v := by
  cases hfield : c.user with
  | none =>
    rw [hfield] at h
    exact Except.ok.inj h ▸ .refl c u
  | some text =>
    rw [hfield] at h
    exact .of_modifyAuthority? (orFail_eq_ok_iff.1 h) (fun _ => rfl) (fun _ _ => rfl)
      (by simp [hfield])
      (fun _ _ => rfl)

theorem keeps_withPassword (h : withPassword env c.password u = .ok v) : KeepsUnset c u v := by
  cases hfield : c.password with
  | none =>
    rw [hfield] at h
    exact Except.ok.inj h ▸ .refl c u
  | some text =>
    rw [hfield] at h
    obtain ⟨value, -, h⟩ := bind_eq_ok_iff.1 h
    exact .of_modifyAuthority? (orFail_eq_ok_iff.1 h) (fun _ => rfl) (fun _ _ => rfl)
      (fun _ _ => rfl)
      (by simp [hfield])

theorem keeps_withDatabase (h : withDatabase engine c.database u = .ok v) : KeepsUnset c u v := by
  cases hfield : c.database with
  | none =>
    rw [hfield, withDatabase] at h
    split at h
    · cases h
    · exact Except.ok.inj h ▸ .refl c u
  | some name =>
    rw [hfield] at h
    obtain rfl := Except.ok.inj h
    have hpath : ∃ path, u.setPath name.toList = { u with path } := by
      rw [Url.setPath]
      split
      · exact ⟨_, rfl⟩
      · exact ⟨_, rfl⟩
    obtain ⟨path, hpath⟩ := hpath
    rw [hpath]
    refine { KeepsUnset.refl c u with path := fun hnone => ?_ }
    rw [hfield] at hnone
    cases hnone

def Expands (env : Environment) (param value : String × String) : Prop :=
  value.1 = param.1 ∧ expanded env param.2 = .ok value.2

def paramBytes (param : String × String) : List UInt8 × List UInt8 :=
  pairBytes (param.1.toList, param.2.toList)

theorem pairs_withQuery (h : withQuery env params u = .ok v) :
    ∃ values, List.Forall₂ (Expands env) params values ∧
    v.pairs = u.pairs ++ values.map paramBytes := by
  induction params generalizing u with
  | nil =>
    obtain rfl := Except.ok.inj h
    exact ⟨[], .nil, by rw [List.map_nil, List.append_nil]⟩
  | cons param rest ih =>
    obtain ⟨w, hw, hrest⟩ := bind_eq_ok_iff.1 h
    obtain ⟨value, hvalue, hw⟩ := bind_eq_ok_iff.1 hw
    obtain rfl := Except.ok.inj hw
    obtain ⟨values, hvalues, hpairs⟩ := ih hrest
    refine ⟨(param.1, value) :: values, .cons ⟨rfl, hvalue⟩ hvalues, ?_⟩
    rw [hpairs, Url.pairs_appendPair, List.append_assoc, List.singleton_append,
      List.map_cons, paramBytes]

theorem unqueried_withQuery (h : withQuery env params u = .ok v) (hnone : v.query = none) :
    u.query = none := by
  induction params generalizing u with
  | nil => rwa [Except.ok.inj h]
  | cons param rest ih =>
    obtain ⟨w, hw, hrest⟩ := bind_eq_ok_iff.1 h
    obtain ⟨value, -, hw⟩ := bind_eq_ok_iff.1 hw
    obtain rfl := Except.ok.inj hw
    obtain ⟨query, heq⟩ := appendPair_eq u (param.1.toList, value.toList)
    have hquery := ih hrest
    rw [heq] at hquery
    cases hquery

theorem keeps_withQuery (h : withQuery env (sortedParams (c.params.getD [])) u = .ok v) :
    KeepsUnset c u v := by
  obtain ⟨values, -, hpairs⟩ := pairs_withQuery h
  obtain ⟨⟨query, rfl⟩, -⟩ := withQuery_eq h
  refine { KeepsUnset.refl c u with
    query := fun hnil => ?_
    pairs := ⟨_, hpairs.symm⟩
    unqueried := fun hnone => ?_ }
  · rw [hnil, sortedParams_eq_nil_iff.2 rfl] at h
    exact (congrArg Url.query (Except.ok.inj h)).symm
  · exact unqueried_withQuery h hnone

theorem keeps_withServer (h : withServer env c u = .ok v) : KeepsUnset c u v := by
  obtain ⟨u₁, hhost, h⟩ := bind_eq_ok_iff.1 h
  obtain ⟨u₂, hport, h⟩ := bind_eq_ok_iff.1 h
  obtain ⟨u₃, huser, hpassword⟩ := bind_eq_ok_iff.1 h
  exact (keeps_withHost hhost).trans ((keeps_withPort hport).trans ((keeps_withUser huser).trans
    (keeps_withPassword hpassword)))

theorem keeps_withFields (h : withFields env c engine u = .ok v) : KeepsUnset c u v := by
  rw [withFields_eq] at h
  obtain ⟨u₁, hserver, h⟩ := bind_eq_ok_iff.1 h
  obtain ⟨u₂, hdatabase, hquery⟩ := bind_eq_ok_iff.1 h
  exact (keeps_withServer hserver).trans
    ((keeps_withDatabase hdatabase).trans (keeps_withQuery hquery))

/-! ### Whole names -/

structure Chooses (c : ConnectionSettings) (base : Option String) (engine : Engine) : Prop where
  configured : ∀ e ∈ c.engine, engine = e
  named : c.engine = none → ∃ text ∈ base, detect text = .ok engine

theorem chooses_of_engineOf (h : engineOf c.engine base = .ok engine) : Chooses c base engine := by
  cases base with
  | none =>
    have hconfigured := engineOf_none_iff.1 h
    refine ⟨fun e he => ?_, fun hnone => ?_⟩
    · exact Option.some.inj (hconfigured.symm.trans he)
    · rw [hnone] at hconfigured
      cases hconfigured
  | some text =>
    obtain ⟨hdetect, hconfigured⟩ := engineOf_some_iff.1 h
    exact ⟨fun e he => (hconfigured e he).symm, fun _ => ⟨text, rfl, hdetect⟩⟩

theorem scheme_baseUrl (hengine : engineOf c.engine base = .ok engine) (hserver : engine ≠ .sqlite)
    (h : baseUrl engine base = .ok u) :
    ∃ text : String, u.scheme = engineName text.toList ∧ detect text = .ok engine := by
  cases base with
  | some text =>
    have hdetect := (engineOf_some_iff.1 hengine).1
    exact ⟨text, scheme_eq_engineName hdetect (mapError_eq_ok_iff.1 h), hdetect⟩
  | none =>
    obtain rfl := Except.ok.inj h
    cases engine with
    | postgres => exact ⟨"postgres", by decide, rfl⟩
    | mysql => exact ⟨"mysql", by decide, rfl⟩
    | sqlite => exact absurd rfl hserver

theorem cases_of_resolve (h : resolve env c = .ok d) :
    ∃ base engine, c.dsn.mapM (expanded env) = .ok base ∧
    engineOf c.engine base = .ok engine ∧ (engine = .sqlite ∧ sqliteDsn env c base = .ok d ∨
      engine ≠ .sqlite ∧ ∃ start u, baseUrl engine base = .ok start ∧
      withFields env c engine start = .ok u ∧
        d = String.ofList u.write) := by
  have hsteps := h
  obtain ⟨base, hbase, hrest⟩ := bind_eq_ok_iff.1 hsteps
  obtain ⟨engine, hengine, -⟩ := bind_eq_ok_iff.1 hrest
  rw [resolve_of_engine hbase hengine] at h
  refine ⟨base, engine, hbase, hengine, ?_⟩
  split at h
  · next hsqlite => exact .inl ⟨hsqlite, h⟩
  · next hserver => exact .inr ⟨hserver, exists_fields h⟩

/-- What is appended to a name without a colon becomes part of its engine's name. -/
theorem detect_withParams (hdetect : detect text = .ok engine) (hne : params ≠ []) :
    detect (withParams text params) = .ok engine ↔ ':' ∈ text.toList := by
  have hname := mem_engineNames_of_detect hdetect
  have htext := toList_withParams text hne
  have hmark : (if '?' ∈ text.toList then '&' else '?') ∈ ['?', '&'] := by split <;> decide
  generalize (if '?' ∈ text.toList then '&' else '?') = mark at htext hmark
  refine ⟨fun h => ?_, fun hcolon => ?_⟩
  · by_contra hcolon
    have hbefore : ∀ c ∈ Text.trimStart text.toList, decide (c ≠ ':') = true :=
      Url.ne_mark_of_mem fun hmem => hcolon ((List.dropWhile_sublist _).subset hmem)
    have hwhole : engineName text.toList = Text.trimStart text.toList :=
      List.takeWhile_eq_self_iff.2 hbefore
    have htrim : Text.trimStart text.toList ≠ [] := hwhole ▸ (of_mem_engineNames hname).1
    have hcut : ∀ mark ∈ ['?', '&'], decide (mark ≠ ':') = true := List.all_eq_true.1 (by decide)
    have hmem : mark ∈ engineName (withParams text params).toList := by
      rw [htext, engineName, Text.trimStart_append htrim, List.takeWhile_append_of_pos hbefore]
      refine List.mem_append_right _ ?_
      rw [List.takeWhile_cons_of_pos]
      · exact List.mem_cons_self
      · exact hcut mark hmark
    exact ((of_mem_engineNames (mem_engineNames_of_detect h)).2.1 mark hmem).2.2
      (List.mem_cons_of_mem _ hmark)
  · refine detect_of_engineName ?_ hdetect
    rw [htext, engineName_append_of_colon hcolon]

theorem exists_path_of_sqliteDsn (h : sqliteDsn env c none = .ok d) : ∃ p, c.path = some p := by
  rw [sqliteDsn_eq] at h
  obtain ⟨start, hstart, -⟩ := bind_eq_ok_iff.1 h
  obtain ⟨-, ⟨text, hbase, -⟩ | ⟨p, -, hpath, -⟩⟩ := sqliteStart_eq_ok_iff.1 hstart
  · cases hbase
  · exact ⟨p, hpath⟩

theorem detect_sqliteDsn (hengine : engineOf c.engine base = .ok .sqlite)
    (h : sqliteDsn env c base = .ok d) :
    detect d = .ok .sqlite ↔ ∀ text ∈ base, ':' ∈ text.toList ∨ c.params.getD [] = [] := by
  cases base with
  | none =>
    obtain ⟨p, hpath⟩ := exists_path_of_sqliteDsn h
    obtain ⟨-, -, params, -, rfl⟩ := (sqliteDsn_of_path_iff hpath).1 h
    have htext := toList_withParams ("sqlite://" ++ p) (sortedParams_withMode_ne_nil params)
    rw [String.toList_append, List.append_assoc] at htext
    exact iff_of_true (detect_of_scheme htext) nofun
  | some text =>
    have hdetect := (engineOf_some_iff.1 hengine).1
    obtain ⟨-, -, params, hparams, rfl⟩ := sqliteDsn_of_base_iff.1 h
    have hempty : c.params.getD [] = [] ↔ sortedParams params = [] := by
      have hlength := (mapM_eq_ok_iff.1 hparams).length_eq
      rw [sortedParams_eq_nil_iff, ← List.length_eq_zero_iff, ← List.length_eq_zero_iff, hlength]
    rw [hempty]
    by_cases hnil : sortedParams params = []
    · rw [hnil]
      exact iff_of_true hdetect fun _ _ => .inr rfl
    · simp only [hnil, or_false, Option.mem_some_iff, forall_eq']
      exact detect_withParams hdetect hnil

/-! ### Legible names -/

theorem isRead_baseUrl (h : baseUrl engine base = .ok u) : u.IsRead := by
  cases base with
  | some text => exact Url.isRead_of_parse (mapError_eq_ok_iff.1 h)
  | none =>
    obtain rfl := Except.ok.inj h
    exact ⟨rfl, fun a ha hempty => by (obtain rfl := Option.some.inj ha; cases hempty),
      nofun, nofun⟩

namespace KeepsUnset

variable {start : Url} (h : KeepsUnset c start u)
include h

theorem isOpaque_of_path (hpath : u.path = start.path) (hform : u.isOpaque = true) :
    start.isOpaque = true := by
  rw [Url.isOpaque, Bool.and_eq_true, Bool.and_eq_true, Option.isNone_iff_eq_none] at hform
  obtain ⟨hnone, hsetOff⟩ := h.bare hform.1.1
  rw [Url.isOpaque, hnone, ← hsetOff, ← hpath, hform.1.2, hform.2]
  rfl

theorem eq_blank {a : Authority} (hread : start.IsRead) (hhost : c.host = none)
    (hunset : c.port = none ∧ c.user = none ∧ c.password = none) (ha : u.authority = some a)
    (hempty : a.host = .empty) :
    a = .blank := by
  have hsame := h.host hhost
  rw [ha, Option.map_some, hempty] at hsame
  obtain ⟨b, hb, hbhost⟩ := Option.map_eq_some_iff.1 hsame.symm
  have hstart : start.authorityOrBlank = .blank := by
    rw [Url.authorityOrBlank, hb, Option.getD_some, hread.blank b hb hbhost]
  have hblank : u.authorityOrBlank = a := by rw [Url.authorityOrBlank, ha, Option.getD_some]
  have hport := h.port hunset.1
  have huser := h.user hunset.2.1
  have hpassword := h.password hunset.2.2
  rw [hblank, hstart] at hport huser hpassword
  obtain ⟨user, password, host, port⟩ := a
  obtain rfl : host = .empty := hempty
  obtain rfl : port = none := hport
  obtain rfl : user = [] := huser
  obtain rfl : password = [] := hpassword
  rfl

theorem isLegible (hread : start.IsRead) (hhost : c.host = none) (hdatabase : c.database = none)
    (hunset : u.hasHost = false → c.port = none ∧ c.user = none ∧ c.password = none) :
    u.IsLegible := by
  have hpath := h.path hdatabase
  refine ⟨fun a ha hempty => ?_, fun hnone hsetOff => ?_, fun hform => ?_, fun hform hend => ?_⟩
  · have hunnamed : u.hasHost = false := by
      rw [Url.hasHost, Option.mem_def.1 ha, Option.any_some, hempty]
      rfl
    exact h.eq_blank hread hhost (hunset hunnamed) ha hempty
  · obtain ⟨hnone', hsetOff'⟩ := h.bare hnone
    have hslashes := hread.setOff
    rw [← hsetOff', hsetOff, hnone', Option.isNone_none, Bool.true_and, ← hpath] at hslashes
    rw [← List.isPrefixOf_iff_prefix, ← hslashes]
    exact Bool.false_ne_true
  · rw [hpath]
    exact hread.path (h.isOpaque_of_path hpath hform)
  · rw [Url.endText_eq_nil_iff] at hend
    rw [hpath]
    exact hread.space (h.isOpaque_of_path hpath hform)
      (Url.endText_eq_nil_iff.2 ⟨h.unqueried hend.1, h.fragment ▸ hend.2⟩)

end KeepsUnset

/-- Whatever fields are set, the URL of a server is legible where it names a host, and where neither
its host nor its database is set. -/
theorem isLegible_withFields {start : Url} (hport : ∀ p ∈ c.port, p ≤ 65535) (hread : start.IsRead)
    (h : withFields env c engine start = .ok u)
    (hcase : u.hasHost = true ∨ c.host = none ∧ c.database = none) :
    u.IsLegible := by
  rcases hcase with hhost | ⟨hhost, hdatabase⟩
  · exact Url.isLegible_of_hasHost hhost
  · refine (keeps_withFields h).isLegible hread hhost hdatabase fun hunnamed => ?_
    -- Only a named host takes a port, a user or a password.
    have hunset := mt (carries_withFields hport h).1.named (Bool.eq_false_iff.1 hunnamed)
    rwa [not_or, not_or, Option.not_isSome_iff_eq_none, Option.not_isSome_iff_eq_none,
      Option.not_isSome_iff_eq_none] at hunset

/-- The data source name names the engine that is chosen, unless it is the name of an SQLite
database without a colon that parameters are appended to. The name of a server is written from a URL
that keeps what no field is set for, and it is read as that URL just if the URL is legible. -/
theorem resolve_keeps_unset (hport : ∀ p ∈ c.port, p ≤ 65535) (h : resolve env c = .ok d) :
    ∃ base engine, c.dsn.mapM (expanded env) = .ok base ∧ Chooses c base engine ∧
      (detect d = .ok engine ↔
        (engine = .sqlite → ∀ text ∈ base, ':' ∈ text.toList ∨ c.params.getD [] = [])) ∧
      (engine ≠ .sqlite → ∃ start u, baseUrl engine base = .ok start ∧ d = String.ofList u.write ∧
        KeepsUnset c start u ∧ (Url.parse d.toList = .ok u.reread ↔ u.IsLegible) ∧
        (u.hasHost = true ∨ c.host = none ∧ c.database = none → u.IsLegible)) := by
  obtain ⟨base, engine, hbase, hengine, ⟨rfl, hdsn⟩ | ⟨hserver, start, u, hstart, hu, rfl⟩⟩ :=
    cases_of_resolve h
  · refine ⟨base, .sqlite, hbase, chooses_of_engineOf hengine, ?_,
      fun hserver => absurd rfl hserver⟩
    rw [detect_sqliteDsn hengine hdsn]
    exact ⟨fun h _ => h, fun h => h rfl⟩
  · have hkeeps := keeps_withFields hu
    obtain ⟨text, hscheme, hdetect⟩ := scheme_baseUrl hengine hserver hstart
    have hnormal := (carries_withFields hport hu).2 (normal_baseUrl hstart)
    have hnames := detect_write (hkeeps.scheme.trans hscheme) hdetect
    refine ⟨base, engine, hbase, chooses_of_engineOf hengine,
      iff_of_true hnames fun heq => absurd heq hserver, fun _ =>
        ⟨start, u, hstart, rfl, hkeeps, ?_, isLegible_withFields hport (isRead_baseUrl hstart) hu⟩⟩
    rw [String.toList_ofList]
    exact hnormal.parse_write_iff

def dsnSettings (dsn : String) (database : Option String) (params : List (String × String)) :
    ConnectionSettings :=
  { engine := none, dsn := some dsn, host := none, port := none, user := none, password := none,
    database, path := none, params := some params, pool := none }

theorem resolve_keeps_unset_user :
    let c := dsnSettings "postgres://u:p@h:1/old?a=1#f" (some "new") [("b", "x&y")]
    let d := "postgres://u:p@h:1/new?a=1&b=x%26y#f"
    (∀ p ∈ c.port, p ≤ 65535) ∧ resolve (fun _ => none) c = .ok d ∧
      ∃ base engine, c.dsn.mapM (expanded fun _ => none) = .ok base ∧ Chooses c base engine ∧
        (detect d = .ok engine ↔
          (engine = .sqlite → ∀ text ∈ base, ':' ∈ text.toList ∨ c.params.getD [] = [])) ∧
        (engine ≠ .sqlite → ∃ start u, baseUrl engine base = .ok start ∧ d = String.ofList u.write ∧
          KeepsUnset c start u ∧ (Url.parse d.toList = .ok u.reread ↔ u.IsLegible) ∧
          (u.hasHost = true ∨ c.host = none ∧ c.database = none → u.IsLegible)) := by
  intro c d
  have hport : ∀ p ∈ c.port, p ≤ 65535 := nofun
  have hresolve : resolve (fun _ => none) c = .ok d := by decide +kernel
  exact ⟨hport, hresolve, resolve_keeps_unset hport hresolve⟩

/-- A database whose name begins with a slash is taken for user, password and host where there is no
host, and the name of an engine without a colon is no name any more when parameters are appended. -/
theorem database_is_taken_for_host :
    let c := dsnSettings "postgres:/x" (some "/a:b@c/d") []
    let c' := dsnSettings "sqlite" none [("mode", "ro")]
    c.host = none ∧ c.user = none ∧ c.password = none ∧
      (Url.parse "postgres:/x".toList).map Url.authority = .ok none ∧
      resolve (fun _ => none) c = .ok "postgres://a:b@c/d" ∧
      (Url.parse "postgres://a:b@c/d".toList).map Url.authority =
        .ok (some ⟨['a'], ['b'], .name ['c'], none⟩) ∧
      detect "sqlite" = .ok .sqlite ∧ resolve (fun _ => none) c' = .ok "sqlite?mode=ro" ∧
      detect "sqlite?mode=ro" = .error (.unknownScheme "sqlite?mode=ro") := by
  decide +kernel

end Dsn

end QueryMapping
