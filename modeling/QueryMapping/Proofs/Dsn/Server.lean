import QueryMapping.Dsn.Resolve
import QueryMapping.Proofs.Failure
import QueryMapping.Proofs.Url.Edit

/-! What of the settings of a server its data source name holds. Every step sets one part of the URL
and leaves the others, so that each field is there as its setter made it. -/

namespace QueryMapping.Dsn

open Url (Authority Holds encode inUserinfoSet)

variable {env : Environment} {c : ConnectionSettings} {d : String} {engine : Engine}
    {base : Option String}
  {u v w : Url} {f g : Authority → Authority}

theorem orFail_eq_ok_iff {α : Type} {e : DsnError} {x : Option α} {a : α} :
    orFail e x = .ok a ↔ x = some a := by
  cases x <;> simp [orFail]

theorem orFail_ne {α : Type} {e e' : DsnError} {x : Option α} (h : e ≠ e') :
    orFail e x ≠ .error e' := by
  cases x <;> simp [orFail, h]

/-! ### Steps -/

structure Changes (f : Authority → Authority) (u v : Url) : Prop where
  authority : v.authorityOrBlank = f u.authorityOrBlank
  normal : u.IsNormal → v.IsNormal

theorem Changes.refl (u : Url) : Changes id u u := ⟨rfl, id⟩

theorem Changes.trans (h : Changes f u v) (h' : Changes g v w) : Changes (g ∘ f) u w :=
  ⟨by rw [h'.authority, h.authority]; rfl, fun hu => h'.normal (h.normal hu)⟩

theorem Changes.hasHost_eq (h : Changes f u v) (hf : ∀ a, (f a).host = a.host) :
    v.hasHost = u.hasHost := by
  rw [Url.hasHost_eq, Url.hasHost_eq, h.authority, hf]

theorem normal_withHost {host : Option String} (h : withHost host u = .ok v) (hu : u.IsNormal) :
    v.IsNormal := by
  cases host with
  | none => exact Except.ok.inj h ▸ hu
  | some text => exact hu.setHost (mapError_eq_ok_iff.1 h)

theorem names_withHost {text : String} (h : withHost (some text) u = .ok v) :
    v.authorityOrBlank.host.Names text.toList :=
  Url.setHost_names (mapError_eq_ok_iff.1 h)

theorem changes_withPort {port : Option Nat} (hport : ∀ p ∈ port, p ≤ 65535)
    (h : withPort port u = .ok v) :
    Changes (fun a => { a with port := port.or a.port }) u v := by
  cases port with
  | none => exact Except.ok.inj h ▸ .refl u
  | some p =>
    have hset := orFail_eq_ok_iff.1 h
    exact ⟨Url.authorityOrBlank_of_modifyAuthority? hset, fun hu => hu.setPort? (hport p rfl) hset⟩

theorem hasHost_of_withPort {port : Option Nat} (h : withPort port u = .ok v)
    (hport : port.isSome) :
    u.hasHost = true := by
  obtain ⟨p, rfl⟩ := Option.isSome_iff_exists.1 hport
  obtain ⟨a, -, ha, hnamed, -⟩ := Url.eq_of_setPort? (orFail_eq_ok_iff.1 h)
  rw [Url.hasHost, ha]
  exact decide_eq_true hnamed

theorem hasHost_of_withUser {user : Option String} (h : withUser user u = .ok v)
    (huser : user.isSome) :
    u.hasHost = true := by
  obtain ⟨text, rfl⟩ := Option.isSome_iff_exists.1 huser
  exact Url.hasHost_of_modifyAuthority? (orFail_eq_ok_iff.1 h)

theorem hasHost_of_withPassword {password : Option String} (h : withPassword env password u = .ok v)
    (hpassword : password.isSome) : u.hasHost = true := by
  obtain ⟨text, rfl⟩ := Option.isSome_iff_exists.1 hpassword
  obtain ⟨text', -, h⟩ := bind_eq_ok_iff.1 h
  exact Url.hasHost_of_modifyAuthority? (orFail_eq_ok_iff.1 h)

def userinfoOr (there : List Char) (text : Option String) : List Char :=
  text.elim there fun text => encode inUserinfoSet text.toList

theorem changes_withUser {user : Option String} (h : withUser user u = .ok v) :
    Changes (fun a => { a with username := userinfoOr a.username user }) u v := by
  cases user with
  | none => exact Except.ok.inj h ▸ .refl u
  | some text =>
    have hset := orFail_eq_ok_iff.1 h
    exact ⟨Url.authorityOrBlank_of_modifyAuthority? hset, fun hu => hu.setUsername? hset⟩

theorem changes_withPassword {password : Option String} (h : withPassword env password u = .ok v) :
    ∃ value, (∀ text ∈ password, ∃ text', expanded env text = .ok text' ∧ value = some text') ∧
      Changes (fun a => { a with password := userinfoOr a.password value }) u v := by
  cases password with
  | none =>
    obtain rfl := Except.ok.inj h
    exact ⟨none, fun text htext => (by cases htext), .refl u⟩
  | some text =>
    obtain ⟨text', htext', h⟩ := bind_eq_ok_iff.1 h
    have hset := orFail_eq_ok_iff.1 h
    refine ⟨some text', fun text htext => ?_, ?_, fun hu => hu.setPassword? hset⟩
    · exact Option.some.inj htext ▸ ⟨text', htext', rfl⟩
    · exact Url.authorityOrBlank_of_modifyAuthority? hset

theorem changes_withDatabase {database : Option String}
    (h : withDatabase engine database u = .ok v) :
    Changes id u v := by
  cases database with
  | none =>
    rw [withDatabase] at h
    split at h
    · cases h
    · exact Except.ok.inj h ▸ .refl u
  | some name =>
    obtain rfl := Except.ok.inj h
    refine ⟨?_, fun hu => hu.setPath name.toList⟩
    rw [Url.setPath]
    split <;> rfl

theorem literal_withDatabase {name : String} (h : withDatabase engine (some name) u = .ok v) :
    Url.decode? (Url.Path.withoutSlash v.path) = some name ↔
      v.isOpaque = false ∧ Url.Path.IsLiteral name.toList := by
  obtain rfl := Except.ok.inj h
  rw [Url.isOpaque_setPath]
  exact Url.decode_setPath_iff u name

theorem appendPair_eq (u : Url) (pair : List Char × List Char) :
    ∃ query, u.appendPair pair = { u with query := some query } := by
  rw [Url.appendPair.eq_def]
  split
  · exact ⟨_, rfl⟩
  · exact ⟨_, rfl⟩
  · exact ⟨_, rfl⟩

theorem withQuery_eq {params : List (String × String)} (h : withQuery env params u = .ok v) :
    (∃ query, v = { u with query }) ∧ Changes id u v := by
  induction params generalizing u with
  | nil =>
    obtain rfl := Except.ok.inj h
    exact ⟨⟨u.query, rfl⟩, .refl u⟩
  | cons param rest ih =>
    obtain ⟨w, hw, hrest⟩ := bind_eq_ok_iff.1 h
    obtain ⟨value, -, hw⟩ := bind_eq_ok_iff.1 hw
    obtain rfl := Except.ok.inj hw
    obtain ⟨⟨query', rfl⟩, hchanges⟩ := ih hrest
    obtain ⟨query, heq⟩ := appendPair_eq u (param.1.toList, value.toList)
    refine ⟨⟨query', by rw [heq]⟩, ?_⟩
    refine Changes.trans (f := id) ⟨?_, fun hu => hu.appendPair _⟩ hchanges
    rw [heq]
    rfl

/-! ### Whole names -/

theorem normal_baseUrl (h : baseUrl engine base = .ok u) : u.IsNormal := by
  have hpostgres : Url.parse "postgres://localhost".toList = .ok (defaultUrl .postgres) := by
    decide +kernel
  have hmysql : Url.parse "mysql://localhost".toList = .ok (defaultUrl .mysql) := by decide +kernel
  cases base with
  | some dsn => exact Url.isNormal_of_parse (mapError_eq_ok_iff.1 h)
  | none =>
    obtain rfl := Except.ok.inj h
    cases engine with
    | postgres => exact Url.isNormal_of_parse hpostgres
    | mysql => exact Url.isNormal_of_parse hmysql
    | sqlite => exact Url.isNormal_of_parse hpostgres

/-- What the URL of a server holds of the fields that are set. -/
structure Carries (env : Environment) (c : ConnectionSettings) (u : Url) : Prop where
  named : c.port.isSome ∨ c.user.isSome ∨ c.password.isSome → u.hasHost = true
  host : ∀ text ∈ c.host, u.authorityOrBlank.host.Names text.toList
  port : ∀ p ∈ c.port, u.authorityOrBlank.port = some p
  user : ∀ text ∈ c.user, Holds u.authorityOrBlank.username text
  password : ∀ text ∈ c.password, ∃ value, expanded env text = .ok value ∧
    Holds u.authorityOrBlank.password value
  database : ∀ name ∈ c.database, Url.decode? (Url.Path.withoutSlash u.path) = some name ↔
    u.isOpaque = false ∧ Url.Path.IsLiteral name.toList

theorem carries_withFields (hport : ∀ p ∈ c.port, p ≤ 65535)
    (h : withFields env c engine u = .ok v) :
    Carries env c v ∧ (u.IsNormal → v.IsNormal) := by
  obtain ⟨u₁, hhost, h⟩ := bind_eq_ok_iff.1 h
  obtain ⟨u₂, hwithPort, h⟩ := bind_eq_ok_iff.1 h
  obtain ⟨u₃, huser, h⟩ := bind_eq_ok_iff.1 h
  obtain ⟨u₄, hpassword, h⟩ := bind_eq_ok_iff.1 h
  obtain ⟨u₅, hdatabase, hquery⟩ := bind_eq_ok_iff.1 h
  obtain ⟨value, hvalue, hfromPassword⟩ := changes_withPassword hpassword
  obtain ⟨⟨query, rfl⟩, hfromQuery⟩ := withQuery_eq hquery
  have hlast := hfromPassword.trans ((changes_withDatabase hdatabase).trans hfromQuery)
  have hfromUser := (changes_withUser huser).trans hlast
  have hall := (changes_withPort hport hwithPort).trans hfromUser
  refine ⟨⟨fun hset => ?_, fun text htext => ?_, fun p hp => ?_, fun text htext => ?_,
    fun text htext => ?_, fun name hname => ?_⟩, fun hu => hall.normal (normal_withHost hhost hu)⟩
  · rcases hset with hset | hset | hset
    · exact (hall.hasHost_eq fun _ => rfl).trans (hasHost_of_withPort hwithPort hset)
    · exact (hfromUser.hasHost_eq fun _ => rfl).trans (hasHost_of_withUser huser hset)
    · exact (hlast.hasHost_eq fun _ => rfl).trans (hasHost_of_withPassword hpassword hset)
  · rw [htext] at hhost
    rw [hall.authority]
    exact names_withHost hhost
  · rw [hall.authority, hp]
    rfl
  · rw [hall.authority, htext]
    exact Url.sparesEscapes_inUserinfoSet.holds text
  · obtain ⟨text', htext', rfl⟩ := hvalue text htext
    rw [hall.authority]
    exact ⟨text', htext', Url.sparesEscapes_inUserinfoSet.holds text'⟩
  · rw [hname] at hdatabase
    have hliteral := literal_withDatabase hdatabase
    exact hliteral

theorem resolve_of_engine (hbase : c.dsn.mapM (expanded env) = .ok base)
    (hengine : engineOf c.engine base = .ok engine) :
    resolve env c = if engine = .sqlite then sqliteDsn env c base
      else serverDsn env c engine base := by
  rw [resolve, hbase]
  change (engineOf c.engine base >>= fun engine => _) = _
  rw [hengine]
  cases engine <;> rfl

def ForServer (env : Environment) (c : ConnectionSettings) : Prop :=
  c.dsn.mapM (expanded env) >>= engineOf c.engine ≠ .ok .sqlite

def Completed (env : Environment) (c : ConnectionSettings) (u : Url) : Prop :=
  ∃ base engine start, c.dsn.mapM (expanded env) = .ok base ∧ engineOf c.engine base = .ok engine ∧
    baseUrl engine base = .ok start ∧ withFields env c engine start = .ok u

theorem exists_fields (h : serverDsn env c engine base = .ok d) :
    ∃ start u, baseUrl engine base = .ok start ∧ withFields env c engine start = .ok u ∧
      d = String.ofList u.write := by
  rw [serverDsn] at h
  split at h
  · cases h
  · obtain ⟨start, hstart, h⟩ := bind_eq_ok_iff.1 h
    obtain ⟨u, hu, h⟩ := bind_eq_ok_iff.1 h
    exact ⟨start, u, hstart, hu, (Except.ok.inj h).symm⟩

theorem exists_completed (hserver : ForServer env c) (h : resolve env c = .ok d) :
    ∃ u, Completed env c u ∧ d = String.ofList u.write := by
  obtain ⟨base, hbase, h⟩ := bind_eq_ok_iff.1 h
  obtain ⟨engine, hengine, h⟩ := bind_eq_ok_iff.1 h
  have hd : serverDsn env c engine base = .ok d := by
    cases engine with
    | sqlite => exact absurd (bind_eq_ok_iff.2 ⟨base, hbase, hengine⟩) hserver
    | postgres => exact h
    | mysql => exact h
  obtain ⟨start, u, hstart, hu, hwrite⟩ := exists_fields hd
  exact ⟨u, ⟨base, engine, start, hbase, hengine, hstart, hu⟩, hwrite⟩

/-- The data source name of a server is written from a URL that holds every field that is set, a
user, a password or a database just without the escapes that its text may have, and reading the name
gives the URL. -/
theorem resolve_carries (hserver : ForServer env c) (hport : ∀ p ∈ c.port, p ≤ 65535)
    (h : resolve env c = .ok d) :
    ∃ u, Completed env c u ∧ d = String.ofList u.write ∧ Carries env c u ∧
      (u.hasHost = true → Url.parse d.toList = .ok { u with setOff := false }) := by
  obtain ⟨u, hcompleted, rfl⟩ := exists_completed hserver h
  have hsteps := hcompleted
  obtain ⟨base, engine, start, -, -, hstart, hu⟩ := hsteps
  obtain ⟨hcarries, hnormal⟩ := carries_withFields hport hu
  refine ⟨u, hcompleted, rfl, hcarries, fun hhost => ?_⟩
  rw [String.toList_ofList]
  exact (hnormal (normal_baseUrl hstart)).parse_write hhost

def fieldSettings (user password : String) : ConnectionSettings :=
  { engine := some .postgres, dsn := none, host := some "db", port := some 5432, user := some user,
    password := some password, database := some "app", path := none, params := none, pool := none }

def secret (name : String) : Option String := if name = "PW" then some "p@ss" else none

theorem resolve_carries_at_sign :
    let c := fieldSettings "us/er" "$\x7bPW\x7d"
    ForServer secret c ∧ (∀ p ∈ c.port, p ≤ 65535) ∧
      resolve secret c = .ok "postgres://us%2Fer:p%40ss@db:5432/app" ∧
      ∃ u, Completed secret c u ∧ "postgres://us%2Fer:p%40ss@db:5432/app" = String.ofList u.write ∧
        Carries secret c u ∧ (u.hasHost = true →
          Url.parse "postgres://us%2Fer:p%40ss@db:5432/app".toList =
            .ok { u with setOff := false }) := by
  have hserver : ForServer secret (fieldSettings "us/er" "$\x7bPW\x7d") := by
    rw [ForServer]
    decide +kernel
  have hport : ∀ p ∈ (fieldSettings "us/er" "$\x7bPW\x7d").port, p ≤ 65535 := by
    rintro p ⟨⟩
    decide
  have hresolve : resolve secret (fieldSettings "us/er" "$\x7bPW\x7d") =
      .ok "postgres://us%2Fer:p%40ss@db:5432/app" := by decide +kernel
  exact ⟨hserver, hport, hresolve, resolve_carries hserver hport hresolve⟩

/-- An escape in a user is not encoded, so that reading the name gives another user. -/
theorem escape_is_lost :
    ForServer secret (fieldSettings "a%41" "x") ∧
      resolve secret (fieldSettings "a%41" "x") = .ok "postgres://a%41:x@db:5432/app" ∧
      (Url.parse "postgres://a%41:x@db:5432/app".toList).map
        (Url.decode? ·.authorityOrBlank.username) =
        .ok (some "aA") ∧
      (fieldSettings "a%41" "x").user ≠ some "aA" := by
  refine ⟨?_, by decide +kernel, by decide +kernel, by decide⟩
  rw [ForServer]
  decide +kernel

end QueryMapping.Dsn
