import QueryMapping.Dsn.Redact
import QueryMapping.Proofs.Dsn.Server
import QueryMapping.Proofs.Url.Reread

/-! Data source names that are shown. Steps that do not set the password do the same with any
password in its place, so that settings come to the same end with all passwords, and nothing is left
of one that is masked. -/

namespace QueryMapping

namespace Url

variable {u v : Url} {cs password password' : List Char}

def withPassword (u : Url) (password : List Char) : Url :=
  { u with authority := u.authority.map fun a => { a with password } }

theorem setPassword?_of_hasHost (h : u.hasHost = true) (cs : List Char) :
    u.setPassword? cs = some (u.withPassword (encode inUserinfoSet cs)) := by
  rw [setPassword?, modifyAuthority?, if_pos h, withPassword]

theorem setPassword?_of_not_hasHost (h : u.hasHost = false) (cs : List Char) :
    u.setPassword? cs = none := by
  rw [setPassword?, modifyAuthority?, if_neg (by rw [h]; exact Bool.false_ne_true)]

theorem withPassword_of_none (ha : u.authority = none) (password : List Char) :
    u.withPassword password = u := by
  cases u
  cases ha
  rfl

theorem withPassword_withPassword (u : Url) (password password' : List Char) :
    (u.withPassword password).withPassword password' = u.withPassword password' := by
  rw [withPassword, withPassword, withPassword]
  cases u.authority <;> rfl

@[simp] theorem hasHost_withPassword (u : Url) (password : List Char) :
    (u.withPassword password).hasHost = u.hasHost := by
  rw [hasHost, hasHost, withPassword]
  cases u.authority <;> rfl

@[simp] theorem isOpaque_withPassword (u : Url) (password : List Char) :
    (u.withPassword password).isOpaque = u.isOpaque := by
  rw [isOpaque, isOpaque, withPassword]
  cases u.authority <;> rfl

theorem setPath_withPassword (u : Url) (password cs : List Char) :
    (u.withPassword password).setPath cs = (u.setPath cs).withPassword password := by
  unfold setPath
  rw [isOpaque_withPassword]
  split <;> rfl

theorem appendPair_withPassword (u : Url) (password : List Char) (pair : List Char × List Char) :
    (u.withPassword password).appendPair pair = (u.appendPair pair).withPassword password := by
  have hquery : (u.withPassword password).query = u.query := rfl
  rw [appendPair.eq_def, appendPair.eq_def, hquery]
  cases u.query with
  | none => rfl
  | some query => cases query <;> rfl

theorem IsNormal.withPassword (h : u.IsNormal) (hpassword : Encoded inUserinfoSet password) :
    (u.withPassword password).IsNormal := by
  cases ha : u.authority with
  | none => rwa [withPassword_of_none ha]
  | some a =>
    rw [Url.withPassword, ha]
    exact h.withAuthority ha fun ha => ⟨ha.username, hpassword, ha.host, ha.port⟩

theorem password?_withPassword (hhost : u.hasHost = true) (hne : password ≠ []) :
    (u.withPassword password).password? = some password := by
  obtain ⟨a, ha, -⟩ := exists_authority hhost
  rw [password?, withPassword, ha]
  exact if_neg (by simpa using hne)

end Url

namespace Dsn

open Url (encode inUserinfoSet)

variable {env : Environment} {c : ConnectionSettings} {d p v : String} {engine : Engine}
    {base : Option String}
  {u w : Url} {password : List Char}

/-! ### Masking -/

/-- A masked URL is read again from what it is written as, and it is masked already. The mask itself
is no URL. -/
structure UrlLibrary.Rereads {U : Type} (l : UrlLibrary U) : Prop where
  masked : ∀ cs url masked, l.parse cs = some url → l.setPassword? url mask.toList = some masked →
    l.parse (l.write masked) = some masked ∧ l.setPassword? masked mask.toList = some masked
  mask : l.parse mask.toList = none

theorem redactBy_redactBy {U : Type} {l : UrlLibrary U} (h : l.Rereads) (dsn : String) :
    redactBy l (redactBy l dsn) = redactBy l dsn := by
  have hmask : redactBy l mask = mask := by
    rw [redactBy, h.mask]
    rfl
  cases hparse : l.parse dsn.toList with
  | none =>
    by_cases hat : dsn.toList.contains '@'
    · have hredact : redactBy l dsn = mask := by rw [redactBy, hparse]; exact if_pos hat
      rw [hredact, hmask]
    · have hredact : redactBy l dsn = dsn := by rw [redactBy, hparse]; exact if_neg hat
      rw [hredact, hredact]
  | some url =>
    cases hpassword : l.password? url with
    | none =>
      have hredact : redactBy l dsn = dsn := by rw [redactBy, hparse]; simp only [hpassword]
      rw [hredact, hredact]
    | some there =>
      cases hset : l.setPassword? url mask.toList with
      | none =>
        have hredact : redactBy l dsn = mask := by
          rw [redactBy, hparse]
          simp only [hpassword, hset]
        rw [hredact, hmask]
      | some masked =>
        have hredact : redactBy l dsn = String.ofList (l.write masked) := by
          rw [redactBy, hparse]
          simp only [hpassword, hset]
        obtain ⟨hparse', hset'⟩ := h.masked _ _ _ hparse hset
        rw [hredact, redactBy, String.toList_ofList, hparse']
        dsimp only
        rw [hset']
        split <;> rfl

theorem encode_mask : encode inUserinfoSet mask.toList = mask.toList := by decide

theorem encoded_mask : Url.Encoded inUserinfoSet mask.toList :=
  Url.sparesEscapes_inUserinfoSet.encode_eq_self_iff.1 encode_mask

theorem parse_write_withPassword (h : u.IsNormal) (hhost : u.hasHost = true)
    (hpassword : Url.Encoded inUserinfoSet password) : Url.parse (u.withPassword password).write =
      .ok ({ u with setOff := false }.withPassword password) :=
  (h.withPassword hpassword).parse_write (by rw [Url.hasHost_withPassword, hhost])

theorem urlLibrary_rereads : urlLibrary.Rereads := by
  refine ⟨fun cs url masked hparse hset => ?_, by decide⟩
  have hparse : Url.parse cs = .ok url := toOption_eq_some_iff.1 hparse
  have hhost := Url.hasHost_of_modifyAuthority? hset
  have hmasked : masked = url.withPassword mask.toList := by
    have heq := Url.setPassword?_of_hasHost hhost mask.toList
    rw [encode_mask] at heq
    exact Option.some.inj (hset.symm.trans heq)
  have hsetOff : ({ url with setOff := false } : Url) = url := by
    obtain ⟨a, ha, -⟩ := Url.exists_authority hhost
    have hread := (Url.isRead_of_parse hparse).setOff
    rw [ha, Option.isNone_some, Bool.false_and] at hread
    rw [← hread]
  constructor
  · refine toOption_eq_some_iff.2 ?_
    rw [hmasked]
    exact (parse_write_withPassword (Url.isNormal_of_parse hparse) hhost encoded_mask).trans
      (by rw [hsetOff])
  · change masked.setPassword? mask.toList = some masked
    rw [hmasked, Url.setPassword?_of_hasHost (by rw [Url.hasHost_withPassword, hhost]), encode_mask,
      Url.withPassword_withPassword]

theorem redact_of_password (hparse : Url.parse d.toList = .ok (u.withPassword password))
    (hhost : u.hasHost = true)
    (hne : password ≠ []) : redact d = String.ofList (u.withPassword mask.toList).write := by
  have hhost' : (u.withPassword password).hasHost = true := by rw [Url.hasHost_withPassword, hhost]
  have hread : urlLibrary.parse d.toList = some (u.withPassword password) :=
    toOption_eq_some_iff.2 hparse
  have hpassword : urlLibrary.password? (u.withPassword password) = some password :=
    Url.password?_withPassword hhost hne
  have hset : urlLibrary.setPassword? (u.withPassword password) mask.toList =
      some (u.withPassword mask.toList) := by
    have hset := Url.setPassword?_of_hasHost hhost' mask.toList
    rwa [encode_mask, Url.withPassword_withPassword] at hset
  rw [redact, redactBy, hread]
  simp only [hpassword, hset]
  rfl

/-! ### One end for all passwords -/

def withOthers (env : Environment) (c : ConnectionSettings) (engine : Engine) (url : Url) :
    Except DsnError Url := do
  let url ← withHost c.host url
  let url ← withPort c.port url
  let url ← withUser c.user url
  if url.hasHost then
    let url ← withDatabase engine c.database url
    withQuery env (sortedParams (c.params.getD [])) url
  else throw (.badSetting .password)

theorem withPassword_eq (h : expanded env p = .ok v) : withPassword env (some p) u =
    if u.hasHost then .ok (u.withPassword (encode inUserinfoSet v.toList))
      else .error (.badSetting .password) := by
  rw [withPassword, h]
  change orFail _ (u.setPassword? v.toList) = _
  cases hhost : u.hasHost with
  | true => rw [if_pos rfl, Url.setPassword?_of_hasHost hhost, orFail]
  | false => rw [if_neg Bool.false_ne_true, Url.setPassword?_of_not_hasHost hhost, orFail]

theorem withDatabase_withPassword (database : Option String) :
    withDatabase engine database (u.withPassword password) =
    (withDatabase engine database u).map (·.withPassword password) := by
  cases database with
  | some name =>
    rw [withDatabase, Url.setPath_withPassword]
    rfl
  | none =>
    have hpath : (u.withPassword password).path = u.path := rfl
    rw [withDatabase, withDatabase, hpath]
    split <;> rfl

theorem withQuery_withPassword (params : List (String × String)) :
    withQuery env params (u.withPassword password) =
    (withQuery env params u).map (·.withPassword password) := by
  induction params generalizing u with
  | nil => rfl
  | cons param rest ih =>
    unfold withQuery at ih ⊢
    rw [List.foldlM_cons, List.foldlM_cons]
    cases expanded env param.2 with
    | error e => rfl
    | ok value =>
      change List.foldlM _ ((u.withPassword password).appendPair _) rest = _
      rw [Url.appendPair_withPassword, ih]
      rfl

theorem withFields_eq_map (h : expanded env p = .ok v) :
    withFields env { c with password := some p } engine u =
    (withOthers env c engine u).map (·.withPassword (encode inUserinfoSet v.toList)) := by
  have hstep (u : Url) :
    (withPassword env (some p) u >>= fun url => withDatabase engine c.database url >>= fun url =>
      withQuery env (sortedParams (c.params.getD [])) url) =
      (if u.hasHost then withDatabase engine c.database u >>=
        withQuery env (sortedParams (c.params.getD []))
        else throw (.badSetting .password)).map
          (·.withPassword (encode inUserinfoSet v.toList)) := by
    rw [withPassword_eq h]
    split
    · change (withDatabase engine c.database (u.withPassword _) >>= _) = _
      rw [withDatabase_withPassword, bind_map_eq, map_bind_eq]
      exact bind_congr fun url => withQuery_withPassword _
    · rfl
  unfold withFields withOthers
  simp only [map_bind_eq]
  exact bind_congr fun u₁ => bind_congr fun u₂ => bind_congr fun u₃ => hstep u₃

theorem of_withOthers (hport : ∀ p ∈ c.port, p ≤ 65535) (h : withOthers env c engine u = .ok w) :
    w.hasHost = true ∧ (u.IsNormal → w.IsNormal) := by
  obtain ⟨u₁, hhost, h⟩ := bind_eq_ok_iff.1 h
  obtain ⟨u₂, hwithPort, h⟩ := bind_eq_ok_iff.1 h
  obtain ⟨u₃, huser, h⟩ := bind_eq_ok_iff.1 h
  split at h
  · next hnamed =>
    obtain ⟨u₄, hdatabase, hquery⟩ := bind_eq_ok_iff.1 h
    have hlast := (changes_withDatabase hdatabase).trans (withQuery_eq hquery).2
    have hall := (changes_withPort hport hwithPort).trans ((changes_withUser huser).trans hlast)
    exact ⟨(hlast.hasHost_eq fun _ => rfl).trans hnamed,
      fun hu => hall.normal (normal_withHost hhost hu)⟩
  · cases h

/-- How settings end, but for the password that is put in the URL. -/
structure Outcome (env : Environment) (c : ConnectionSettings)
    (x : Except DsnError Url) : Prop where
  normal : ∀ u, x = .ok u → u.hasHost = true ∧ u.IsNormal
  resolve_eq : ∀ p v, expanded env p = .ok v → resolve env { c with password := some p } =
    x.map fun u => String.ofList (u.withPassword (encode inUserinfoSet v.toList)).write

theorem exists_serverField (c : ConnectionSettings) :
    ∃ field, ∀ p, serverField? { c with password := some p } = some field := by
  have hsome : (serverField? { c with password := some "" }).isSome := by simp [serverField?]
  obtain ⟨field, hfield⟩ := Option.isSome_iff_exists.1 hsome
  exact ⟨field, fun p => hfield⟩

theorem exists_serverOutcome (env : Environment) (hport : ∀ p ∈ c.port, p ≤ 65535) (engine : Engine)
    (base : Option String) :
    ∃ x : Except DsnError Url, (∀ u, x = .ok u → u.hasHost = true ∧ u.IsNormal) ∧
      ∀ p v, expanded env p = .ok v → serverDsn env { c with password := some p } engine base =
        x.map fun u => String.ofList (u.withPassword (encode inUserinfoSet v.toList)).write := by
  cases hpath : c.path with
  | some path => exact ⟨.error (.conflict .pathForServer), nofun, fun p v hv => rfl⟩
  | none =>
    refine ⟨baseUrl engine base >>= withOthers env c engine, fun u hu => ?_, fun p v hv => ?_⟩
    · obtain ⟨start, hstart, hu⟩ := bind_eq_ok_iff.1 hu
      exact (of_withOthers hport hu).imp_right fun hnormal => hnormal (normal_baseUrl hstart)
    · change (baseUrl engine base >>= fun start =>
        withFields env { c with password := some p } engine start >>=
        fun u => .ok (String.ofList u.write)) = _
      rw [map_bind_eq]
      refine bind_congr fun start => ?_
      rw [withFields_eq_map hv, bind_map_eq]
      cases withOthers env c engine start <;> rfl

theorem outcome_of_error {e : DsnError}
    (h : ∀ p, resolve env { c with password := some p } = .error e) :
    Outcome env c (.error e) := by
  refine ⟨fun u hu => ?_, fun p v _ => h p⟩
  cases hu

theorem exists_outcome (env : Environment) (hport : ∀ p ∈ c.port, p ≤ 65535) :
    ∃ x, Outcome env c x := by
  cases hbase : c.dsn.mapM (expanded env) with
  | error e => exact ⟨.error e, outcome_of_error fun p => by rw [resolve, hbase]; rfl⟩
  | ok base =>
    cases hengine : engineOf c.engine base with
    | error e =>
      refine ⟨.error e, outcome_of_error fun p => ?_⟩
      rw [resolve, hbase]
      change engineOf c.engine base >>= _ = _
      rw [hengine]
      rfl
    | ok engine =>
      have hresolve (p : String) :=
        resolve_of_engine (c := { c with password := some p }) hbase hengine
      by_cases hsqlite : engine = .sqlite
      · obtain ⟨field, hfield⟩ := exists_serverField c
        refine ⟨.error (.conflict (.serverField field)), outcome_of_error fun p => ?_⟩
        rw [hresolve, if_pos hsqlite, sqliteDsn, hfield]
        rfl
      · obtain ⟨x, hx, heq⟩ := exists_serverOutcome env hport engine base
        exact ⟨x, hx, fun p v hv => by rw [hresolve, if_neg hsqlite, heq p v hv]⟩

theorem read_withPassword (h : u.IsNormal) (hhost : u.hasHost = true) (hv : v ≠ "") :
    let d := String.ofList (u.withPassword (encode inUserinfoSet v.toList)).write
    let w : Url := { u with setOff := false }
    Url.parse d.toList = .ok (w.withPassword (encode inUserinfoSet v.toList)) ∧
      redact d = String.ofList (w.withPassword mask.toList).write := by
  intro d w
  have hencoded := Url.sparesEscapes_inUserinfoSet.encoded_encode v.toList
  have hparse : Url.parse d.toList = .ok (w.withPassword (encode inUserinfoSet v.toList)) := by
    rw [String.toList_ofList]
    exact parse_write_withPassword h hhost hencoded
  exact ⟨hparse, redact_of_password hparse hhost (Url.encode_ne_nil (by simpa using hv))⟩

structure Alike (u : Url) (v v' d d' : String) : Prop where
  left : Url.parse d.toList = .ok (u.withPassword (encode inUserinfoSet v.toList))
  right : Url.parse d'.toList = .ok (u.withPassword (encode inUserinfoSet v'.toList))
  shown : redact d = String.ofList (u.withPassword mask.toList).write
  same : redact d = redact d'

theorem cases_of_passwords (hport : ∀ p ∈ c.port, p ≤ 65535) {p p' v v' : String}
    (hp : expanded env p = .ok v) (hp' : expanded env p' = .ok v') (hv : v ≠ "") (hv' : v' ≠ "") :
    (∃ e, resolve env { c with password := some p } = .error e ∧
      resolve env { c with password := some p' } = .error e) ∨
    ∃ d d' u, resolve env { c with password := some p } = .ok d ∧
      resolve env { c with password := some p' } = .ok d' ∧ Alike u v v' d d' := by
  obtain ⟨x, hx⟩ := exists_outcome env hport
  rw [hx.resolve_eq p v hp, hx.resolve_eq p' v' hp']
  cases hu : x with
  | error e => exact .inl ⟨e, rfl, rfl⟩
  | ok u =>
    obtain ⟨hhost, hnormal⟩ := hx.normal u hu
    obtain ⟨hread, hshown⟩ := read_withPassword hnormal hhost hv
    obtain ⟨hread', hshown'⟩ := read_withPassword hnormal hhost hv'
    exact .inr ⟨_, _, { u with setOff := false }, rfl, rfl,
      ⟨hread, hread', hshown, hshown.trans hshown'.symm⟩⟩

/-- Settings fail alike with any two passwords, or their data source names are shown as one text,
which has the mask in the password's place. What is shown is shown again as it is, by every library
that reads its own URLs again. -/
theorem passwords_are_hidden :
    (∀ (env : Environment) (c : ConnectionSettings), (∀ p ∈ c.port, p ≤ 65535) →
      ∀ p p' v v' : String, expanded env p = .ok v → expanded env p' = .ok v' → v ≠ "" → v' ≠ "" →
      (∃ e, resolve env { c with password := some p } = .error e ∧
        resolve env { c with password := some p' } = .error e) ∨
      ∃ d d' u, resolve env { c with password := some p } = .ok d ∧
        resolve env { c with password := some p' } = .ok d' ∧ Alike u v v' d d') ∧
    ∀ {U : Type} (l : UrlLibrary U), l.Rereads → ∀ dsn,
      redactBy l (redactBy l dsn) = redactBy l dsn :=
  ⟨fun _ _ hport _ _ _ _ hp hp' hv hv' => cases_of_passwords hport hp hp' hv hv',
    fun _ h => redactBy_redactBy h⟩

theorem passwords_are_hidden_at_sign :
    let c := fieldSettings "us/er" "$\x7bPW\x7d"
    (∀ p ∈ c.port, p ≤ 65535) ∧ expanded secret "$\x7bPW\x7d" = .ok "p@ss" ∧
      expanded secret "é:/#" = .ok "é:/#" ∧
      ((∃ e, resolve secret { c with password := some "$\x7bPW\x7d" } = .error e ∧
          resolve secret { c with password := some "é:/#" } = .error e) ∨
        ∃ d d' u, resolve secret { c with password := some "$\x7bPW\x7d" } = .ok d ∧
          resolve secret { c with password := some "é:/#" } = .ok d' ∧ Alike u "p@ss" "é:/#" d d') ∧
      resolve secret c = .ok "postgres://us%2Fer:p%40ss@db:5432/app" ∧
      redact "postgres://us%2Fer:p%40ss@db:5432/app" = "postgres://us%2Fer:***@db:5432/app" ∧
      redact (redact "postgres://us%2Fer:p%40ss@db:5432/app") =
        redact "postgres://us%2Fer:p%40ss@db:5432/app" := by
  intro c
  have hport : ∀ p ∈ c.port, p ≤ 65535 := by
    rintro p ⟨⟩
    decide
  have hp : expanded secret "$\x7bPW\x7d" = .ok "p@ss" := by decide +kernel
  have hp' : expanded secret "é:/#" = .ok "é:/#" := by decide +kernel
  exact ⟨hport, hp, hp',
    passwords_are_hidden.1 secret c hport _ _ _ _ hp hp' (by decide) (by decide), by
      decide +kernel, by decide +kernel, passwords_are_hidden.2 urlLibrary urlLibrary_rereads _⟩

end Dsn

end QueryMapping
