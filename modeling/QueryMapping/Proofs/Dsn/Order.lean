import QueryMapping.Proofs.Dsn.Query

/-! The order in which the parameters of settings are enumerated, which nobody chooses. A data
source name does not depend on it, and neither does a refusal of a server's settings: their
parameters are sorted before they are looked at. Those of an SQLite database are sorted when all of
them have been accepted, so that of several that are refused the first one is named. -/

namespace QueryMapping

namespace Dsn

variable {env : Environment} {c : ConnectionSettings} {d : String} {engine : Engine}
    {base : Option String}
  {params params' : List (String × String)} {p p' : String × String} {e e' : DsnError}

def enumerating (c : ConnectionSettings) (params : List (String × String)) : ConnectionSettings :=
  { c with params := some params }

def AcceptsBare (env : Environment) (c : ConnectionSettings) : Prop :=
  c.dsn.mapM (expanded env) >>= engineOf c.engine = .ok .sqlite ∧
    ∃ d, resolve env (enumerating c []) = .ok d

/-! ### Names -/

theorem serverDsn_enumerating (hperm : params.Perm params') (base : Option String) :
    serverDsn env (enumerating c params') engine base =
      serverDsn env (enumerating c params) engine base := by
  have hfields (url : Url) : withFields env (enumerating c params') engine url =
      withFields env (enumerating c params) engine url := by
    unfold withFields enumerating
    rw [Option.getD_some, Option.getD_some, sortedParams_eq_of_perm hperm]
  unfold serverDsn
  simp only [hfields]
  rfl

theorem sqliteText_eq_of_perm (hperm : params.Perm params') (start : String × Bool) :
    sqliteText start params = sqliteText start params' := by
  have hmode :
      (if start.2 then withMode params else params).Perm
        (if start.2 then withMode params' else params') := by
    have hany : params.any (·.1 == "mode") = params'.any (·.1 == "mode") := hperm.any_eq
    unfold withMode
    rw [hany]
    split
    · split
      · exact hperm
      · exact hperm.append_right _
    · exact hperm
  rw [sqliteText, sqliteText, sortedParams_eq_of_perm hmode]

theorem resolve_enumerating_of_start {start : String × Bool}
    (hbase : c.dsn.mapM (expanded env) = .ok base)
    (hengine : engineOf c.engine base = .ok .sqlite) (hstart : sqliteStart c base = .ok start)
    (params : List (String × String)) : resolve env (enumerating c params) =
      (params.mapM (sqliteParameter env)).map (sqliteText start) := by
  have hstart' : sqliteStart (enumerating c params) base = .ok start := hstart
  rw [resolve_of_engine (c := enumerating c params) hbase hengine, if_pos rfl,
    sqliteDsn_eq, hstart']
  rfl

theorem AcceptsBare.exists_start (h : AcceptsBare env c) : ∃ start : String × Bool, ∀ params,
    resolve env (enumerating c params) =
      (params.mapM (sqliteParameter env)).map (sqliteText start) := by
  obtain ⟨hchosen, d, hd⟩ := h
  obtain ⟨base, hbase, hengine⟩ := bind_eq_ok_iff.1 hchosen
  rw [resolve_of_engine (c := enumerating c []) hbase hengine, if_pos rfl, sqliteDsn_eq] at hd
  obtain ⟨start, hstart, -⟩ := bind_eq_ok_iff.1 hd
  exact ⟨start, resolve_enumerating_of_start hbase hengine hstart⟩

theorem resolve_enumerating_of_not_acceptsBare (h : ¬ AcceptsBare env c)
    (hperm : params.Perm params') :
    resolve env (enumerating c params') = resolve env (enumerating c params) := by
  cases hbase : c.dsn.mapM (expanded env) with
  | error e =>
    have hrefused (params : List (String × String)) :
        resolve env (enumerating c params) = .error e :=
      bind_eq_error_iff.2 (.inl hbase)
    rw [hrefused, hrefused]
  | ok base =>
    cases hengine : engineOf c.engine base with
    | error e =>
      have hrefused (params : List (String × String)) :
          resolve env (enumerating c params) = .error e :=
        bind_eq_error_iff.2 (.inr ⟨base, hbase, bind_eq_error_iff.2 (.inl hengine)⟩)
      rw [hrefused, hrefused]
    | ok engine =>
      rw [resolve_of_engine (c := enumerating c params') hbase hengine,
        resolve_of_engine (c := enumerating c params) hbase hengine]
      split
      · next hsqlite =>
        subst hsqlite
        rw [sqliteDsn_eq, sqliteDsn_eq]
        cases hstart : sqliteStart c base with
        | error e =>
          have hrefused (params : List (String × String)) :
              sqliteStart (enumerating c params) base = .error e := hstart
          rw [hrefused, hrefused]
          rfl
        | ok start =>
          refine absurd ⟨bind_eq_ok_iff.2 ⟨base, hbase, hengine⟩, sqliteText start [], ?_⟩ h
          exact resolve_enumerating_of_start hbase hengine hstart []
      · exact serverDsn_enumerating hperm base

theorem resolve_enumerating_eq_ok (hperm : params.Perm params')
    (h : resolve env (enumerating c params) = .ok d) :
    resolve env (enumerating c params') = .ok d := by
  by_cases hbare : AcceptsBare env c
  · obtain ⟨start, hresolve⟩ := hbare.exists_start
    rw [hresolve] at h ⊢
    obtain ⟨values, hvalues, rfl⟩ := map_eq_ok_iff.1 h
    obtain ⟨values', hvalues', hperm'⟩ := exists_perm_of_mapM_eq_ok hperm.symm hvalues
    exact map_eq_ok_iff.2 ⟨values', hvalues', sqliteText_eq_of_perm hperm' start⟩
  · rw [resolve_enumerating_of_not_acceptsBare hbare hperm, h]

/-! ### Refusals -/

theorem exists_enumerating_eq_error_iff (h : AcceptsBare env c) :
    (∃ params', params.Perm params' ∧ resolve env (enumerating c params') = .error e) ↔
      ∃ p ∈ params, sqliteParameter env p = .error e := by
  obtain ⟨start, hresolve⟩ := h.exists_start
  simp only [hresolve, map_eq_error_iff]
  exact exists_perm_mapM_eq_error_iff

theorem cases_of_sqliteParameter_error (h : sqliteParameter env p = .error e) :
    p.1 ∉ sqliteParameters ∧ e = .badSetting (.unsupportedParameter p.1) ∨
      p.1 ∈ sqliteParameters ∧ ∃ name, e = .unsetVariable name := by
  unfold sqliteParameter at h
  by_cases hkey : p.1 ∈ sqliteParameters
  · rw [if_neg (by simpa using hkey)] at h
    rcases bind_eq_error_iff.1 h with h | ⟨value, -, h⟩
    · obtain ⟨name, -, rfl⟩ := mapError_eq_error_iff.1 h
      exact .inr ⟨hkey, name, rfl⟩
    · cases h
  · rw [if_pos (by simpa using hkey)] at h
    exact .inl ⟨hkey, (Except.error.inj h).symm⟩

theorem unsupportedParameter_message (key : String) :
    (DsnError.badSetting (.unsupportedParameter key)).message =
    "bad connection setting: " ++ ("unsupported SQLite parameter '" ++ key ++ "' (allowed: " ++
      ", ".intercalate sqliteParameters ++ ")") := rfl

theorem unsupportedParameter_message_inj {key key' : String}
    (h : (DsnError.badSetting (.unsupportedParameter key)).message =
      (DsnError.badSetting (.unsupportedParameter key')).message) : key = key' := by
  rw [unsupportedParameter_message, unsupportedParameter_message] at h
  simpa only [String.append_right_inj, String.append_left_inj] using h

theorem unsupportedParameter_message_ne (key name : String) :
    (DsnError.badSetting (.unsupportedParameter key)).message ≠
      (DsnError.unsetVariable name).message := by
  have hfirst (rest : String) :
      "bad connection setting: " ++ rest ≠
        "environment variable: environment variable not found" := by
    intro h
    have hchars := congrArg (·.toList.head?) h
    simp at hchars
  rw [unsupportedParameter_message]
  exact hfirst _

theorem message_eq_iff (h : sqliteParameter env p = .error e)
    (h' : sqliteParameter env p' = .error e') :
    e.message = e'.message ↔ p.1 ∈ sqliteParameters ∧ p'.1 ∈ sqliteParameters ∨ p.1 = p'.1 := by
  rcases cases_of_sqliteParameter_error h with ⟨hkey, rfl⟩ | ⟨hkey, name, rfl⟩
  · rcases cases_of_sqliteParameter_error h' with ⟨hkey', rfl⟩ | ⟨hkey', name', rfl⟩
    · exact ⟨fun heq => .inr (unsupportedParameter_message_inj heq), fun hcase => by
        rw [hcase.resolve_left fun hboth => hkey hboth.1]⟩
    · exact iff_of_false (unsupportedParameter_message_ne _ _) fun hcase =>
        hcase.elim (fun hboth => hkey hboth.1) fun heq => hkey (heq ▸ hkey')
  · rcases cases_of_sqliteParameter_error h' with ⟨hkey', rfl⟩ | ⟨hkey', name', rfl⟩
    · exact iff_of_false (unsupportedParameter_message_ne _ _).symm fun hcase =>
        hcase.elim (fun hboth => hkey' hboth.2) fun heq => hkey' (heq ▸ hkey)
    · exact iff_of_true rfl (.inl ⟨hkey, hkey'⟩)

theorem shown_enumerating_iff : (∀ params', params.Perm params' →
      (resolve env (enumerating c params')).mapError DsnError.message =
        (resolve env (enumerating c params)).mapError DsnError.message) ↔
    (AcceptsBare env c → ∀ p ∈ params, p.1 ∉ sqliteParameters → ∀ p' ∈ params,
      p.1 = p'.1 ∨ ∃ value, sqliteParameter env p' = .ok value) := by
  constructor
  · intro hshown hbare p hp hkey p' hp'
    cases hvalue' : sqliteParameter env p' with
    | ok value => exact .inr ⟨value, rfl⟩
    | error e' =>
      have hrefused : sqliteParameter env p = .error (.badSetting (.unsupportedParameter p.1)) := by
        rw [sqliteParameter, if_pos (by simpa using hkey)]
        rfl
      obtain ⟨first, hfirst, hresolve⟩ :=
        (exists_enumerating_eq_error_iff hbare).2 ⟨p, hp, hrefused⟩
      obtain ⟨first', hfirst', hresolve'⟩ :=
        (exists_enumerating_eq_error_iff hbare).2 ⟨p', hp', hvalue'⟩
      have hsame := (hshown first hfirst).trans (hshown first' hfirst').symm
      rw [hresolve, hresolve'] at hsame
      have hmessage := (message_eq_iff hrefused hvalue').1 (Except.error.inj hsame)
      exact .inl (hmessage.resolve_left fun hboth => hkey hboth.1)
  · intro halone params' hperm
    by_cases hbare : AcceptsBare env c
    · cases hresolve : resolve env (enumerating c params) with
      | ok d => rw [resolve_enumerating_eq_ok hperm hresolve]
      | error e =>
        cases hresolve' : resolve env (enumerating c params') with
        | ok d =>
          rw [resolve_enumerating_eq_ok hperm.symm hresolve'] at hresolve
          cases hresolve
        | error e' =>
          obtain ⟨p, hp, he⟩ :=
            (exists_enumerating_eq_error_iff hbare).1 ⟨params, .refl params, hresolve⟩
          obtain ⟨p', hp', he'⟩ :=
            (exists_enumerating_eq_error_iff hbare).1 ⟨params', hperm, hresolve'⟩
          refine congrArg Except.error ((message_eq_iff he' he).2 ?_)
          have hrefused : ¬ ∃ value, sqliteParameter env p = .ok value := by simp [he]
          have hrefused' : ¬ ∃ value, sqliteParameter env p' = .ok value := by simp [he']
          by_cases hkey : p.1 ∈ sqliteParameters
          · by_cases hkey' : p'.1 ∈ sqliteParameters
            · exact .inl ⟨hkey', hkey⟩
            · exact .inr ((halone hbare p' hp' hkey' p hp).resolve_right hrefused)
          · exact .inr ((halone hbare p hp hkey p' hp').resolve_right hrefused').symm
    · rw [resolve_enumerating_of_not_acceptsBare hbare hperm]

/-- However the parameters are enumerated, the same data source name comes out, and settings of a
server are refused in the same way. SQLite settings that are fine without their parameters are
refused for each one that cannot be accepted, in some order. So all orders show the same unless a
parameter has an unsupported key beside another one that is refused. -/
theorem resolve_enumerating (env : Environment) (c : ConnectionSettings)
    (params : List (String × String)) :
    (∀ params', params.Perm params' → ∀ d,
      resolve env (enumerating c params') = .ok d ↔ resolve env (enumerating c params) = .ok d) ∧
    (¬ AcceptsBare env c → ∀ params', params.Perm params' →
      resolve env (enumerating c params') = resolve env (enumerating c params)) ∧
    (AcceptsBare env c →
      ∀ e, (∃ params', params.Perm params' ∧ resolve env (enumerating c params') = .error e) ↔
      ∃ p ∈ params, sqliteParameter env p = .error e) ∧
    ((∀ params', params.Perm params' →
      (resolve env (enumerating c params')).mapError DsnError.message =
        (resolve env (enumerating c params)).mapError DsnError.message) ↔
      (AcceptsBare env c → ∀ p ∈ params, p.1 ∉ sqliteParameters → ∀ p' ∈ params,
        p.1 = p'.1 ∨ ∃ value, sqliteParameter env p' = .ok value)) :=
  ⟨fun _ hperm _ => ⟨resolve_enumerating_eq_ok hperm.symm, resolve_enumerating_eq_ok hperm⟩,
    fun hbare _ hperm => resolve_enumerating_of_not_acceptsBare hbare hperm,
    fun hbare _ => exists_enumerating_eq_error_iff hbare, shown_enumerating_iff⟩

/-- Of an unsupported parameter and others with a variable that is not set, the one that comes first
is reported. -/
theorem first_refused_is_shown :
    let c := fileSettings "a.db" []
    let params := (["cache", "immutable", "mode", "vfs"].map fun key => (key, "$\x7bUNSET\x7d")) ++
      [("zone", "1")]
    let env := fun _ => none
    params.Perm params.reverse ∧
      resolve env (enumerating c params) = .error (.unsetVariable "UNSET") ∧
      resolve env (enumerating c params.reverse) =
        .error (.badSetting (.unsupportedParameter "zone")) ∧
      (DsnError.unsetVariable "UNSET").message ≠
        (DsnError.badSetting (.unsupportedParameter "zone")).message := by
  decide +kernel

end Dsn

end QueryMapping
