import QueryMapping.Proofs.Dsn.Expand
import QueryMapping.Proofs.Dsn.Frame
import QueryMapping.Proofs.Dsn.Redact

/-! Passwords of variables, put in a field of their own or in the text of a data source name. A
field is encoded when it is set. In the text the value is there before it is read, and what ends a
user or a password there ends it. -/

namespace QueryMapping

namespace Dsn

open Url (Encoded beforeMark encode inUserinfoSet isTabOrNewline significantEnd)

variable {env : Environment} {c : Char}
    {cs user password host database secret rest : List Char} {u : Url}

/-! ### Plain texts -/

structure IsPlain (cs : List Char) : Prop where
  head : cs.head?.any Char.isAlpha = true
  chars : ∀ c ∈ cs, c.isAlphanum = true

instance (cs : List Char) : Decidable (IsPlain cs) :=
  decidable_of_iff (cs.head?.any Char.isAlpha = true ∧ cs.all Char.isAlphanum = true)
    ⟨fun h => ⟨h.1, List.all_eq_true.1 h.2⟩, fun h => ⟨h.head, List.all_eq_true.2 h.chars⟩⟩

def IsInert (c : Char) : Prop :=
  0x20 < c.toNat ∧ Url.isControl c = false ∧ inUserinfoSet c = false ∧ Url.inPathSet c = false ∧
    Url.Host.isForbidden c = false ∧ c ≠ '$' ∧ c ≠ '.' ∧ c ≠ '%'

instance (c : Char) : Decidable (IsInert c) := inferInstanceAs (Decidable (_ ∧ _))

theorem isInert_of_isAlphanum (h : c.isAlphanum = true) : c.toNat < 128 ∧ IsInert c := by
  have hall : ∀ k < 128, (Char.ofNat k).isAlphanum = true → IsInert (Char.ofNat k) := by
    decide +kernel
  have hlt := Text.toNat_lt_of_isAlphanum h
  exact ⟨hlt, Url.of_toNat_lt (P := fun c => c.isAlphanum = true → IsInert c) hall hlt h⟩

namespace IsPlain

variable (h : IsPlain cs)
include h

theorem ne_nil : cs ≠ [] := by
  rintro rfl
  cases h.head

theorem inert (hc : c ∈ cs) : c.toNat < 128 ∧ IsInert c := isInert_of_isAlphanum (h.chars c hc)

theorem encoded : Encoded inUserinfoSet cs := fun _ hc => ⟨(h.inert hc).1, (h.inert hc).2.2.2.1⟩

theorem encodedPath :
    Encoded Url.inPathSet cs := fun _ hc => ⟨(h.inert hc).1, (h.inert hc).2.2.2.2.1⟩

theorem not_mem (hc : inUserinfoSet c = true ∨ Url.Host.isForbidden c = true ∨ c = '$') :
    c ∉ cs := by
  intro hmem
  obtain ⟨-, -, -, huser, -, hhost, hdollar, -⟩ := h.inert hmem
  rcases hc with hc | hc | hc
  · rw [hc] at huser
    cases huser
  · rw [hc] at hhost
    cases hhost
  · exact hdollar hc

theorem not_dollar_mem : '$' ∉ cs := h.not_mem (.inr (.inr rfl))

theorem isNormal_name : (Url.Host.name cs).IsNormal :=
  ⟨h.ne_nil, fun _ hc => ⟨(h.inert hc).1, (h.inert hc).2.2.1, (h.inert hc).2.2.2.2.2.1⟩⟩

theorem not_isDots : ¬ Url.Path.IsDots cs := by
  have hdots : ∀ dot ∈ Url.Path.dots, ∀ rest, ∃ c ∈ dot ++ rest, c = '.' ∨ c = '%' := by
    intro dot hdot rest
    simp only [Url.Path.dots, List.mem_cons, List.not_mem_nil, or_false] at hdot
    rcases hdot with rfl | rfl | rfl <;> exact ⟨_, List.mem_cons_self, by decide⟩
  have hnone : ¬ ∃ c ∈ cs, c = '.' ∨ c = '%' := by
    rintro ⟨c, hc, hdot⟩
    obtain ⟨-, -, -, -, -, -, -, hpoint, hpercent⟩ := h.inert hc
    exact hdot.elim hpoint hpercent
  rintro (hsingle | hdouble)
  · have hdot := hdots cs (Url.Path.isSingleDot_iff.1 hsingle) []
    rw [List.append_nil] at hdot
    exact hnone hdot
  · obtain ⟨dot, hdot, dot', -, rfl⟩ := Url.Path.isDoubleDot_iff.1 hdouble
    exact hnone (hdots dot hdot dot')

theorem isPath : Url.Path.IsPath ('/' :: cs) := by
  refine ⟨[cs], List.cons_ne_nil _ _, fun s hs => ?_, by rw [List.intercalate_singleton]⟩
  obtain rfl := List.mem_singleton.1 hs
  exact ⟨h.encodedPath, h.not_mem (.inl (by decide)), h.not_isDots⟩

end IsPlain

/-! ### The URL -/

def plainUrl (user password host database : List Char) : Url :=
  ⟨"postgres".toList, some ⟨user, password, .name host, none⟩, false, '/' :: database, none, none⟩

theorem isScheme_postgres : Url.IsScheme "postgres".toList :=
  ⟨by decide, List.all_eq_true.1 (by decide), by decide⟩

theorem normal_plainUrl (huser : IsPlain user) (hhost : IsPlain host) (hdatabase : IsPlain database)
    (hpassword : Encoded inUserinfoSet password) :
    (plainUrl user password host database).IsNormal := by
  refine ⟨isScheme_postgres, fun a ha => ?_, fun _ => .inr hdatabase.isPath, nofun, nofun⟩
  obtain rfl := Option.some.inj ha
  exact ⟨huser.encoded, hpassword, hhost.isNormal_name, nofun⟩

theorem parse_plainUrl (huser : IsPlain user) (hhost : IsPlain host) (hdatabase : IsPlain database)
    (hpassword : Encoded inUserinfoSet password) :
    Url.parse (plainUrl user password host database).write =
      .ok (plainUrl user password host database) :=
  (normal_plainUrl huser hhost hdatabase hpassword).parse_write rfl

/-! ### The text -/

def inlineRest (user secret host database : List Char) : List Char :=
  user ++ ':' :: (secret ++ '@' :: (host ++ '/' :: database))

def inlineText (user secret host database : List Char) : List Char :=
  "postgres".toList ++ ':' :: '/' :: '/' :: inlineRest user secret host database

/-- The characters of a secret that count in a URL. -/
def counted (secret : List Char) : List Char := secret.filter (!isTabOrNewline ·)

theorem readAuthority_inline (huser : IsPlain user) (hhost : IsPlain host) :
    Url.readAuthority (user ++ ':' :: (secret ++ '@' :: host)) =
      .ok (⟨user, encode inUserinfoSet secret, .name host, none⟩, []) := by
  have hat : '@' ∉ host := hhost.not_mem (.inl (by decide))
  have hcolon : ':' ∉ user := huser.not_mem (.inl (by decide))
  have hcut : user ++ ':' :: (secret ++ '@' :: host) = (user ++ ':' :: secret) ++ '@' :: host := by
    simp
  have hspan := Url.span_append user (':' :: secret) (Url.ne_mark_of_mem hcolon) (by simp)
  have huserinfo : Url.userinfo (user ++ ':' :: secret) = (user, encode inUserinfoSet secret) := by
    rw [Url.userinfo, hspan]
    dsimp only
    rw [huser.encoded.encode_eq, List.tail_cons]
  have hends : Url.EndsHost [] := fun c hc => by cases hc
  have hhostEnd := Url.spanHost_write hhost.isNormal_name hends
  have hhostParse := hhost.isNormal_name.parse_write
  rw [Url.Host.write, List.append_nil] at hhostEnd
  rw [Url.readAuthority, hcut, Url.cutUserinfo, Url.cutLast?_append hat]
  dsimp only
  rw [huserinfo, hhostEnd]
  dsimp only
  rw [show Url.Host.parse host = .ok (.name host) from hhostParse]
  rfl

theorem exists_pathAfterAuthority (remaining rest : List Char) :
    ∃ as, Url.pathAfterAuthority (remaining ++ '/' :: rest) = Url.Path.ofText (as ++ rest) := by
  rcases remaining with _ | ⟨c, remaining⟩
  · exact ⟨[], rfl⟩
  · by_cases hslash : c = '/'
    · subst hslash
      exact ⟨remaining ++ ['/'], by simp [Url.pathAfterAuthority]⟩
    · refine ⟨c :: remaining ++ ['/'], ?_⟩
      rw [Url.pathAfterAuthority.eq_def]
      split
      · next heq => cases heq
      · next heq => exact absurd (List.cons.inj heq).1 hslash
      · simp

section Plain

variable (huser : IsPlain user) (hhost : IsPlain host) (hdatabase : IsPlain database)
include huser hhost hdatabase

theorem significant_inlineText : Url.significant (inlineText user secret host database) =
    inlineText user (counted secret) host database := by
  have hfront :
      ∀ c ∈ "postgres".toList ++ ':' :: '/' :: '/' :: (user ++ [':']), 0x20 < c.toNat := by
    have hword : ∀ c ∈ "postgres".toList ++ [':', '/'], 0x20 < c.toNat :=
      List.all_iff_forall_prop.1 (by decide)
    intro c hc
    simp only [List.mem_append, List.mem_cons, List.not_mem_nil, or_false] at hc hword
    rcases hc with hc | hc | hc | hc | hc | hc
    · exact hword c (.inl hc)
    · exact hword c (.inr (.inl hc))
    · exact hword c (.inr (.inr hc))
    · exact hword c (.inr (.inr hc))
    · exact (huser.inert hc).2.1
    · exact hword c (.inr (.inl hc))
  have hback : ∀ c ∈ '@' :: (host ++ '/' :: database), 0x20 < c.toNat := by
    intro c hc
    rcases List.mem_cons.1 hc with rfl | hc
    · decide
    · rcases List.mem_append.1 hc with hc | hc
      · exact (hhost.inert hc).2.1
      · rcases List.mem_cons.1 hc with rfl | hc
        · decide
        · exact (hdatabase.inert hc).2.1
  have hcut (scheme secret back : List Char) :
    scheme ++ ':' :: '/' :: '/' :: (user ++ ':' :: (secret ++ back)) =
      (scheme ++ ':' :: '/' :: '/' :: (user ++ [':'])) ++ (secret ++ back) := by simp
  unfold inlineText inlineRest
  rw [hcut, Url.significant_append hfront (by simp),
    Url.significantEnd_append_visible hback (List.cons_ne_nil _ _), hcut, counted]

theorem parse_inlineText : Url.parse (inlineText user secret host database) =
    let rest := '/' :: '/' :: inlineRest user (counted secret) host database
    Url.readHierarchy "postgres".toList (rest.takeWhile beforeMark)
      (rest.dropWhile beforeMark) := by
  apply Url.parse_eq
  rw [significant_inlineText huser hhost hdatabase]
  exact isScheme_postgres.scheme?_append _

theorem parse_inlineText_of_unmarked (hsecret : ∀ c ∈ secret, c ∉ ['/', '?', '#']) :
    Url.parse (inlineText user secret host database) =
      .ok (plainUrl user (encode inUserinfoSet (counted secret)) host database) := by
  have hcounted : ∀ c ∈ counted secret, c ∉ ['/', '?', '#'] :=
    fun c hc => hsecret c (List.mem_of_mem_filter hc)
  have hunmarked {cs : List Char} (h : IsPlain cs) : ∀ c ∈ cs, c ∉ ['/', '?', '#'] := by
    have hset : ∀ c ∈ ['/', '?', '#'], inUserinfoSet c = true :=
      List.all_iff_forall_prop.1 (by decide)
    exact fun c hc hmark => h.not_mem (.inl (hset c hmark)) hc
  have hfront : ∀ c ∈ user ++ ':' :: (counted secret ++ '@' :: host), c ∉ ['/', '?', '#'] := by
    intro c hc
    simp only [List.mem_append, List.mem_cons] at hc
    rcases hc with hc | rfl | hc | rfl | hc
    · exact hunmarked huser c hc
    · decide
    · exact hcounted c hc
    · decide
    · exact hunmarked hhost c hc
  have hcut : inlineRest user (counted secret) host database =
      (user ++ ':' :: (counted secret ++ '@' :: host)) ++ '/' :: database := by simp [inlineRest]
  have hbefore :
      ∀ c ∈ '/' :: '/' :: inlineRest user (counted secret) host database, beforeMark c = true := by
    intro c hc
    rw [hcut, List.mem_cons, List.mem_cons, List.mem_append, List.mem_cons] at hc
    refine Url.beforeMark_of_not_mem ?_
    rcases hc with rfl | rfl | hc | rfl | hc
    · decide
    · decide
    · exact fun hmark => hfront c hc (List.mem_cons_of_mem _ hmark)
    · decide
    · exact fun hmark => hunmarked hdatabase c hc (List.mem_cons_of_mem _ hmark)
  have hslash : '/' ∉ user ++ ':' :: (counted secret ++ '@' :: host) :=
    fun hmem => hfront _ hmem List.mem_cons_self
  have hspan := Url.span_append _ ('/' :: database) (Url.ne_mark_of_mem hslash) (by simp)
  rw [List.span_eq_takeWhile_dropWhile, Prod.mk.injEq] at hspan
  have hat : user ++ ':' :: (counted secret ++ '@' :: host) ≠ ['@'] := by
    intro heq
    have hcolon : ':' ∈ ['@'] := heq ▸ List.mem_append_right _ List.mem_cons_self
    exact absurd hcolon (by decide)
  rw [parse_inlineText huser hhost hdatabase]
  dsimp only
  rw [List.takeWhile_eq_self_iff.2 hbefore, List.dropWhile_eq_nil_iff.2 hbefore,
    Url.readHierarchy_slashes, hcut, hspan.1, hspan.2, if_neg (by simp [hat]),
    readAuthority_inline huser hhost]
  change Except.ok (Url.mk _ _ _ (Url.Path.ofText database) _ _) = _
  rw [hdatabase.isPath.ofText_eq]
  rfl

theorem at_mem_path (hslash : '/' ∈ secret) (remaining : List Char) : '@' ∈ Url.pathAfterAuthority
    (remaining ++ (inlineRest user secret host database).dropWhile (· ≠ '/')) := by
  obtain ⟨before, after, rfl, hbefore⟩ := List.eq_append_cons_of_mem hslash
  have hfront : '/' ∉ user ++ ':' :: before := by
    simp [huser.not_mem (c := '/') (.inl (by decide)), hbefore]
  have hcut : inlineRest user (before ++ '/' :: after) host database =
      (user ++ ':' :: before) ++ '/' :: (after ++ '@' :: host ++ '/' :: database) := by
        simp [inlineRest]
  have hspan :=
    Url.span_append _ ('/' :: (after ++ '@' :: host ++ '/' :: database)) (Url.ne_mark_of_mem hfront)
    (by simp)
  rw [List.span_eq_takeWhile_dropWhile, Prod.mk.injEq] at hspan
  obtain ⟨as, htext⟩ :=
    exists_pathAfterAuthority remaining (after ++ '@' :: host ++ '/' :: database)
  have hat : '/' ∉ '@' :: host := by simp [hhost.not_mem (c := '/') (.inl (by decide))]
  have hmem :=
    Url.Path.mem_ofText hat (hdatabase.not_mem (.inl (by decide))) hdatabase.not_isDots (by decide)
    (by decide) (as ++ after)
  rw [hcut, hspan.2, htext]
  rwa [List.append_assoc as, List.append_assoc as] at hmem

theorem unmarked_of_parse (h : Url.parse (inlineText user secret host database) =
    .ok (plainUrl user password host database)) : ∀ c ∈ secret, c ∉ ['/', '?', '#'] := by
  rw [parse_inlineText huser hhost hdatabase] at h
  dsimp only at h
  rcases Url.cases_of_readHierarchy h with ⟨rest, a, remaining, hhierarchy, -, hu⟩ | ⟨-, hu⟩
  · have hends := Url.eq_nil_of_queryAndFragment (Url.head_dropWhile_beforeMark _)
      (Prod.ext (congrArg Url.query hu).symm (congrArg Url.fragment hu).symm)
    rw [List.dropWhile_eq_nil_iff] at hends
    rw [List.takeWhile_eq_self_iff.2 hends] at hhierarchy
    obtain rfl : inlineRest user (counted secret) host database = rest :=
      (List.cons.inj (List.cons.inj hhierarchy).2).2
    intro c hc hmark
    have hcounts : c ∈ counted secret := by
      have hset : ∀ c ∈ ['/', '?', '#'], (!isTabOrNewline c) = true :=
        List.all_eq_true.1 (by decide)
      exact List.mem_filter.2 ⟨hc, hset c hmark⟩
    rcases List.mem_cons.1 hmark with rfl | hmark
    · have hmem := at_mem_path huser hhost hdatabase hcounts remaining
      have hpath : '/' :: database = Url.pathAfterAuthority (remaining ++
          (inlineRest user (counted secret) host database).dropWhile (· ≠ '/')) :=
            congrArg Url.path hu
      rw [← hpath] at hmem
      exact hdatabase.not_mem (.inl (by decide)) ((List.mem_cons.1 hmem).resolve_left (by decide))
    · have hmem : c ∈ '/' :: '/' :: inlineRest user (counted secret) host database := by
        simp [inlineRest, hcounts]
      have htrue := hends c hmem
      rcases List.mem_pair.1 hmark with rfl | rfl <;> cases htrue
  · cases congrArg Url.authority hu

end Plain

/-! ### Settings -/

def passwordSettings (dsn : String) (password : Option String) : ConnectionSettings :=
  { engine := none, dsn := some dsn, host := none, port := none, user := none, password,
    database := none, path := none, params := none, pool := none }

theorem resolve_passwordSettings {dsn text : String} {password : Option String}
    (hdsn : expanded env dsn = .ok text)
    (hdetect : detect text = .ok .postgres) : resolve env (passwordSettings dsn password) =
      (Url.parse text.toList).mapError .malformed >>= fun url =>
        withPassword env password url >>= fun url =>
        withDatabase .postgres none url >>= fun url => .ok (String.ofList url.write) := by
  have hbase : (passwordSettings dsn password).dsn.mapM (expanded env) = .ok (some text) := by
    change expanded env dsn >>= _ = _
    rw [hdsn]
    rfl
  have hempty : sortedParams [] = [] := sortedParams_eq_nil_iff.2 rfl
  have hfields (url : Url) : withFields env (passwordSettings dsn password) .postgres url =
      withPassword env password url >>= fun url => withDatabase .postgres none url := by
    change (withPassword env password url >>= fun url => withDatabase .postgres none url >>=
      withQuery env (sortedParams [])) = _
    rw [hempty]
    refine bind_congr fun url => ?_
    cases withDatabase .postgres none url <;> rfl
  rw [resolve_of_engine hbase hdetect, if_neg (by decide)]
  change (Url.parse text.toList).mapError .malformed >>= (fun url =>
    withFields env (passwordSettings dsn password) .postgres url >>= fun url =>
      .ok (String.ofList url.write)) = _
  simp only [hfields, bind_assoc]

theorem detect_postgres {dsn : String} (hdsn : dsn.toList = "postgres".toList ++ ':' :: rest) :
    detect dsn = .ok .postgres := by
  have hdetect : detect "postgres" = .ok .postgres := rfl
  refine detect_of_engineName ?_ hdetect
  rw [hdsn, engineName_append (by decide)]
  decide

theorem withDatabase_plainUrl (hdatabase : IsPlain database) (user password host : List Char) :
    withDatabase .postgres none (plainUrl user password host database) =
      .ok (plainUrl user password host database) := by
  rw [withDatabase_none_eq, if_pos]
  obtain ⟨c, rest, rfl⟩ := List.exists_cons_of_ne_nil hdatabase.ne_nil
  refine Url.namesDatabase_iff.2 ⟨c, List.mem_cons_of_mem _ List.mem_cons_self, ?_⟩
  rintro rfl
  exact hdatabase.not_mem (.inl (by decide)) List.mem_cons_self

theorem isVariable_pw : IsVariable "PW".toList := ⟨by decide, List.all_eq_true.1 (by decide)⟩

def reference : String := "$\x7bPW\x7d"

theorem expanded_reference {w : String} (hw : env "PW" = some w) :
    expanded env reference = .ok w := by
  have hchars : reference.toList = '$' :: '\x7b' :: ("PW".toList ++ '\x7d' :: []) := by decide
  have hexpand := expandChars_reference isVariable_pw hw []
  rw [expandChars_nil] at hexpand
  rw [expanded, expand, hchars, hexpand]
  change Except.ok (String.ofList (w.toList ++ [])) = _
  rw [List.append_nil, String.ofList_toList]

def fieldDsn (user host database : String) : String :=
  "postgres://" ++ user ++ "@" ++ host ++ "/" ++ database

def inlineDsn (user host database : String) : String :=
  "postgres://" ++ user ++ ":" ++ reference ++ "@" ++ host ++ "/" ++ database

theorem toList_opening : "postgres://".toList = "postgres".toList ++ [':', '/', '/'] := by decide

theorem toList_fieldDsn (user host database : String) : (fieldDsn user host database).toList =
    "postgres".toList ++ ':' :: '/' :: '/' ::
      (user.toList ++ '@' :: (host.toList ++ '/' :: database.toList)) := by
  have hcut (scheme : List Char) :
      scheme ++ [':', '/', '/'] ++ user.toList ++ ['@'] ++ host.toList ++ ['/'] ++ database.toList =
        scheme ++ ':' :: '/' :: '/' ::
          (user.toList ++ '@' :: (host.toList ++ '/' :: database.toList)) := by simp
  change ("postgres://" ++ user ++ "@" ++ host ++ "/" ++ database).toList = _
  rw [String.toList_append, String.toList_append, String.toList_append, String.toList_append,
    String.toList_append, toList_opening]
  exact hcut _

theorem toList_inlineDsn (user host database : String) : (inlineDsn user host database).toList =
    ("postgres".toList ++ ':' :: '/' :: '/' :: (user.toList ++ [':'])) ++
      '$' :: '\x7b' ::
        ("PW".toList ++ '\x7d' :: ('@' :: (host.toList ++ '/' :: database.toList))) := by
  have hreference : reference.toList = '$' :: '\x7b' :: ("PW".toList ++ ['\x7d']) := by decide
  have hcut (scheme name : List Char) : scheme ++ [':', '/', '/'] ++ user.toList ++ [':'] ++
      '$' :: '\x7b' :: (name ++ ['\x7d']) ++ ['@'] ++ host.toList ++ ['/'] ++ database.toList =
      (scheme ++ ':' :: '/' :: '/' :: (user.toList ++ [':'])) ++
        '$' :: '\x7b' :: (name ++ '\x7d' :: ('@' :: (host.toList ++ '/' :: database.toList))) := by
          simp
  change ("postgres://" ++ user ++ ":" ++ reference ++ "@" ++ host ++ "/" ++ database).toList = _
  rw [String.toList_append, String.toList_append, String.toList_append, String.toList_append,
    String.toList_append, String.toList_append, String.toList_append, toList_opening, hreference]
  exact hcut _ _

theorem write_plainUrl (hne : user ≠ []) (host database : List Char) :
    (plainUrl user [] host database).write =
    "postgres".toList ++ ':' :: '/' :: '/' :: (user ++ '@' :: (host ++ '/' :: database)) := by
  unfold plainUrl
  generalize "postgres".toList = scheme
  simp [Url.write, Url.Authority.write, Url.Host.write, hne]

section Names

variable {user host database w : String} (huser : IsPlain user.toList) (hhost : IsPlain host.toList)
  (hdatabase : IsPlain database.toList)
include huser hhost hdatabase

theorem expanded_fieldDsn :
    expanded env (fieldDsn user host database) = .ok (fieldDsn user host database) := by
  have hdollar : '$' ∉ (fieldDsn user host database).toList := by
    have hword : '$' ∉ "postgres".toList := by decide
    simp only [toList_fieldDsn, List.mem_append, List.mem_cons, not_or]
    exact ⟨hword, by decide, by decide, by decide, huser.not_dollar_mem, by decide,
      hhost.not_dollar_mem, by decide, hdatabase.not_dollar_mem⟩
  rw [expanded, expand, expandChars_of_plain hdollar]
  exact congrArg Except.ok String.ofList_toList

theorem expanded_inlineDsn (hw : env "PW" = some w) : expanded env (inlineDsn user host database) =
    .ok (String.ofList (inlineText user.toList w.toList host.toList database.toList)) := by
  have hfront : '$' ∉ "postgres".toList ++ ':' :: '/' :: '/' :: (user.toList ++ [':']) := by
    have hword : '$' ∉ "postgres".toList := by decide
    simp only [List.mem_append, List.mem_cons, List.not_mem_nil, or_false, not_or]
    exact ⟨hword, by decide, by decide, by decide, huser.not_dollar_mem, by decide⟩
  have hback : '$' ∉ '@' :: (host.toList ++ '/' :: database.toList) := by
    simp only [List.mem_append, List.mem_cons, not_or]
    exact ⟨by decide, hhost.not_dollar_mem, by decide, hdatabase.not_dollar_mem⟩
  have hjoin (scheme : List Char) : scheme ++ ':' :: '/' :: '/' :: (user.toList ++ [':']) ++
      (w.toList ++ '@' :: (host.toList ++ '/' :: database.toList)) =
      scheme ++ ':' :: '/' :: '/' :: inlineRest user.toList w.toList host.toList
        database.toList := by simp [inlineRest]
  rw [expanded, expand, toList_inlineDsn, expandChars_append_of_plain hfront,
    expandChars_reference isVariable_pw hw, expandChars_of_plain hback]
  exact congrArg (Except.ok <| String.ofList ·) (hjoin _)

theorem resolve_fieldDsn (hw : env "PW" = some w) :
    resolve env (passwordSettings (fieldDsn user host database) (some reference)) =
      .ok (String.ofList (plainUrl user.toList (encode inUserinfoSet w.toList) host.toList
        database.toList).write) := by
  have hempty : Encoded inUserinfoSet [] := nofun
  have hnamed : (plainUrl user.toList [] host.toList database.toList).hasHost = true := rfl
  have hparse : Url.parse (fieldDsn user host database).toList =
      .ok (plainUrl user.toList [] host.toList database.toList) := by
    rw [toList_fieldDsn, ← write_plainUrl huser.ne_nil]
    exact parse_plainUrl huser hhost hdatabase hempty
  rw [resolve_passwordSettings (expanded_fieldDsn huser hhost hdatabase)
    (detect_postgres (toList_fieldDsn ..)), hparse]
  change withPassword env (some reference) _ >>= _ = _
  rw [withPassword_eq (expanded_reference hw), if_pos hnamed]
  change withDatabase _ none (plainUrl _ _ _ _) >>= _ = _
  rw [withDatabase_plainUrl hdatabase]
  rfl

theorem resolve_inlineDsn (hw : env "PW" = some w) :
    resolve env (passwordSettings (inlineDsn user host database) none) =
      (Url.parse (inlineText user.toList w.toList host.toList database.toList)).mapError
        .malformed >>= fun url =>
        withDatabase .postgres none url >>= fun url => .ok (String.ofList url.write) := by
  rw [resolve_passwordSettings (expanded_inlineDsn huser hhost hdatabase hw)
    (detect_postgres String.toList_ofList), String.toList_ofList]
  rfl

theorem resolve_inlineDsn_of_unmarked (hw : env "PW" = some w)
    (hunmarked : ∀ c ∈ w.toList, c ∉ ['/', '?', '#']) :
    resolve env (passwordSettings (inlineDsn user host database) none) =
      .ok (String.ofList (plainUrl user.toList
      (encode inUserinfoSet (counted w.toList)) host.toList database.toList).write) := by
  rw [resolve_inlineDsn huser hhost hdatabase hw,
    parse_inlineText_of_unmarked huser hhost hdatabase hunmarked]
  change withDatabase _ none (plainUrl _ _ _ _) >>= _ = _
  rw [withDatabase_plainUrl hdatabase]
  rfl

theorem of_resolve_inlineDsn (hw : env "PW" = some w)
    (h : resolve env (passwordSettings (inlineDsn user host database) none) =
      resolve env (passwordSettings (fieldDsn user host database) (some reference))) :
    (∀ c ∈ w.toList, c ∉ ['/', '?', '#']) ∧ counted w.toList = w.toList := by
  have hencoded : Encoded inUserinfoSet (encode inUserinfoSet w.toList) :=
    Url.sparesEscapes_inUserinfoSet.encoded_encode _
  rw [resolve_inlineDsn huser hhost hdatabase hw, resolve_fieldDsn huser hhost hdatabase hw] at h
  obtain ⟨u, hparse, h⟩ := bind_eq_ok_iff.1 h
  obtain ⟨u', hu', h⟩ := bind_eq_ok_iff.1 h
  have hparse := mapError_eq_ok_iff.1 hparse
  obtain rfl : u = u' := by
    rw [withDatabase_none_eq] at hu'
    split at hu' <;> cases hu'
    rfl
  -- Both names are written from what they are read as, so that the URLs are one.
  have hwrite : u.write =
      (plainUrl user.toList (encode inUserinfoSet w.toList) host.toList database.toList).write :=
    String.ofList_injective (Except.ok.inj h)
  have hreread := Url.parse_write_of_parse hparse
  rw [hwrite, parse_plainUrl huser hhost hdatabase hencoded] at hreread
  obtain rfl := Except.ok.inj hreread
  have hunmarked := unmarked_of_parse huser hhost hdatabase hparse
  refine ⟨hunmarked, ?_⟩
  rw [parse_inlineText_of_unmarked huser hhost hdatabase hunmarked] at hparse
  have hpassword : encode inUserinfoSet (counted w.toList) = encode inUserinfoSet w.toList :=
    congrArg Url.Authority.password
      (Option.some.inj (congrArg Url.authority (Except.ok.inj hparse)))
  by_contra hne
  have hsublist : List.Sublist (counted w.toList) w.toList := List.filter_sublist
  exact (Url.length_encode_lt_of_sublist hsublist hne).ne (congrArg List.length hpassword)

end Names

def Names (settings : Except DsnError String) (u : Url) : Prop :=
  settings = .ok (String.ofList u.write) ∧ Url.parse u.write = .ok u

/-- A password that is put in its field is the value, encoded. Put in the text it gives the same
name exactly if nothing in it ends what stands before a path or does not count in a URL. Where it
has nothing of the first, it is the password still, and nothing else depends on it. -/
theorem resolve_password (env : Environment) (user host database w : String)
    (huser : IsPlain user.toList)
    (hhost : IsPlain host.toList) (hdatabase : IsPlain database.toList) (hw : env "PW" = some w) :
    let field := resolve env (passwordSettings (fieldDsn user host database) (some reference))
    let inline := resolve env (passwordSettings (inlineDsn user host database) none)
    let url (password : List Char) :=
      plainUrl user.toList (encode inUserinfoSet password) host.toList database.toList
    Names field (url w.toList) ∧
      (inline = field ↔ ∀ c ∈ w.toList, c ∉ ['/', '?', '#', '\t', '\n', '\r']) ∧
      ((∀ c ∈ w.toList, c ∉ ['/', '?', '#']) → Names inline (url (counted w.toList))) := by
  intro field inline url
  have hread (password : List Char) : Url.parse (url password).write = .ok (url password) :=
    parse_plainUrl huser hhost hdatabase (Url.sparesEscapes_inUserinfoSet.encoded_encode password)
  have hfield : field = .ok (String.ofList (url w.toList).write) :=
    resolve_fieldDsn huser hhost hdatabase hw
  have hinline (hunmarked : ∀ c ∈ w.toList, c ∉ ['/', '?', '#']) :
      inline = .ok (String.ofList (url (counted w.toList)).write) :=
    resolve_inlineDsn_of_unmarked huser hhost hdatabase hw hunmarked
  have hsame : (∀ c ∈ w.toList, c ∉ ['/', '?', '#', '\t', '\n', '\r']) ↔
      (∀ c ∈ w.toList, c ∉ ['/', '?', '#']) ∧ counted w.toList = w.toList := by
    rw [counted, List.filter_eq_self, ← forall₂_and]
    refine forall₂_congr fun c _ => ?_
    simp [isTabOrNewline]
    tauto
  refine ⟨⟨hfield, hread _⟩, ⟨fun h => ?_, fun h => ?_⟩, fun h => ⟨hinline h, hread _⟩⟩
  · exact hsame.2 (of_resolve_inlineDsn huser hhost hdatabase hw h)
  · obtain ⟨hunmarked, hcounted⟩ := hsame.1 h
    rw [hfield, hinline hunmarked, hcounted]

theorem resolve_password_at_sign :
    let env : Environment := fun name => if name = "PW" then some "p@ss:é" else none
    IsPlain "u".toList ∧ IsPlain "h".toList ∧ IsPlain "d".toList ∧ env "PW" = some "p@ss:é" ∧
      resolve env (passwordSettings (fieldDsn "u" "h" "d") (some reference)) =
        .ok "postgres://u:p%40ss%3A%C3%A9@h/d" ∧
      resolve env (passwordSettings (inlineDsn "u" "h" "d") none) =
        .ok "postgres://u:p%40ss%3A%C3%A9@h/d" := by
  intro env
  have hu : IsPlain "u".toList := by decide
  have hh : IsPlain "h".toList := by decide
  have hd : IsPlain "d".toList := by decide
  have hpw : env "PW" = some "p@ss:é" := rfl
  obtain ⟨hfield, hsame, -⟩ := resolve_password env "u" "h" "d" "p@ss:é" hu hh hd hpw
  have hfield : resolve env (passwordSettings (fieldDsn "u" "h" "d") (some reference)) =
      .ok "postgres://u:p%40ss%3A%C3%A9@h/d" := hfield.1.trans (by decide +kernel)
  have hmarks : ∀ c ∈ "p@ss:é".toList, c ∉ ['/', '?', '#', '\t', '\n', '\r'] :=
    List.all_iff_forall_prop.1 (by decide)
  exact ⟨hu, hh, hd, hpw, hfield, (hsame.2 hmarks).trans hfield⟩

/-- After a slash the rest of the value is in the path, and what stands before it is host and
port. -/
theorem slash_ends_password :
    let env : Environment := fun name => if name = "PW" then some "1/x" else none
    IsPlain "u".toList ∧ IsPlain "h".toList ∧ IsPlain "d".toList ∧
      resolve env (passwordSettings (fieldDsn "u" "h" "d") (some reference)) =
        .ok "postgres://u:1%2Fx@h/d" ∧
      resolve env (passwordSettings (inlineDsn "u" "h" "d") none) = .ok "postgres://u:1/x@h/d" ∧
      Url.parse "postgres://u:1/x@h/d".toList =
        .ok ⟨"postgres".toList, some ⟨[], [], .name ['u'], some 1⟩, false, "/x@h/d".toList,
          none, none⟩ := by
  decide +kernel

end Dsn

end QueryMapping
