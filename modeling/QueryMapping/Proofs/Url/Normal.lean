import QueryMapping.Proofs.Url.Parse
import QueryMapping.Url.Edit

/-! URLs in normal form, with every part encoded as reading encodes it. Reading gives no others,
changing a part keeps to them, and one that names a host is written so that it is read again. -/

namespace QueryMapping.Url

variable {u v : Url} {c : Char} {cs : List Char}

/-- A URL as reading one gives it. Only an opaque path is not resolved. -/
structure IsNormal (u : Url) : Prop where
  scheme : IsScheme u.scheme
  authority : ∀ a ∈ u.authority, a.IsNormal
  path : u.isOpaque = false → u.path = [] ∧ u.setOff = false ∨ Path.IsPath u.path
  query : ∀ q ∈ u.query, Encoded inQuerySet q
  fragment : ∀ f ∈ u.fragment, Encoded inFragmentSet f

theorem isOpaque_of_authority {a : Authority} (ha : u.authority = some a) : u.isOpaque = false := by
  rw [isOpaque, ha]
  rfl

theorem exists_authority (hhost : u.hasHost = true) :
    ∃ a, u.authority = some a ∧ a.host ≠ .empty := by
  rw [hasHost, Option.any_eq_true] at hhost
  obtain ⟨a, ha, hnamed⟩ := hhost
  exact ⟨a, ha, of_decide_eq_true hnamed⟩

/-! ### Writing and reading -/

def endText (u : Url) : List Char := u.query.elim [] ('?' :: ·) ++ u.fragment.elim [] ('#' :: ·)

def pathText (u : Url) : List Char := (if u.setOff then ['/', '.'] else []) ++ u.path

theorem write_of_authority {a : Authority} (ha : u.authority = some a) :
    u.write = u.scheme ++ ':' :: ('/' :: '/' :: (a.write ++ u.pathText) ++ u.endText) := by
  simp [write, ha, pathText, endText]

namespace IsNormal

variable (h : u.IsNormal)
include h

theorem pathAfterAuthority_pathText (hform : u.isOpaque = false) :
    pathAfterAuthority u.pathText = u.path := by
  rw [pathText]
  rcases h.path hform with ⟨hpath, hsetOff⟩ | hpath
  · rw [hpath, hsetOff]
    rfl
  · obtain ⟨cs, heq⟩ := hpath.exists_eq_cons
    rw [heq] at hpath ⊢
    split
    · exact (Path.ofText_single cs).trans hpath.ofText_eq
    · exact hpath.ofText_eq

theorem of_mem_pathText (hform : u.isOpaque = false) (hc : c ∈ u.pathText) :
    0x20 < c.toNat ∧ c ∉ ['?', '#'] := by
  rw [pathText] at hc
  rcases List.mem_append.1 hc with hc | hc
  · split at hc
    · have hvisible : ∀ c ∈ ['/', '.'], 0x20 < c.toNat ∧ c ∉ ['?', '#'] :=
        List.all_iff_forall_prop.1 (by decide)
      exact hvisible c hc
    · cases hc
  · rcases h.path hform with ⟨hpath, -⟩ | hpath
    · rw [hpath] at hc
      cases hc
    · exact visible_of_not_inPathSet (hpath.encoded c hc).2

theorem head_pathText (hform : u.isOpaque = false) : ∀ c ∈ u.pathText.head?, c = '/' := by
  rw [pathText]
  rcases h.path hform with ⟨hpath, hsetOff⟩ | hpath
  · rw [hpath, hsetOff]
    simp
  · obtain ⟨cs, heq⟩ := hpath.exists_eq_cons
    rw [heq]
    split <;> simp

theorem of_mem_endText (hc : c ∈ u.endText) : 0x20 < c.toNat := by
  rw [endText] at hc
  rcases List.mem_append.1 hc with hc | hc
  · cases hquery : u.query with
    | none => rw [hquery] at hc; cases hc
    | some q =>
      rw [hquery] at hc
      rcases List.mem_cons.1 hc with rfl | hc
      · decide
      · exact (visible_of_not_inQuerySet (h.query q hquery c hc).2).1
  · cases hfragment : u.fragment with
    | none => rw [hfragment] at hc; cases hc
    | some f =>
      rw [hfragment] at hc
      rcases List.mem_cons.1 hc with rfl | hc
      · decide
      · exact visible_of_not_inFragmentSet (h.fragment f hfragment c hc).2

theorem queryAndFragment_endText : queryAndFragment u.endText = (u.query, u.fragment) := by
  have hquery := h.query
  have hfragment := h.fragment
  rw [endText, queryAndFragment]
  generalize u.query = query at hquery ⊢
  generalize u.fragment = fragment at hfragment ⊢
  have hmark : '#' ∉ query.elim [] ('?' :: ·) := by
    cases query with
    | none => exact List.not_mem_nil
    | some q =>
      intro hmem
      rcases List.mem_cons.1 hmem with hmem | hmem
      · exact absurd hmem (by decide)
      · exact (visible_of_not_inQuerySet (hquery q rfl '#' hmem).2).2 rfl
  have hspan :=
    span_append (query.elim [] ('?' :: ·)) (fragment.elim [] ('#' :: ·)) (ne_mark_of_mem hmark)
    (by cases fragment <;> simp)
  rw [hspan]
  cases query with
  | none =>
    cases fragment with
    | none => rfl
    | some f => simp [(hfragment f rfl).encode_eq]
  | some q =>
    cases fragment with
    | none => simp [(hquery q rfl).encode_eq]
    | some f => simp [(hquery q rfl).encode_eq, (hfragment f rfl).encode_eq]

theorem of_mem_write {a : Authority} (ha : u.authority = some a) (hc : c ∈ u.write) :
    0x20 < c.toNat := by
  have hform := isOpaque_of_authority ha
  have hscheme : ∀ c, isSchemeChar c = true → 0x20 < c.toNat := by
    intro c hc
    by_contra hle
    have hno : isSchemeChar c = false :=
      of_toNat_lt (P := (isSchemeChar · = false)) (n := 33) (by decide) (by omega)
    rw [hno] at hc
    cases hc
  rw [write_of_authority ha] at hc
  simp only [List.mem_append, List.mem_cons] at hc
  rcases hc with hc | rfl | (rfl | rfl | hc | hc) | hc
  · exact hscheme c (h.scheme.chars c hc)
  · decide
  · decide
  · decide
  · exact ((h.authority a ha).of_mem_write hc).1
  · exact (h.of_mem_pathText hform hc).1
  · exact h.of_mem_endText hc

/-- A URL that names a host is written so that it is read again. What sets its path off is not
needed after an authority, and gone then. -/
theorem parse_write (hhost : u.hasHost = true) :
    parse u.write = .ok { u with setOff := false } := by
  obtain ⟨a, ha, hnamed⟩ := exists_authority hhost
  have hform := isOpaque_of_authority ha
  have hauthority := h.authority a ha
  have hplain : ∀ c ∈ '/' :: '/' :: (a.write ++ u.pathText),
      (decide (c ≠ '?') && decide (c ≠ '#')) = true := by
    intro c hc
    have hends : c ∉ ['?', '#'] := by
      simp only [List.mem_cons, List.mem_append] at hc
      rcases hc with rfl | rfl | hc | hc
      · decide
      · decide
      · exact fun hmem => (hauthority.of_mem_write hc).2 (List.mem_cons_of_mem _ hmem)
      · exact (h.of_mem_pathText hform hc).2
    simpa [not_or] using hends
  have hend : ∀ c ∈ u.endText.head?, (decide (c ≠ '?') && decide (c ≠ '#')) = false := by
    rw [endText]
    cases u.query <;> cases u.fragment <;> simp
  have hhierarchy := span_append _ _ hplain hend
  have hpath := span_append a.write u.pathText
    (ne_mark_of_mem fun hmem => (hauthority.of_mem_write hmem).2 List.mem_cons_self)
    (fun c hc => by simpa using h.head_pathText hform c hc)
  rw [parse, significant_of_visible fun c hc => h.of_mem_write ha hc, write_of_authority ha,
    parseSignificant, h.scheme.scheme?_append]
  dsimp only
  rw [hhierarchy]
  dsimp only
  rw [h.queryAndFragment_endText]
  have hat : (decide (a.write = ['@'])) = false := decide_eq_false (hauthority.write_ne_at hnamed)
  simp only [hpath, hat, hauthority.readAuthority_write hnamed]
  simp only [bind, Except.bind, pure, Except.pure, List.nil_append,
    h.pathAfterAuthority_pathText hform, ha]
  rfl

end IsNormal

/-! ### Reading -/

theorem encoded_cutUserinfo (cs : List Char) :
    Encoded inUserinfoSet (cutUserinfo cs).1.1 ∧ Encoded inUserinfoSet (cutUserinfo cs).1.2 := by
  rw [cutUserinfo]
  split
  · exact ⟨sparesEscapes_inUserinfoSet.encoded_encode _,
      sparesEscapes_inUserinfoSet.encoded_encode _⟩
  · exact ⟨List.forall_mem_nil _, List.forall_mem_nil _⟩

theorem le_of_readPort {port : Option Nat} {rest : List Char} (h : readPort cs = .ok (port, rest)) :
    ∀ p ∈ port, p ≤ 65535 := by
  rw [readPort] at h
  dsimp only at h
  split at h
  · cases h
  · next hle =>
    split at h
    · cases h
    · obtain ⟨rfl, -⟩ := Prod.mk.inj (Except.ok.inj h)
      intro p hp
      split at hp
      · cases hp
      · exact Option.some.inj hp ▸ Nat.not_lt.1 hle

theorem Authority.isNormal_of_readAuthority {a : Authority} {rest : List Char}
    (h : readAuthority cs = .ok (a, rest)) : a.IsNormal := by
  have hencoded := encoded_cutUserinfo cs
  rw [readAuthority] at h
  generalize cutUserinfo cs = cut at h hencoded
  obtain ⟨⟨user, password⟩, hostport⟩ := cut
  obtain ⟨huser, hpassword⟩ := hencoded
  dsimp only at h
  generalize spanHost false hostport = parts at h
  obtain ⟨text, following⟩ := parts
  dsimp only at h
  obtain ⟨host, hhost, h⟩ := bind_eq_ok_iff.1 h
  have hhost := Host.isNormal_of_parse hhost
  split at h
  · cases h
  · split at h
    · obtain ⟨⟨port, rest'⟩, hport, h⟩ := bind_eq_ok_iff.1 h
      obtain ⟨rfl, -⟩ := Prod.mk.inj (Except.ok.inj h)
      exact ⟨huser, hpassword, hhost, le_of_readPort hport⟩
    · obtain ⟨rfl, -⟩ := Prod.mk.inj (Except.ok.inj h)
      exact ⟨huser, hpassword, hhost, fun p hp => by cases hp⟩

theorem encoded_queryAndFragment (cs : List Char) :
    (∀ q ∈ (queryAndFragment cs).1, Encoded inQuerySet q) ∧
      ∀ f ∈ (queryAndFragment cs).2, Encoded inFragmentSet f := by
  rw [queryAndFragment]
  constructor
  · intro q hq
    dsimp only at hq
    split at hq
    · exact Option.some.inj hq ▸ sparesEscapes_inQuerySet.encoded_encode _
    · cases hq
  · intro f hf
    dsimp only at hf
    split at hf
    · exact Option.some.inj hf ▸ sparesEscapes_inFragmentSet.encoded_encode _
    · cases hf

theorem pathAfterAuthority_normal (cs : List Char) :
    pathAfterAuthority cs = [] ∨ Path.IsPath (pathAfterAuthority cs) := by
  rw [pathAfterAuthority.eq_def]
  split
  · exact .inl rfl
  · exact .inr (Path.isPath_ofText _)
  · exact .inr (Path.isPath_ofText _)

theorem pathAlone_normal (h : (pathAlone cs).head? = some '/') : Path.IsPath (pathAlone cs) := by
  rw [pathAlone.eq_def] at h ⊢
  split at h
  · exact Path.isPath_ofText _
  · next hslash =>
    obtain ⟨rest, heq⟩ := List.head?_eq_some_iff.1 h
    obtain ⟨rest', rfl, -⟩ := eq_cons_of_encode_eq_cons heq (by decide)
    exact absurd rfl (hslash rest')

theorem isNormal_of_parse (h : parse cs = .ok u) : u.IsNormal := by
  rw [parse, parseSignificant] at h
  generalize significant cs = text at h
  cases hscheme : scheme? text with
  | none => rw [hscheme] at h; cases h
  | some parts =>
    obtain ⟨scheme, rest⟩ := parts
    rw [hscheme] at h
    have hscheme := isScheme_of_scheme? hscheme
    dsimp only at h
    obtain ⟨hquery, hfragment⟩ := encoded_queryAndFragment (rest.span fun c => c ≠ '?' && c ≠ '#').2
    split at h
    · split at h
      · cases h
      · obtain ⟨⟨a, remaining⟩, ha, h⟩ := bind_eq_ok_iff.1 h
        obtain rfl := Except.ok.inj h
        refine ⟨hscheme, fun a' ha' => ?_, fun _ => ?_, hquery, hfragment⟩
        · exact Option.some.inj ha' ▸ Authority.isNormal_of_readAuthority ha
        · exact (pathAfterAuthority_normal _).imp_left fun hpath => ⟨hpath, rfl⟩
    · obtain rfl := Except.ok.inj h
      refine ⟨hscheme, fun a ha => (by cases ha), fun hform => .inr (pathAlone_normal ?_),
        hquery, hfragment⟩
      rw [isOpaque, Option.isNone_none, Bool.true_and, Bool.and_eq_false_iff, Bool.not_eq_false',
        bne_eq_false_iff_eq] at hform
      rcases hform with hsetOff | hslash
      · obtain ⟨rest', hrest'⟩ := List.isPrefixOf_iff_prefix.1 hsetOff
        rw [← hrest']
        rfl
      · exact hslash

/-! ### Changing parts -/

def authorityOrBlank (u : Url) : Authority := u.authority.getD ⟨[], [], .empty, none⟩

theorem IsNormal.authorityOrBlank (h : u.IsNormal) : u.authorityOrBlank.IsNormal := by
  rw [Url.authorityOrBlank]
  cases ha : u.authority with
  | none => exact ⟨List.forall_mem_nil _, List.forall_mem_nil _, trivial, fun p hp => by cases hp⟩
  | some a => exact h.authority a ha

theorem setHost_eq_ok_iff : u.setHost cs = .ok v ↔
    u.isOpaque = false ∧ ∃ part host, hostPart? cs = some part ∧ Host.parse part = .ok host ∧
      v = { u with authority := some { u.authorityOrBlank with host } } := by
  rw [setHost]
  by_cases hform : u.isOpaque = true
  · rw [if_pos hform]
    exact iff_of_false (fun h => by cases h) fun h => by rw [hform] at h; cases h.1
  · rw [if_neg hform]
    cases hostPart? cs with
    | none => simp
    | some part =>
      simp only [bind_eq_ok_iff]
      constructor
      · rintro ⟨host, hhost, h⟩
        refine ⟨by simpa using hform, part, host, rfl, hhost, ?_⟩
        rw [← Except.ok.inj h, authorityOrBlank]
        cases u.authority <;> rfl
      · rintro ⟨-, part', host, hpart, hhost, rfl⟩
        obtain rfl := Option.some.inj hpart
        refine ⟨host, hhost, ?_⟩
        rw [authorityOrBlank]
        cases u.authority <;> rfl

theorem IsNormal.setHost (h : u.IsNormal) (hset : u.setHost cs = .ok v) : v.IsNormal := by
  obtain ⟨hform, part, host, -, hhost, rfl⟩ := setHost_eq_ok_iff.1 hset
  refine ⟨h.scheme, fun a ha => ?_, fun _ => h.path hform, h.query, h.fragment⟩
  obtain rfl := Option.some.inj ha
  have hold := h.authorityOrBlank
  exact ⟨hold.username, hold.password, Host.isNormal_of_parse hhost, hold.port⟩

theorem modifyAuthority?_eq_some_iff {f : Authority → Authority} : u.modifyAuthority? f = some v ↔
    ∃ a, u.authority = some a ∧ a.host ≠ .empty ∧ v = { u with authority := some (f a) } := by
  rw [modifyAuthority?]
  constructor
  · intro h
    split at h
    · next hhost =>
      obtain ⟨a, ha, hnamed⟩ := exists_authority hhost
      rw [ha] at h
      exact ⟨a, ha, hnamed, (Option.some.inj h).symm⟩
    · cases h
  · rintro ⟨a, ha, hnamed, rfl⟩
    rw [if_pos (by simp [hasHost, ha, hnamed]), ha]
    rfl

theorem hasHost_eq (u : Url) : u.hasHost = decide (u.authorityOrBlank.host ≠ .empty) := by
  rw [hasHost, Url.authorityOrBlank]
  cases u.authority <;> rfl

theorem hasHost_of_modifyAuthority? {f : Authority → Authority}
    (h : u.modifyAuthority? f = some v) :
    u.hasHost = true := by
  obtain ⟨a, ha, hnamed, -⟩ := modifyAuthority?_eq_some_iff.1 h
  rw [hasHost, ha]
  exact decide_eq_true hnamed

theorem authorityOrBlank_of_modifyAuthority? {f : Authority → Authority}
    (h : u.modifyAuthority? f = some v) :
    v.authorityOrBlank = f u.authorityOrBlank := by
  obtain ⟨a, ha, -, rfl⟩ := modifyAuthority?_eq_some_iff.1 h
  rw [Url.authorityOrBlank, Url.authorityOrBlank, ha]
  rfl

theorem IsNormal.withAuthority {a b : Authority} (h : u.IsNormal) (ha : u.authority = some a)
    (hb : a.IsNormal → b.IsNormal) : ({ u with authority := some b } : Url).IsNormal := by
  refine ⟨h.scheme, fun b' hb' => ?_, fun _ => h.path (isOpaque_of_authority ha),
    h.query, h.fragment⟩
  exact Option.some.inj hb' ▸ hb (h.authority a ha)

theorem eq_of_setPort? {p : Nat} (hset : u.setPort? p = some v) :
    ∃ a setOff, u.authority = some a ∧ a.host ≠ .empty ∧ (setOff = true → u.setOff = true) ∧
      v = { u with setOff, authority := some { a with port := some p } } := by
  obtain ⟨a, ha, hnamed, rfl⟩ := modifyAuthority?_eq_some_iff.1 hset
  exact ⟨a, _, ha, hnamed, fun h => (Bool.and_eq_true_iff.1 h).1, rfl⟩

theorem IsNormal.setPort? {p : Nat} (h : u.IsNormal) (hp : p ≤ 65535)
    (hset : u.setPort? p = some v) :
    v.IsNormal := by
  obtain ⟨a, setOff, ha, -, hsetOff, rfl⟩ := eq_of_setPort? hset
  have hport := h.withAuthority (b := { a with port := some p }) ha fun ha =>
    ⟨ha.username, ha.password, ha.host, fun p' hp' => Option.some.inj hp' ▸ hp⟩
  refine ⟨hport.scheme, hport.authority, fun _ => ?_, hport.query, hport.fragment⟩
  refine (hport.path (isOpaque_of_authority rfl)).imp_left fun hpath => ⟨hpath.1, ?_⟩
  rw [← Bool.not_eq_true]
  intro h
  have hold := hsetOff h
  rw [hpath.2] at hold
  cases hold

theorem IsNormal.setUsername? (h : u.IsNormal) (hset : u.setUsername? cs = some v) :
    v.IsNormal := by
  obtain ⟨a, ha, -, rfl⟩ := modifyAuthority?_eq_some_iff.1 hset
  have hencoded := sparesEscapes_inUserinfoSet.encoded_encode cs
  exact h.withAuthority ha fun ha => ⟨hencoded, ha.password, ha.host, ha.port⟩

theorem IsNormal.setPassword? (h : u.IsNormal) (hset : u.setPassword? cs = some v) :
    v.IsNormal := by
  obtain ⟨a, ha, -, rfl⟩ := modifyAuthority?_eq_some_iff.1 hset
  have hencoded := sparesEscapes_inUserinfoSet.encoded_encode cs
  exact h.withAuthority ha fun ha => ⟨ha.username, hencoded, ha.host, ha.port⟩

theorem setPath_of_isOpaque (hform : u.isOpaque = true) (cs : List Char) :
    u.setPath cs =
      { u with path := ['%', '2', 'F'] ++ encode isControl (cs.filter (!isTabOrNewline ·)) } := by
  rw [setPath, if_pos hform]

theorem setPath_of_not_isOpaque (hform : u.isOpaque = false) (cs : List Char) :
    u.setPath cs = { u with path := Path.ofText (cs.filter (!isTabOrNewline ·)) } := by
  rw [setPath, if_neg (by rw [hform]; exact Bool.false_ne_true)]

theorem IsNormal.setPath (h : u.IsNormal) (cs : List Char) : (u.setPath cs).IsNormal := by
  cases hform : u.isOpaque with
  | true =>
    rw [setPath_of_isOpaque hform]
    refine ⟨h.scheme, h.authority, fun hnew => ?_, h.query, h.fragment⟩
    rw [isOpaque, Bool.and_eq_true, Bool.and_eq_true] at hform
    rw [isOpaque, hform.1.1, hform.1.2] at hnew
    cases hnew
  | false =>
    rw [setPath_of_not_isOpaque hform]
    exact ⟨h.scheme, h.authority, fun _ => .inr (Path.isPath_ofText _), h.query, h.fragment⟩

theorem encoded_encodeForm (cs : List Char) : Encoded inQuerySet (encodeForm cs) := by
  have hsafe : ∀ k < 128, isFormSafe (Char.ofNat k) = true → inQuerySet (Char.ofNat k) = false := by
    decide +kernel
  intro c hc
  obtain ⟨d, -, hc⟩ := List.mem_flatMap.1 hc
  split at hc
  · obtain rfl := List.mem_singleton.1 hc
    decide
  · have hencoded : c ∈ encode (!isFormSafe ·) [d] := by
      rwa [encode_cons, encode_nil, List.append_nil]
    rcases mem_encode hencoded with ⟨-, hlt, hset⟩ | hescape
    · exact ⟨hlt, of_toNat_lt (P := fun c => isFormSafe c = true → inQuerySet c = false) hsafe hlt
        (by simpa using hset)⟩
    · exact ⟨toNat_lt_of_mem_escape hescape, sparesEscapes_inQuerySet c hescape⟩

theorem encoded_formPair (pair : List Char × List Char) : Encoded inQuerySet (formPair pair) := by
  intro c hc
  rcases List.mem_append.1 hc with hc | hc
  · exact encoded_encodeForm pair.1 c hc
  · rcases List.mem_cons.1 hc with rfl | hc
    · decide
    · exact encoded_encodeForm pair.2 c hc

theorem IsNormal.appendPair (h : u.IsNormal) (pair : List Char × List Char) :
    (u.appendPair pair).IsNormal := by
  have hpair := encoded_formPair pair
  have hquery : ∀ q, Encoded inQuerySet q →
      ({ u with query := some q } : Url).IsNormal := fun q hq =>
    ⟨h.scheme, h.authority, h.path, fun q' hq' => Option.some.inj hq' ▸ hq, h.fragment⟩
  rw [Url.appendPair.eq_def]
  split
  · exact hquery _ hpair
  · exact hquery _ hpair
  · next q _ hq =>
    refine hquery _ fun c hc => ?_
    rcases List.mem_append.1 hc with hc | hc
    · exact h.query q hq c hc
    · rcases List.mem_cons.1 hc with rfl | hc
      · decide
      · exact hpair c hc

end QueryMapping.Url
