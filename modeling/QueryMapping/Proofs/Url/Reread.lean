import Mathlib.Data.List.DropRight
import QueryMapping.Proofs.Url.Normal

/-! Any URL read again after it has been written. Without a named host there is more that a text can
be taken for, and it is said here when it is not. -/

namespace QueryMapping.Url

variable {u v : Url} {c : Char} {cs as bs rest scheme hierarchy ending : List Char}

/-! ### Texts that count -/

def significantEnd (cs : List Char) : List Char :=
  (cs.rdropWhile isControlOrSpace).filter (!isTabOrNewline ·)

theorem significant_eq (cs : List Char) :
    significant cs = significantEnd (cs.dropWhile isControlOrSpace) := rfl

theorem not_isControlOrSpace_iff : ¬ isControlOrSpace c = true ↔ 0x20 < c.toNat := by
  rw [isControlOrSpace, decide_eq_true_eq, Nat.not_le]

theorem isTabOrNewline_of_visible (h : 0x20 < c.toNat) : isTabOrNewline c = false := by
  rw [← Bool.not_eq_true, isTabOrNewline, Bool.or_eq_true, Bool.or_eq_true, beq_iff_eq,
    beq_iff_eq, beq_iff_eq]
  rintro ((rfl | rfl) | rfl) <;> revert h <;> decide

theorem rdropWhile_append_of_not {p : Char → Bool} (h : ∀ c ∈ as, ¬ p c = true) (bs : List Char) :
    (as ++ bs).rdropWhile p = as ++ bs.rdropWhile p := by
  induction bs using List.reverseRecOn with
  | nil =>
    rw [List.append_nil, List.rdropWhile_nil, List.append_nil, List.rdropWhile_eq_self_iff]
    exact fun hl => h _ (List.getLast_mem hl)
  | append_singleton bs b ih =>
    rw [← List.append_assoc, List.rdropWhile_concat, List.rdropWhile_concat, ih]
    split
    · rfl
    · rw [List.append_assoc]

theorem significantEnd_append (h : ∀ c ∈ as, 0x20 < c.toNat) (bs : List Char) :
    significantEnd (as ++ bs) = as ++ significantEnd bs := by
  have hkept : as.filter (!isTabOrNewline ·) = as := List.filter_eq_self.2 fun c hc => by
    rw [isTabOrNewline_of_visible (h c hc), Bool.not_false]
  rw [significantEnd, rdropWhile_append_of_not (fun c hc => not_isControlOrSpace_iff.2 (h c hc)),
    List.filter_append, hkept, significantEnd]

theorem significant_append (h : ∀ c ∈ as, 0x20 < c.toNat) (hne : as ≠ []) (bs : List Char) :
    significant (as ++ bs) = as ++ significantEnd bs := by
  obtain ⟨a, as', rfl⟩ := List.exists_cons_of_ne_nil hne
  have hfirst : ¬ isControlOrSpace a = true := not_isControlOrSpace_iff.2 (h a List.mem_cons_self)
  rw [significant_eq, List.cons_append, List.dropWhile_cons_of_neg hfirst, ← List.cons_append,
    significantEnd_append h]

theorem significantEnd_eq_self (h : ∀ c ∈ cs, isTabOrNewline c = false)
    (hlast : ∀ c ∈ cs.getLast?, 0x20 < c.toNat) :
    significantEnd cs = cs := by
  have hself : cs.rdropWhile isControlOrSpace = cs := List.rdropWhile_eq_self_iff.2 fun hne =>
    not_isControlOrSpace_iff.2 (hlast _ (List.getLast?_eq_some_getLast hne))
  rw [significantEnd, hself, List.filter_eq_self]
  exact fun c hc => by rw [h c hc, Bool.not_false]

theorem significantEnd_append_visible (h : ∀ c ∈ bs, 0x20 < c.toNat) (hne : bs ≠ [])
    (as : List Char) :
    significantEnd (as ++ bs) = as.filter (!isTabOrNewline ·) ++ bs := by
  have hself : (as ++ bs).rdropWhile isControlOrSpace = as ++ bs := by
    rw [List.rdropWhile_eq_self_iff]
    intro hl
    rw [List.getLast_append_of_ne_nil _ hne, not_isControlOrSpace_iff]
    exact h _ (List.getLast_mem hne)
  have hkept : bs.filter (!isTabOrNewline ·) = bs := List.filter_eq_self.2 fun c hc => by
    rw [isTabOrNewline_of_visible (h c hc), Bool.not_false]
  rw [significantEnd, hself, List.filter_append, hkept]

theorem visible_getLast?_significant (cs : List Char) :
    ∀ c ∈ (significant cs).getLast?, 0x20 < c.toNat := by
  rw [significant_eq, significantEnd]
  generalize hstripped : (cs.dropWhile isControlOrSpace).rdropWhile isControlOrSpace = stripped
  rcases stripped.eq_nil_or_concat with rfl | ⟨before, last, rfl⟩
  · exact fun c hc => by cases hc
  · have hlast : 0x20 < last.toNat := by
      have hself := List.rdropWhile_idempotent isControlOrSpace (cs.dropWhile isControlOrSpace)
      rw [hstripped, List.concat_eq_append, List.rdropWhile_eq_self_iff] at hself
      have hnot := hself (List.concat_ne_nil _ _)
      rwa [List.getLast_concat, not_isControlOrSpace_iff] at hnot
    intro c hc
    rw [List.concat_eq_append, List.filter_append,
      List.filter_cons_of_pos (by rw [isTabOrNewline_of_visible hlast, Bool.not_false]),
      List.filter_nil,
      List.getLast?_concat] at hc
    exact Option.some.inj hc ▸ hlast

/-! ### Parts of the text -/

def beforeMark (c : Char) : Bool := c ≠ '?' && c ≠ '#'

theorem beforeMark_of_not_mem (h : c ∉ ['?', '#']) : beforeMark c = true := by
  simpa [beforeMark] using h

def readHierarchy (scheme hierarchy ending : List Char) : Except UrlError Url := do
  let ends := queryAndFragment ending
  match hierarchy with
  | '/' :: '/' :: rest =>
    let (beforePath, path) := rest.span (· ≠ '/')
    if beforePath = ['@'] && !(path.isEmpty && ending.isEmpty) then throw .emptyHost
    let (authority, remaining) ← readAuthority beforePath
    return ⟨scheme, some authority, false, pathAfterAuthority (remaining ++ path), ends.1, ends.2⟩
  | hierarchy =>
    return ⟨scheme, none, ['/', '/'].isPrefixOf (pathAlone hierarchy), pathAlone hierarchy,
      ends.1, ends.2⟩

theorem readHierarchy_alone (h : ¬ ['/', '/'] <+: hierarchy) :
    readHierarchy scheme hierarchy ending =
    .ok ⟨scheme, none, ['/', '/'].isPrefixOf (pathAlone hierarchy), pathAlone hierarchy,
      (queryAndFragment ending).1, (queryAndFragment ending).2⟩ := by
  unfold readHierarchy
  split
  · next rest => exact absurd ⟨rest, rfl⟩ h
  · rfl

theorem readHierarchy_slashes (scheme rest ending : List Char) :
    readHierarchy scheme ('/' :: '/' :: rest) ending =
    if rest.takeWhile (· ≠ '/') = ['@'] &&
        !((rest.dropWhile (· ≠ '/')).isEmpty && ending.isEmpty) then
      .error .emptyHost
    else readAuthority (rest.takeWhile (· ≠ '/')) >>= fun parts =>
      .ok ⟨scheme, some parts.1, false, pathAfterAuthority (parts.2 ++ rest.dropWhile (· ≠ '/')),
        (queryAndFragment ending).1, (queryAndFragment ending).2⟩ := by
  rw [readHierarchy]
  dsimp only
  rw [List.span_eq_takeWhile_dropWhile]
  split <;> rfl

theorem parse_eq (h : scheme? (significant cs) = some (scheme, rest)) :
    parse cs = readHierarchy scheme (rest.takeWhile beforeMark) (rest.dropWhile beforeMark) := by
  rw [parse, parseSignificant, h]
  dsimp only
  rw [List.span_eq_takeWhile_dropWhile]
  change (match rest.takeWhile beforeMark with | '/' :: '/' :: rest => _ | hierarchy => _) = _
  generalize rest.takeWhile beforeMark = hierarchy
  split
  · rfl
  · next hslashes =>
    rw [readHierarchy_alone]
    · rfl
    · rintro ⟨rest', rfl⟩
      exact hslashes rest' rfl

theorem cases_of_readHierarchy (h : readHierarchy scheme hierarchy ending = .ok u) :
    (∃ rest a remaining, hierarchy = '/' :: '/' :: rest ∧
      readAuthority (rest.takeWhile (· ≠ '/')) = .ok (a, remaining) ∧
      u = ⟨scheme, some a, false, pathAfterAuthority (remaining ++ rest.dropWhile (· ≠ '/')),
        (queryAndFragment ending).1, (queryAndFragment ending).2⟩) ∨
    ¬ ['/', '/'] <+: hierarchy ∧
      u = ⟨scheme, none, ['/', '/'].isPrefixOf (pathAlone hierarchy), pathAlone hierarchy,
        (queryAndFragment ending).1, (queryAndFragment ending).2⟩ := by
  by_cases hslashes : ['/', '/'] <+: hierarchy
  · obtain ⟨rest, rfl⟩ := hslashes
    change readHierarchy scheme ('/' :: '/' :: rest) ending = .ok u at h
    rw [readHierarchy_slashes] at h
    split at h
    · cases h
    · obtain ⟨⟨a, remaining⟩, ha, h⟩ := bind_eq_ok_iff.1 h
      exact .inl ⟨rest, a, remaining, rfl, ha, (Except.ok.inj h).symm⟩
  · rw [readHierarchy_alone hslashes] at h
    exact .inr ⟨hslashes, (Except.ok.inj h).symm⟩

theorem exists_of_parse (h : parse cs = .ok u) :
    ∃ rest, scheme? (significant cs) = some (u.scheme, rest) ∧
    readHierarchy u.scheme (rest.takeWhile beforeMark) (rest.dropWhile beforeMark) = .ok u := by
  cases hscheme : scheme? (significant cs) with
  | none =>
    rw [parse, parseSignificant, hscheme] at h
    cases h
  | some parts =>
    obtain ⟨scheme, rest⟩ := parts
    rw [parse_eq hscheme] at h
    have heq : u.scheme = scheme := by
      rcases cases_of_readHierarchy h with ⟨_, _, _, -, -, hu⟩ | ⟨-, hu⟩
      · rw [hu]
      · rw [hu]
    rw [← heq] at h
    exact ⟨rest, by rw [heq], h⟩

theorem exists_of_scheme? (h : scheme? cs = some (scheme, rest)) :
    ∃ name, cs = name ++ ':' :: rest ∧ scheme = name.map Char.toLower ∧
    (∀ c ∈ name, isSchemeChar c = true) ∧
      cs.head?.any Char.isAlpha = true := by
  rw [scheme?] at h
  split at h
  · next hhead =>
    split at h
    · next heq =>
      obtain ⟨rfl, rfl⟩ := Prod.mk.inj (Option.some.inj h)
      exact ⟨_, by rw [← heq, List.takeWhile_append_dropWhile], rfl,
        List.all_eq_true.1 List.all_takeWhile, hhead⟩
    · cases h
  · cases h

/-! ### URLs that have been read -/

def Authority.blank : Authority := ⟨[], [], .empty, none⟩

structure IsOpaquePath (path : List Char) : Prop where
  encoded : Encoded isControl path
  unmarked : ∀ c ∈ path, c ∉ ['?', '#']

structure IsRead (u : Url) : Prop where
  setOff : u.setOff = (u.authority.isNone && ['/', '/'].isPrefixOf u.path)
  blank : ∀ a ∈ u.authority, a.host = .empty → a = .blank
  path : u.isOpaque = true → IsOpaquePath u.path
  space : u.isOpaque = true → u.endText = [] → ' ' ∉ u.path.getLast?

theorem eq_blank_of_readAuthority {a : Authority} {remaining : List Char}
    (h : readAuthority cs = .ok (a, remaining)) (hhost : a.host = .empty) : a = .blank := by
  rw [readAuthority] at h
  generalize cutUserinfo cs = cut at h
  obtain ⟨⟨user, password⟩, hostport⟩ := cut
  dsimp only at h
  generalize spanHost false hostport = parts at h
  obtain ⟨text, following⟩ := parts
  dsimp only at h
  obtain ⟨host, -, h⟩ := bind_eq_ok_iff.1 h
  split at h
  · cases h
  · next hblank =>
    split at h
    · obtain ⟨⟨port, rest'⟩, -, h⟩ := bind_eq_ok_iff.1 h
      obtain ⟨rfl, -⟩ := Prod.mk.inj (Except.ok.inj h)
      exact absurd hhost (by simpa using hblank)
    · obtain ⟨rfl, -⟩ := Prod.mk.inj (Except.ok.inj h)
      obtain rfl : host = .empty := hhost
      simp only [decide_true, Bool.true_and, Bool.or_eq_true, Bool.not_eq_true',
        List.isEmpty_eq_false_iff, not_or, not_not] at hblank
      rw [hblank.1.2, hblank.2, Authority.blank]

theorem endText_eq_nil_iff : u.endText = [] ↔ u.query = none ∧ u.fragment = none := by
  rw [endText]
  cases u.query <;> cases u.fragment <;> simp

theorem head_dropWhile_beforeMark (cs : List Char) :
    ∀ c ∈ (cs.dropWhile beforeMark).head?, c = '?' ∨ c = '#' := by
  intro c hc
  have hnot := List.head?_dropWhile_not beforeMark cs
  rw [Option.mem_def.1 hc] at hnot
  change beforeMark c = false at hnot
  by_contra hne
  have htrue : beforeMark c = true := beforeMark_of_not_mem (by simpa using hne)
  rw [htrue] at hnot
  cases hnot

theorem eq_nil_of_queryAndFragment (hmark : ∀ c ∈ ending.head?, c = '?' ∨ c = '#')
    (h : queryAndFragment ending = (none, none)) : ending = [] := by
  rcases ending with _ | ⟨c, rest⟩
  · rfl
  rcases hmark c rfl with rfl | rfl
  · rw [queryAndFragment, List.span_eq_takeWhile_dropWhile,
      List.takeWhile_cons_of_pos (by decide)] at h
    cases (Prod.mk.inj h).1
  · rw [queryAndFragment, List.span_eq_takeWhile_dropWhile,
      List.dropWhile_cons_of_neg (by decide)] at h
    cases (Prod.mk.inj h).2

theorem pathAlone_of_head (h : (pathAlone cs).head? ≠ some '/') :
    pathAlone cs = encode isControl cs := by
  rw [pathAlone.eq_def] at h ⊢
  split
  · exact absurd rfl h
  · rfl

theorem eq_of_encode_concat {inSet : Char → Bool} {last : Char}
    (h : (encode inSet cs).getLast? = some last)
    (hlast : last ∉ '%' :: hexDigits) : cs.getLast? = some last := by
  rcases cs.eq_nil_or_concat with rfl | ⟨before, c, rfl⟩
  · cases h
  · rw [List.concat_eq_append, List.getLast?_concat]
    rw [List.concat_eq_append, encode_append,
      List.getLast?_append_of_ne_nil _ (encode_ne_nil (by simp))] at h
    rw [List.mem_singleton.1 (mem_of_mem_encode (List.mem_of_getLast? h) hlast)]

theorem isRead_of_parse (h : parse cs = .ok u) : u.IsRead := by
  obtain ⟨rest, hscheme, h⟩ := exists_of_parse h
  rcases cases_of_readHierarchy h with ⟨text, a, remaining, -, ha, hu⟩ | ⟨-, hu⟩
  · have hauthority : u.authority = some a := by rw [hu]
    have hform := isOpaque_of_authority hauthority
    refine ⟨?_, fun a' ha' => ?_, fun h => ?_, fun h => ?_⟩
    · rw [hu, Option.isNone_some, Bool.false_and]
    · rw [hauthority] at ha'
      exact Option.some.inj ha' ▸ eq_blank_of_readAuthority ha
    · rw [hform] at h
      cases h
    · rw [hform] at h
      cases h
  · have hpath : u.path = pathAlone (rest.takeWhile beforeMark) := by rw [hu]
    have hencode (h : u.isOpaque = true) :
        u.path = encode isControl (rest.takeWhile beforeMark) := by
      rw [isOpaque, Bool.and_eq_true, bne_iff_ne, hpath] at h
      rw [hpath, pathAlone_of_head h.2]
    refine ⟨by rw [hu]; rfl, fun a ha => ?_, fun h => ?_, fun h hend hspace => ?_⟩
    · rw [hu] at ha
      cases ha
    · rw [hencode h]
      refine ⟨sparesEscapes_isControl.encoded_encode _, fun c hc hmark => ?_⟩
      have hbefore := List.mem_takeWhile_imp (mem_of_mem_encode hc (not_mem_escape_of_mark hmark))
      rcases List.mem_pair.1 hmark with rfl | rfl <;> cases hbefore
    · -- Nothing follows the path, so that its last character is the last of the text.
      have hends : (u.query, u.fragment) = queryAndFragment (rest.dropWhile beforeMark) := by
        rw [hu]
      rw [endText_eq_nil_iff] at hend
      rw [hend.1, hend.2] at hends
      have hnil := eq_nil_of_queryAndFragment (head_dropWhile_beforeMark rest) hends.symm
      have hwhole := List.takeWhile_append_dropWhile (p := beforeMark) (l := rest)
      rw [hnil, List.append_nil] at hwhole
      rw [hencode h, hwhole] at hspace
      obtain ⟨name, hname, -⟩ := exists_of_scheme? hscheme
      have hlast := eq_of_encode_concat hspace (by decide)
      have hvisible := visible_getLast?_significant cs ' '
      rw [hname, List.getLast?_append_of_ne_nil _ (List.cons_ne_nil _ _), List.getLast?_cons,
        hlast] at hvisible
      exact absurd (hvisible rfl) (by decide)

/-! ### URLs that can be read -/

/-- A URL that is not taken for another one when it is written. -/
structure IsLegible (u : Url) : Prop where
  blank : ∀ a ∈ u.authority, a.host = .empty → a = .blank
  slashes : u.authority = none → u.setOff = false → ¬ ['/', '/'] <+: u.path
  path : u.isOpaque = true → IsOpaquePath u.path
  space : u.isOpaque = true → u.endText = [] → ' ' ∉ u.path.getLast?

theorem isLegible_of_hasHost (h : u.hasHost = true) : u.IsLegible := by
  obtain ⟨a, ha, hnamed⟩ := exists_authority h
  have hform := isOpaque_of_authority ha
  refine ⟨fun a' ha' hempty => ?_, fun hnone => ?_, fun hopen => ?_, fun hopen => ?_⟩
  · obtain rfl := Option.some.inj (ha.symm.trans ha')
    exact absurd hempty hnamed
  · rw [ha] at hnone
    cases hnone
  · rw [hform] at hopen
    cases hopen
  · rw [hform] at hopen
    cases hopen

def reread (u : Url) : Url :=
  { u with setOff := u.authority.isNone && ['/', '/'].isPrefixOf u.path }

def hierarchyText (u : Url) : List Char :=
  u.authority.elim [] (fun a => '/' :: '/' :: a.write) ++ u.pathText

theorem write_eq (u : Url) : u.write = u.scheme ++ [':'] ++ (u.hierarchyText ++ u.endText) := by
  simp [write, hierarchyText, pathText, endText]

theorem hierarchyText_of_isOpaque (hform : u.isOpaque = true) : u.hierarchyText = u.path := by
  rw [isOpaque, Bool.and_eq_true, Bool.and_eq_true, Option.isNone_iff_eq_none,
    Bool.not_eq_true'] at hform
  rw [hierarchyText, pathText, hform.1.1, hform.1.2]
  rfl

namespace IsNormal

variable (h : u.IsNormal)
include h

theorem of_mem_hierarchyText (hform : u.isOpaque = false) (hc : c ∈ u.hierarchyText) :
    0x20 < c.toNat ∧ c ∉ ['?', '#'] := by
  rcases List.mem_append.1 hc with hc | hc
  · cases ha : u.authority with
    | none =>
      rw [ha] at hc
      cases hc
    | some a =>
      rw [ha] at hc
      rcases List.mem_cons.1 hc with rfl | hc
      · decide
      · rcases List.mem_cons.1 hc with rfl | hc
        · decide
        · have hwrite := (h.authority a ha).of_mem_write hc
          exact ⟨hwrite.1, fun hmark => hwrite.2 (List.mem_cons_of_mem _ hmark)⟩
  · exact h.of_mem_pathText hform hc

theorem visible_of_mem_scheme (hc : c ∈ u.scheme) : 0x20 < c.toNat := by
  by_contra hle
  have hno : isSchemeChar c = false :=
    of_toNat_lt (P := (isSchemeChar · = false)) (n := 33) (by decide) (by omega)
  rw [h.scheme.chars c hc] at hno
  cases hno

theorem parse_write_eq (hmarks : ∀ c ∈ u.hierarchyText, c ∉ ['?', '#'])
    (hcounts : ∀ c ∈ u.hierarchyText, isTabOrNewline c = false)
    (hlast : u.endText = [] → ∀ c ∈ u.hierarchyText.getLast?, 0x20 < c.toNat) :
    parse u.write = readHierarchy u.scheme u.hierarchyText u.endText := by
  have hfront : ∀ c ∈ u.scheme ++ [':'], 0x20 < c.toNat := by
    intro c hc
    rcases List.mem_append.1 hc with hc | hc
    · exact h.visible_of_mem_scheme hc
    · obtain rfl := List.mem_singleton.1 hc
      decide
  have hend : significantEnd (u.hierarchyText ++ u.endText) = u.hierarchyText ++ u.endText := by
    refine significantEnd_eq_self (fun c hc => ?_) fun c hc => ?_
    · rcases List.mem_append.1 hc with hc | hc
      · exact hcounts c hc
      · exact isTabOrNewline_of_visible (h.of_mem_endText hc)
    · by_cases hnil : u.endText = []
      · rw [hnil, List.append_nil] at hc
        exact hlast hnil c hc
      · rw [List.getLast?_append_of_ne_nil _ hnil] at hc
        exact h.of_mem_endText (List.mem_of_getLast? hc)
  have hsignificant : significant u.write = u.scheme ++ ':' :: (u.hierarchyText ++ u.endText) := by
    rw [u.write_eq, significant_append hfront (List.concat_ne_nil _ _), hend, List.append_assoc,
      List.singleton_append]
  have hmark : ∀ c ∈ u.endText.head?, beforeMark c = false := by
    rw [endText]
    cases u.query <;> cases u.fragment <;> simp [beforeMark]
  have hspan := span_append _ _ (fun c hc => beforeMark_of_not_mem (hmarks c hc)) hmark
  rw [List.span_eq_takeWhile_dropWhile, Prod.mk.injEq] at hspan
  rw [parse_eq (hsignificant ▸ h.scheme.scheme?_append _), hspan.1, hspan.2]

theorem parse_write_of_not_isOpaque (hform : u.isOpaque = false) :
    parse u.write = readHierarchy u.scheme u.hierarchyText u.endText := by
  have hall {c : Char} (hc : c ∈ u.hierarchyText) := h.of_mem_hierarchyText hform hc
  exact h.parse_write_eq (fun c hc => (hall hc).2)
    (fun c hc => isTabOrNewline_of_visible (hall hc).1)
    fun _ c hc => (hall (List.mem_of_getLast? hc)).1

theorem readHierarchy_of_blank (ha : u.authority = some .blank) :
    readHierarchy u.scheme u.hierarchyText u.endText = .ok u.reread := by
  have hform := isOpaque_of_authority ha
  have hspan := span_append (p := fun c => c ≠ '/') [] u.pathText (by simp)
    (fun c hc => by simpa using h.head_pathText hform c hc)
  have htext : u.hierarchyText = '/' :: '/' :: u.pathText := by
    rw [hierarchyText, ha]
    rfl
  rw [htext, readHierarchy, h.queryAndFragment_endText]
  dsimp only
  rw [← List.nil_append u.pathText, hspan]
  change Except.ok (Url.mk u.scheme (some .blank) false (pathAfterAuthority u.pathText) u.query
    u.fragment) = _
  rw [h.pathAfterAuthority_pathText hform, reread, ha]
  rfl

theorem readHierarchy_of_slash (ha : u.authority = none) (hform : u.isOpaque = false)
    (hslashes : u.setOff = false → ¬ ['/', '/'] <+: u.path) :
    readHierarchy u.scheme u.hierarchyText u.endText = .ok u.reread := by
  have hpath : Path.IsPath u.path := by
    refine (h.path hform).resolve_left fun hempty => ?_
    rw [isOpaque, ha, hempty.1, hempty.2] at hform
    cases hform
  have htext : u.hierarchyText = u.pathText := by
    rw [hierarchyText, ha]
    rfl
  obtain ⟨cs, heq⟩ := hpath.exists_eq_cons
  have hread : pathAlone u.pathText = u.path ∧ ¬ ['/', '/'] <+: u.pathText := by
    rw [pathText]
    cases hsetOff : u.setOff with
    | true =>
      rw [heq] at hpath ⊢
      refine ⟨(Path.ofText_single cs).trans hpath.ofText_eq, ?_⟩
      rintro ⟨rest, hrest⟩
      cases hrest
    | false =>
      refine ⟨?_, hslashes hsetOff⟩
      rw [heq] at hpath ⊢
      exact hpath.ofText_eq
  rw [htext, readHierarchy_alone hread.2, hread.1, h.queryAndFragment_endText, reread, ha]
  rfl

theorem readHierarchy_of_isOpaque (hform : u.isOpaque = true) (hpath : IsOpaquePath u.path) :
    readHierarchy u.scheme u.path u.endText = .ok u.reread := by
  have hparts := hform
  rw [isOpaque, Bool.and_eq_true, Bool.and_eq_true, Option.isNone_iff_eq_none, bne_iff_ne] at hparts
  have hslashes : ¬ ['/', '/'] <+: u.path := by
    rintro ⟨rest, hrest⟩
    exact hparts.2 (by rw [← hrest]; rfl)
  have halone : pathAlone u.path = u.path := by
    rw [pathAlone.eq_def]
    split
    · next heq => exact absurd (by rw [heq]; rfl) hparts.2
    · exact hpath.encoded.encode_eq
  rw [readHierarchy_alone hslashes, halone, h.queryAndFragment_endText, reread, hparts.1.1]
  rfl

theorem parse_write_of_isLegible (hlegible : u.IsLegible) : parse u.write = .ok u.reread := by
  cases hform : u.isOpaque with
  | true =>
    have hpath := hlegible.path hform
    have hvisible {c : Char} (hc : c ∈ u.path) (hspace : c ≠ ' ') : 0x20 < c.toNat :=
      visible_of_not_control (hpath.encoded c hc).2 hspace
    have hcounts : ∀ c ∈ u.path, isTabOrNewline c = false := fun c hc => by
      by_cases hspace : c = ' '
      · rw [hspace]
        decide
      · exact isTabOrNewline_of_visible (hvisible hc hspace)
    have hlast (hend : u.endText = []) : ∀ c ∈ u.path.getLast?, 0x20 < c.toNat := fun c hc =>
      hvisible (List.mem_of_getLast? hc) fun hspace => hlegible.space hform hend (hspace ▸ hc)
    rw [← hierarchyText_of_isOpaque hform] at hcounts hlast
    rw [h.parse_write_eq (hierarchyText_of_isOpaque hform ▸ hpath.unmarked) hcounts hlast,
      hierarchyText_of_isOpaque hform, h.readHierarchy_of_isOpaque hform hpath]
  | false =>
    cases ha : u.authority with
    | none =>
      rw [h.parse_write_of_not_isOpaque hform,
        h.readHierarchy_of_slash ha hform (hlegible.slashes ha)]
    | some a =>
      by_cases hhost : a.host = .empty
      · obtain rfl := hlegible.blank a ha hhost
        rw [h.parse_write_of_not_isOpaque hform, h.readHierarchy_of_blank ha]
      · have hnamed : u.hasHost = true := by
          rw [hasHost, ha]
          exact decide_eq_true hhost
        rw [h.parse_write hnamed, reread, ha]
        rfl

/-- A URL is read from what it is written as just if it is legible. -/
theorem parse_write_iff : parse u.write = .ok u.reread ↔ u.IsLegible := by
  refine ⟨fun hparse => ?_, h.parse_write_of_isLegible⟩
  have hread := isRead_of_parse hparse
  have hreread (hform : u.isOpaque = true) : u.reread.isOpaque = true := by
    have hparts := hform
    rw [isOpaque, Bool.and_eq_true, Bool.and_eq_true, bne_iff_ne] at hparts
    have hslashes : ['/', '/'].isPrefixOf u.path = false := by
      rw [← Bool.not_eq_true, List.isPrefixOf_iff_prefix]
      rintro ⟨rest, hrest⟩
      exact hparts.2 (by rw [← hrest]; rfl)
    rw [isOpaque, reread, hslashes, Bool.and_false, Bool.not_false, hparts.1.1, Bool.and_true,
      Bool.true_and, bne_iff_ne]
    exact hparts.2
  refine ⟨hread.blank, fun ha hsetOff hslashes => ?_, fun hform => hread.path (hreread hform),
    fun hform => hread.space (hreread hform)⟩
  -- The path begins what is read as an authority.
  have hform : u.isOpaque = false := by
    obtain ⟨rest, hrest⟩ := hslashes
    rw [isOpaque, ← hrest]
    simp
  have htext : u.hierarchyText = u.path := by
    rw [hierarchyText, pathText, ha, hsetOff]
    rfl
  rw [h.parse_write_of_not_isOpaque hform, htext] at hparse
  rcases cases_of_readHierarchy hparse with ⟨rest, a, remaining, -, -, hsame⟩ | ⟨hnot, -⟩
  · have hsome : u.authority = some a := congrArg Url.authority hsame
    rw [ha] at hsome
    cases hsome
  · exact hnot hslashes

end IsNormal

theorem parse_write_of_parse (h : parse cs = .ok u) : parse u.write = .ok u := by
  have hread := isRead_of_parse h
  have hlegible : u.IsLegible := by
    refine ⟨hread.blank, fun hnone hsetOff => ?_, hread.path, hread.space⟩
    rw [← List.isPrefixOf_iff_prefix]
    have hslashes := hread.setOff
    rw [hsetOff, hnone, Option.isNone_none, Bool.true_and] at hslashes
    rw [← hslashes]
    exact Bool.false_ne_true
  have hsame : u.reread = u := by rw [reread, ← hread.setOff]
  rw [(isNormal_of_parse h).parse_write_of_isLegible hlegible, hsame]

end QueryMapping.Url
