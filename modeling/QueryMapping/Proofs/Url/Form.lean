import QueryMapping.Proofs.Pieces
import QueryMapping.Proofs.Url.Parse
import QueryMapping.Url.Decode
import QueryMapping.Url.Edit

/-! Forms as they are read: pairs between ampersands, each parted by its first equals sign. A pair
that is encoded is read as it was. A value that is written as it is is read as itself just if
nothing in it stands for something else. -/

namespace QueryMapping.Url

variable {c h l : Char} {cs as key value : List Char} {m n : Nat}

/-! ### Decoding -/

def ofPlus (c : Char) : Char := if c = '+' then ' ' else c

theorem ofPlus_of_ne (hc : c ≠ '+') : ofPlus c = c := if_neg hc

theorem map_ofPlus_of_not_mem (h : '+' ∉ cs) : cs.map ofPlus = cs := by
  conv_rhs => rw [← List.map_id cs]
  exact List.map_congr_left fun c hc => ofPlus_of_ne fun heq => h (heq ▸ hc)

theorem eq_of_ofPlus_eq (hc : ofPlus c = h) (hspace : h ≠ ' ') : c = h := by
  by_cases hplus : c = '+'
  · rw [ofPlus, if_pos hplus] at hc
    exact absurd hc.symm hspace
  · rwa [ofPlus_of_ne hplus] at hc

theorem ne_space_of_hexDigit? (hc : (Json.hexDigit? c).isSome) : c ≠ ' ' := by
  rintro rfl
  cases hc

theorem not_plus_mem_escape : '+' ∉ '%' :: hexDigits := by decide

theorem decodeForm_eq (cs : List Char) :
    decodeForm cs = decodeBytes (Text.encode (cs.map ofPlus)) := rfl

theorem beginsEscape_of_map_ofPlus (hcs : BeginsEscape (cs.map ofPlus)) : BeginsEscape cs := by
  obtain ⟨h, l, rest, heq, hh, hl⟩ := hcs
  obtain ⟨a, _, rfl, ha, heq⟩ := List.map_eq_cons_iff.1 heq
  obtain ⟨b, _, rfl, hb, heq⟩ := List.map_eq_cons_iff.1 heq
  obtain ⟨d, rest', rfl, hd, -⟩ := List.map_eq_cons_iff.1 heq
  obtain rfl := eq_of_ofPlus_eq ha (by decide)
  obtain rfl := eq_of_ofPlus_eq hb (ne_space_of_hexDigit? hh)
  obtain rfl := eq_of_ofPlus_eq hd (ne_space_of_hexDigit? hl)
  exact ⟨b, d, rest', rfl, hh, hl⟩

theorem decodeForm_cons (hc : ¬ BeginsEscape (c :: cs)) :
    decodeForm (c :: cs) = String.utf8EncodeChar (ofPlus c) ++ decodeForm cs := by
  rw [decodeForm_eq, List.map_cons, decode_cons, decodeForm_eq]
  exact fun hescape => hc (beginsEscape_of_map_ofPlus hescape)

theorem decodeForm_escape (hh : Json.hexDigit? h = some m) (hl : Json.hexDigit? l = some n)
    (cs : List Char) :
    decodeForm ('%' :: h :: l :: cs) = UInt8.ofNat (m * 16 + n) :: decodeForm cs := by
  have hplus : ∀ {c k}, Json.hexDigit? c = some k → ofPlus c = c :=
    fun hc => ofPlus_of_ne fun heq =>
    not_plus_mem_escape (heq ▸ List.mem_cons_of_mem _ (mem_hexDigits_of_hexDigit? hc))
  rw [decodeForm_eq, List.map_cons, List.map_cons, List.map_cons, ofPlus_of_ne (by decide),
    hplus hh, hplus hl, decode_escape hh hl, decodeForm_eq]

theorem decodeForm_flatMap_encodeByte (bytes : List UInt8) (cs : List Char) :
    decodeForm (bytes.flatMap encodeByte ++ cs) = bytes ++ decodeForm cs := by
  have hplus : '+' ∉ bytes.flatMap encodeByte := by
    intro hmem
    obtain ⟨b, -, hb⟩ := List.mem_flatMap.1 hmem
    exact not_plus_mem_escape (mem_encodeByte b hb)
  rw [decodeForm_eq, List.map_append, map_ofPlus_of_not_mem hplus, decode_flatMap_encodeByte,
    decodeForm_eq]

theorem not_beginsEscape_of_ne (hc : c ≠ '%') : ¬ BeginsEscape (c :: cs) := by
  rintro ⟨h, l, rest, heq, -⟩
  exact hc (List.cons.inj heq).1

theorem decodeForm_encodeForm (cs : List Char) : decodeForm (encodeForm cs) = Text.encode cs := by
  induction cs with
  | nil => rfl
  | cons c cs ih =>
    have hcons : encodeForm (c :: cs) =
        (if c = ' ' then ['+'] else encodeChar (!isFormSafe ·) c) ++ encodeForm cs := rfl
    rw [hcons, Text.encode_cons, ← ih]
    by_cases hspace : c = ' '
    · rw [if_pos hspace, hspace, List.singleton_append,
        decodeForm_cons (not_beginsEscape_of_ne (by decide))]
      rfl
    · rw [if_neg hspace]
      by_cases hkept : c.toNat < 128 ∧ (!isFormSafe c) = false
      · have hne : ∀ d, isFormSafe d = false → c ≠ d := by
          rintro d hd rfl
          rw [hd] at hkept
          cases hkept.2
        rw [encodeChar_of_kept hkept.1 hkept.2, List.singleton_append,
          decodeForm_cons (not_beginsEscape_of_ne (hne '%' (by decide))),
          ofPlus_of_ne (hne '+' (by decide))]
      · rw [encodeChar_of_not_kept hkept, decodeForm_flatMap_encodeByte]

theorem length_decodeForm_le (cs : List Char) :
    (decodeForm cs).length ≤ (Text.encode cs).length := by
  induction cs using escape_induction with
  | nil => exact Nat.le_refl _
  | escape h l rest m n hh hl ih =>
    rw [decodeForm_escape hh hl, length_encode_escape hh hl, List.length_cons]
    omega
  | char c rest hc ih =>
    have hchar : (String.utf8EncodeChar (ofPlus c)).length = (String.utf8EncodeChar c).length := by
      by_cases hplus : c = '+'
      · rw [hplus]
        rfl
      · rw [ofPlus_of_ne hplus]
    rw [decodeForm_cons hc, Text.encode_cons, List.length_append, List.length_append, hchar]
    omega

theorem decodeForm_eq_self_iff : decodeForm cs = Text.encode cs ↔ '+' ∉ cs ∧ ¬ HasEscape cs := by
  by_cases hplus : '+' ∈ cs
  · refine iff_of_false (fun heq => ?_) fun h => h.1 hplus
    induction cs using escape_induction with
    | nil => cases hplus
    | escape h l rest m n hh hl ih =>
      have hlength := congrArg List.length heq
      have hle := length_decodeForm_le rest
      rw [decodeForm_escape hh hl, length_encode_escape hh hl, List.length_cons] at hlength
      omega
    | char c rest hc ih =>
      rw [decodeForm_cons hc, Text.encode_cons] at heq
      by_cases hfirst : c = '+'
      · subst hfirst
        exact absurd (List.cons.inj heq).1 (by decide)
      · rw [ofPlus_of_ne hfirst, List.append_cancel_left_eq] at heq
        exact ih ((List.mem_cons.1 hplus).resolve_left (Ne.symm hfirst)) heq
  · rw [and_iff_right hplus, decodeForm_eq, map_ofPlus_of_not_mem hplus, decode_eq_self_iff]

/-! ### Pairs -/

theorem formPairs_of_not_mem (h : '&' ∉ cs) (hne : cs ≠ []) :
    formPairs cs = [(cs.takeWhile (· ≠ '='), cs.drop ((cs.takeWhile (· ≠ '=')).length + 1))] := by
  rw [formPairs, List.splitOn_eq_singleton h, List.filter_cons_of_pos (by simpa using hne)]
  rfl

theorem formPairs_append (as cs : List Char) :
    formPairs (as ++ '&' :: cs) = formPairs as ++ formPairs cs := by
  rw [formPairs, splitOn_append_cons, List.filter_append, List.map_append, formPairs, formPairs]

theorem formPairs_pair (hkey : '=' ∉ key) (hand : '&' ∉ key) (hvalue : '&' ∉ value) :
    formPairs (key ++ '=' :: value) = [(key, value)] := by
  have htake : (key ++ '=' :: value).takeWhile (· ≠ '=') = key := by
    rw [List.takeWhile_append_of_pos (ne_mark_of_mem hkey)]
    simp
  rw [formPairs_of_not_mem (by simp [hand, hvalue]) (by simp), htake, ← List.drop_drop,
    List.drop_left]
  rfl

def readForm (query : List Char) : List (List UInt8 × List UInt8) :=
  (formPairs query).map fun pair => (decodeForm pair.1, decodeForm pair.2)

def pairBytes (pair : List Char × List Char) : List UInt8 × List UInt8 :=
  (Text.encode pair.1, Text.encode pair.2)

@[simp] theorem readForm_nil : readForm [] = [] := rfl

theorem readForm_pair (hequals : '=' ∉ key) (hkey : '&' ∉ key) (hvalue : '&' ∉ value) :
    readForm (key ++ '=' :: value) = [(decodeForm key, decodeForm value)] := by
  rw [readForm, formPairs_pair hequals hkey hvalue, List.map_singleton]

theorem readForm_append (as cs : List Char) :
    readForm (as ++ '&' :: cs) = readForm as ++ readForm cs := by
  rw [readForm, formPairs_append, List.map_append, readForm, readForm]

theorem not_mem_encodeForm (h : c ≠ '+') (hsafe : isFormSafe c = false)
    (hescape : c ∉ '%' :: hexDigits) :
    c ∉ encodeForm cs := by
  intro hmem
  obtain ⟨d, -, hd⟩ := List.mem_flatMap.1 hmem
  split at hd
  · exact h (List.mem_singleton.1 hd)
  · have hencoded : c ∈ encode (!isFormSafe ·) [d] := by
      rwa [encode_cons, encode_nil, List.append_nil]
    rcases mem_encode hencoded with ⟨-, -, hset⟩ | hmem
    · rw [hsafe] at hset
      cases hset
    · exact hescape hmem

theorem readForm_formPair (pair : List Char × List Char) :
    readForm (formPair pair) = [pairBytes pair] := by
  have hand (cs : List Char) : '&' ∉ encodeForm cs :=
    not_mem_encodeForm (by decide) (by decide) (by decide)
  have hequals : '=' ∉ encodeForm pair.1 := not_mem_encodeForm (by decide) (by decide) (by decide)
  rw [formPair, readForm_pair hequals (hand _) (hand _), decodeForm_encodeForm,
    decodeForm_encodeForm, pairBytes]

def pairs (u : Url) : List (List UInt8 × List UInt8) := readForm (u.query.getD [])

theorem pairs_appendPair (u : Url) (pair : List Char × List Char) :
    (u.appendPair pair).pairs = u.pairs ++ [pairBytes pair] := by
  rw [pairs, pairs, appendPair.eq_def]
  split
  · next hquery =>
    rw [hquery, Option.getD_none, Option.getD_some, readForm_formPair, readForm_nil,
      List.nil_append]
  · next hquery =>
    rw [hquery, Option.getD_some, Option.getD_some, readForm_formPair, readForm_nil,
      List.nil_append]
  · next query _ hquery =>
    rw [hquery, Option.getD_some, Option.getD_some, readForm_append, readForm_formPair]

/-! ### Values that are not encoded -/

structure IsFormLiteral (cs : List Char) : Prop where
  single : '&' ∉ cs
  plain : '+' ∉ cs
  exact : ¬ HasEscape cs

theorem not_hasEscape_of_not_mem (h : '%' ∉ cs) : ¬ HasEscape cs := by
  rintro ⟨before, after, rfl, hi, lo, rest, rfl, -⟩
  exact h (List.mem_append_right _ List.mem_cons_self)

theorem decodeForm_eq_of_literal (h : IsFormLiteral cs) : decodeForm cs = Text.encode cs :=
  decodeForm_eq_self_iff.2 ⟨h.plain, h.exact⟩

theorem append_pair_append (key before after : List Char) :
    key ++ '=' :: (before ++ '&' :: after) = (key ++ '=' :: before) ++ '&' :: after := by simp

theorem readForm_raw_iff (hkey : IsFormLiteral key) (hequals : '=' ∉ key) :
    readForm (key ++ '=' :: value) = [pairBytes (key, value)] ↔ IsFormLiteral value := by
  by_cases hvalue : '&' ∈ value
  · refine iff_of_false (fun heq => ?_) fun h => h.single hvalue
    obtain ⟨before, after, rfl, hbefore⟩ := List.eq_append_cons_of_mem hvalue
    rw [append_pair_append, readForm_append, readForm_pair hequals hkey.single hbefore,
      List.singleton_append, pairBytes] at heq
    -- What stands before the ampersand is too short for the whole value.
    have hlength := congrArg List.length (Prod.mk.inj (List.cons.inj heq).1).2
    have hle := length_decodeForm_le before
    have hpos := List.length_pos_iff.2 (String.utf8EncodeChar_ne_nil (c := '&'))
    rw [Text.encode_append, Text.encode_cons, List.length_append, List.length_append] at hlength
    omega
  · rw [readForm_pair hequals hkey.single hvalue, decodeForm_eq_of_literal hkey, pairBytes,
      List.singleton_inj, Prod.mk_right_inj, decodeForm_eq_self_iff]
    exact ⟨fun h => ⟨hvalue, h.1, h.2⟩, fun h => ⟨h.plain, h.exact⟩⟩

theorem readForm_raw_ne_nil (hequals : '=' ∉ key) (hkey : '&' ∉ key) (value : List Char) :
    readForm (key ++ '=' :: value) ≠ [] := by
  by_cases hvalue : '&' ∈ value
  · obtain ⟨before, after, rfl, hbefore⟩ := List.eq_append_cons_of_mem hvalue
    rw [append_pair_append, readForm_append, readForm_pair hequals hkey hbefore]
    exact List.cons_ne_nil _ _
  · rw [readForm_pair hequals hkey hvalue]
    exact List.cons_ne_nil _ _

theorem readForm_intercalate (pieces : List (List Char)) :
    readForm (['&'].intercalate pieces) = pieces.flatMap readForm := by
  induction pieces with
  | nil => rfl
  | cons piece pieces ih =>
    by_cases hnil : pieces = []
    · subst hnil
      rw [List.intercalate_singleton, List.flatMap_singleton]
    · rw [intercalate_cons '&' piece hnil, readForm_append, ih, List.flatMap_cons]

def rawPair (pair : List Char × List Char) : List Char := pair.1 ++ '=' :: pair.2

def IsFormKey (key : List Char) : Prop := IsFormLiteral key ∧ '=' ∉ key

theorem length_le_flatMap_rawPair {pairs : List (List Char × List Char)}
    (h : ∀ p ∈ pairs, IsFormKey p.1) :
    pairs.length ≤ (pairs.flatMap fun p => readForm (rawPair p)).length := by
  induction pairs with
  | nil => exact Nat.le_refl _
  | cons p rest ih =>
    obtain ⟨hp, hrest⟩ := List.forall_mem_cons.1 h
    have hpos := List.length_pos_iff.2 (readForm_raw_ne_nil hp.2 hp.1.single p.2)
    have hle := ih hrest
    rw [List.flatMap_cons, List.length_append, List.length_cons, rawPair]
    omega

/-- Pairs that are written as they are are read as themselves just if nothing in their values stands
for something else: a value that is read as more than one pair is made up for by no other. -/
theorem flatMap_rawPair_iff {pairs : List (List Char × List Char)}
    (h : ∀ p ∈ pairs, IsFormKey p.1) :
    (pairs.flatMap fun p => readForm (rawPair p)) = pairs.map pairBytes ↔
    ∀ p ∈ pairs, IsFormLiteral p.2 := by
  induction pairs with
  | nil => exact iff_of_true rfl (List.forall_mem_nil _)
  | cons p rest ih =>
    obtain ⟨hp, hrest⟩ := List.forall_mem_cons.1 h
    have hpair : readForm (rawPair p) = [pairBytes p] ↔ IsFormLiteral p.2 :=
      readForm_raw_iff hp.1 hp.2
    rw [List.forall_mem_cons, ← hpair, ← ih hrest, List.flatMap_cons, List.map_cons]
    constructor
    · intro heq
      have hlength := congrArg List.length heq
      have hpos := List.length_pos_iff.2 (readForm_raw_ne_nil hp.2 hp.1.single p.2)
      have hle := length_le_flatMap_rawPair hrest
      rw [List.length_append, List.length_cons, List.length_map] at hlength
      exact List.append_inj heq
        (by rw [rawPair] at hlength ⊢; simp only [List.length_singleton]; omega)
    · rintro ⟨heq, heqs⟩
      rw [heq, heqs, List.singleton_append]

end QueryMapping.Url
