import Mathlib.Data.List.Induction
import Mathlib.Data.List.ProdSigma
import QueryMapping.Proofs.Pieces
import QueryMapping.Proofs.Text.Fold
import QueryMapping.Proofs.Url.Encode
import QueryMapping.Url.Path

/-! Paths as they are resolved. A resolved path has no dot segments and is encoded, so that it is
not changed when it is read again. A segment is a dot segment if it is decoded to one dot or two. -/

namespace QueryMapping.Url

variable {b : UInt8} {bs : List UInt8} {c d : Char} {cs s t rest : List Char}
  {done segments rests : List (List Char)}

theorem toLower_eq_iff (hd : d.toNat < 97) (hlower : d.toLower = d) : c.toLower = d ↔ c = d := by
  constructor
  · rintro rfl
    rcases Text.toLower_cases c with ⟨h, -⟩ | ⟨hrange, h⟩
    · exact h.symm
    · omega
  · rintro rfl
    exact hlower

theorem toLower_eq_e_iff : c.toLower = 'e' ↔ c = 'e' ∨ c = 'E' := by
  constructor
  · intro he
    rcases Text.toLower_cases c with ⟨h, -⟩ | ⟨-, h⟩
    · exact .inl (h.symm.trans he)
    · right
      rw [he] at h
      have hc : c.toNat = 'E'.toNat := (Nat.add_right_cancel (m := 32) (by rw [← h]; rfl)).symm
      exact Char.toNat_inj.1 hc
  · rintro (rfl | rfl) <;> rfl

namespace Path

/-! ### Dot segments -/

theorem map_toLower_eq_iff :
    s.map Char.toLower = ['%', '2', 'e'] ↔ s = ['%', '2', 'e'] ∨ s = ['%', '2', 'E'] := by
  have hpercent : ∀ c : Char, c.toLower = '%' ↔ c = '%' :=
    fun _ => toLower_eq_iff (by decide) (by decide)
  have htwo : ∀ c : Char, c.toLower = '2' ↔ c = '2' :=
    fun _ => toLower_eq_iff (by decide) (by decide)
  constructor
  · intro h
    obtain ⟨a, _, rfl, ha, h⟩ := List.map_eq_cons_iff.1 h
    obtain ⟨b, _, rfl, hb, h⟩ := List.map_eq_cons_iff.1 h
    obtain ⟨c, _, rfl, hc, h⟩ := List.map_eq_cons_iff.1 h
    obtain rfl := List.map_eq_nil_iff.1 h
    obtain rfl := (hpercent a).1 ha
    obtain rfl := (htwo b).1 hb
    rcases toLower_eq_e_iff.1 hc with rfl | rfl
    · exact .inl rfl
    · exact .inr rfl
  · rintro (rfl | rfl) <;> rfl

def dots : List (List Char) := [['.'], ['%', '2', 'e'], ['%', '2', 'E']]

theorem isSingleDot_iff : isSingleDot s = true ↔ s ∈ dots := by
  simp only [isSingleDot, dots, Bool.or_eq_true, beq_iff_eq, List.mem_cons,
    List.not_mem_nil, or_false, map_toLower_eq_iff]

theorem isDoubleDot_iff : isDoubleDot s = true ↔ ∃ dot ∈ dots, ∃ dot' ∈ dots, s = dot ++ dot' := by
  have hdot : ∀ s : List Char, s.map Char.toLower = ['.'] → s ∈ dots := by
    intro s hs
    obtain ⟨c, _, rfl, hc, hs⟩ := List.map_eq_cons_iff.1 hs
    obtain rfl := List.map_eq_nil_iff.1 hs
    obtain rfl := (toLower_eq_iff (by decide) (by decide)).1 hc
    exact List.mem_cons_self
  have hescape : ∀ s : List Char, s.map Char.toLower = ['%', '2', 'e'] → s ∈ dots := fun s hs =>
    List.mem_cons_of_mem _ (by simpa using map_toLower_eq_iff.1 hs)
  have hsplit : ∀ as bs : List Char, s.map Char.toLower = as ++ bs →
      (∀ s : List Char, s.map Char.toLower = as → s ∈ dots) →
      (∀ s : List Char, s.map Char.toLower = bs → s ∈ dots) →
        ∃ dot ∈ dots, ∃ dot' ∈ dots, s = dot ++ dot' := by
    intro as bs h has hbs
    obtain ⟨a, b, rfl, ha, hb⟩ := List.map_eq_append_iff.1 h
    exact ⟨a, has a ha, b, hbs b hb, rfl⟩
  simp only [isDoubleDot, Bool.or_eq_true, beq_iff_eq]
  constructor
  · rintro (((rfl | h) | h) | h)
    · exact ⟨['.'], List.mem_cons_self, ['.'], List.mem_cons_self, rfl⟩
    · exact hsplit ['%', '2', 'e'] ['.'] h hescape hdot
    · exact hsplit ['.'] ['%', '2', 'e'] h hdot hescape
    · exact hsplit ['%', '2', 'e'] ['%', '2', 'e'] h hescape hescape
  · rintro ⟨dot, hdot, dot', hdot', rfl⟩
    simp only [dots, List.mem_cons, List.not_mem_nil, or_false] at hdot hdot'
    rcases hdot with rfl | rfl | rfl <;> rcases hdot' with rfl | rfl | rfl <;> decide

theorem decode_dot_append (hs : s ∈ dots) (rest : List Char) :
    decodeBytes (Text.encode (s ++ rest)) = 0x2E :: decodeBytes (Text.encode rest) := by
  have hplain : ¬ BeginsEscape ('.' :: rest) := by
    rintro ⟨h, l, rest', heq, -⟩
    cases heq
  simp only [dots, List.mem_cons, List.not_mem_nil, or_false] at hs
  rcases hs with rfl | rfl | rfl
  · exact decode_cons hplain
  · exact decode_escape (m := 2) (n := 14) rfl rfl rest
  · exact decode_escape (m := 2) (n := 14) rfl rfl rest

theorem exists_dot_of_decode (h : decodeBytes (Text.encode cs) = 0x2E :: bs) :
    ∃ s ∈ dots, ∃ rest, cs = s ++ rest ∧ decodeBytes (Text.encode rest) = bs := by
  rcases cs with _ | ⟨c, rest⟩
  · cases h
  by_cases hescape : BeginsEscape (c :: rest)
  · obtain ⟨hi, lo, rest', heq, hhi, hlo⟩ := hescape
    obtain ⟨rfl, rfl⟩ := List.cons.inj heq
    obtain ⟨m, hm⟩ := Option.isSome_iff_exists.1 hhi
    obtain ⟨n, hn⟩ := Option.isSome_iff_exists.1 hlo
    rw [decode_escape hm hn] at h
    obtain ⟨hbyte, hrest⟩ := List.cons.inj h
    have hdigits : ∀ digits ∈ hexDigits.product hexDigits,
        UInt8.ofNat
          ((Json.hexDigit? digits.1).getD 0 * 16 + (Json.hexDigit? digits.2).getD 0) = 0x2E →
        ['%', digits.1, digits.2] ∈ dots := List.all_iff_forall_prop.1 (by decide +kernel)
    have hmem : (hi, lo) ∈ hexDigits.product hexDigits :=
      List.mem_product.2 ⟨mem_hexDigits_of_hexDigit? hm, mem_hexDigits_of_hexDigit? hn⟩
    refine ⟨_, hdigits (hi, lo) hmem ?_, rest', rfl, hrest⟩
    rw [hm, hn]
    exact hbyte
  · rw [decode_cons hescape] at h
    obtain ⟨rfl, hrest⟩ := Text.eq_and_eq_of_append_eq_cons (d := '.') (by decide) h
    exact ⟨['.'], List.mem_cons_self, rest, rfl, hrest⟩

theorem eq_nil_of_decode (h : decodeBytes (Text.encode cs) = []) : cs = [] := by
  rcases cs with _ | ⟨c, rest⟩
  · rfl
  by_cases hescape : BeginsEscape (c :: rest)
  · obtain ⟨hi, lo, rest', heq, hhi, hlo⟩ := hescape
    obtain ⟨m, hm⟩ := Option.isSome_iff_exists.1 hhi
    obtain ⟨n, hn⟩ := Option.isSome_iff_exists.1 hlo
    rw [heq, decode_escape hm hn] at h
    cases h
  · rw [decode_cons hescape] at h
    exact absurd (List.append_eq_nil_iff.1 h).1 String.utf8EncodeChar_ne_nil

theorem isSingleDot_iff_decode : isSingleDot s = true ↔ decodeBytes (Text.encode s) = [0x2E] := by
  rw [isSingleDot_iff]
  constructor
  · intro hs
    have h := decode_dot_append hs []
    rwa [List.append_nil] at h
  · intro h
    obtain ⟨dot, hdot, rest, rfl, hrest⟩ := exists_dot_of_decode h
    rwa [eq_nil_of_decode hrest, List.append_nil]

theorem isDoubleDot_iff_decode :
    isDoubleDot s = true ↔ decodeBytes (Text.encode s) = [0x2E, 0x2E] := by
  rw [isDoubleDot_iff]
  constructor
  · rintro ⟨dot, hdot, dot', hdot', rfl⟩
    rw [decode_dot_append hdot, isSingleDot_iff_decode.1 (isSingleDot_iff.2 hdot')]
  · intro h
    obtain ⟨dot, hdot, rest, rfl, hrest⟩ := exists_dot_of_decode h
    exact ⟨dot, hdot, rest, isSingleDot_iff.1 (isSingleDot_iff_decode.2 hrest), rfl⟩

def IsDots (segment : List Char) : Prop := isSingleDot segment = true ∨ isDoubleDot segment = true

instance (segment : List Char) : Decidable (IsDots segment) := inferInstanceAs (Decidable (_ ∨ _))

theorem isDots_encode_iff : IsDots (encode inPathSet s) ↔ IsDots s := by
  rw [IsDots, isSingleDot_iff_decode, isDoubleDot_iff_decode, sparesEscapes_inPathSet.decode_encode,
    ← isSingleDot_iff_decode, ← isDoubleDot_iff_decode, IsDots]

theorem mem_of_isDots (h : IsDots s) : ∀ c ∈ s, c ∈ ['.', '%', '2', 'e', 'E'] := by
  have hall : ∀ dot ∈ dots, dot.all (· ∈ ['.', '%', '2', 'e', 'E']) = true := by decide
  have hdots (dot : List Char) (hdot : dot ∈ dots) : ∀ c ∈ dot, c ∈ ['.', '%', '2', 'e', 'E'] :=
    List.all_iff_forall_prop.1 (hall dot hdot)
  rcases h with hsingle | hdouble
  · exact hdots s (isSingleDot_iff.1 hsingle)
  · obtain ⟨dot, hdot, dot', hdot', rfl⟩ := isDoubleDot_iff.1 hdouble
    intro c hc
    exact (List.mem_append.1 hc).elim (hdots dot hdot c) (hdots dot' hdot' c)

/-! ### Resolving -/

theorem resolveFrom_of_plain (h : ∀ s ∈ segments, ¬ IsDots s) :
    resolveFrom done segments = done.reverse ++ segments := by
  induction segments generalizing done with
  | nil => rw [resolveFrom, List.append_nil]
  | cons s rest ih =>
    obtain ⟨hs, hrest⟩ := List.forall_mem_cons.1 h
    obtain ⟨hsingle, hdouble⟩ := not_or.1 hs
    cases rest with
    | nil => rw [resolveFrom, if_neg hdouble, if_neg hsingle, List.reverse_cons]
    | cons t rest =>
      rw [resolveFrom, if_neg hdouble, if_neg hsingle, ih hrest, List.reverse_cons,
        List.append_assoc, List.singleton_append]
      exact List.cons_ne_nil _ _

theorem exists_resolveFrom_append (h : ∀ s ∈ rests, ¬ IsDots s) (hne : rests ≠ [])
    (done segments : List (List Char)) :
    ∃ before, resolveFrom done (segments ++ rests) = before ++ rests := by
  induction segments generalizing done with
  | nil => exact ⟨done.reverse, resolveFrom_of_plain h⟩
  | cons s segments ih =>
    have hmore : segments ++ rests ≠ [] := List.append_ne_nil_of_right_ne_nil _ hne
    rw [List.cons_append, resolveFrom]
    · split
      · exact ih _
      · split
        · exact ih _
        · exact ih _
    · exact hmore

theorem mem_of_mem_parent (h : s ∈ parent done) : s ∈ done := by
  cases done with
  | nil => exact h
  | cons t above =>
    rw [parent] at h
    split at h
    · exact h
    · exact List.mem_cons_of_mem _ h

theorem mem_resolveFrom (h : s ∈ resolveFrom done segments) :
    s ∈ done ∨ s = [] ∨ (s ∈ segments ∧ ¬ IsDots s) := by
  fun_induction resolveFrom done segments with
  | case1 done => exact .inl (List.mem_reverse.1 h)
  | case2 done last =>
    rcases List.mem_cons.1 (List.mem_reverse.1 h) with h | h
    · exact .inr (.inl h)
    · exact .inl (mem_of_mem_parent h)
  | case3 done last =>
    rcases List.mem_cons.1 (List.mem_reverse.1 h) with h | h
    · exact .inr (.inl h)
    · exact .inl h
  | case4 done last hdouble hsingle =>
    rcases List.mem_cons.1 (List.mem_reverse.1 h) with rfl | h
    · exact .inr (.inr ⟨List.mem_cons_self, not_or.2 ⟨hsingle, hdouble⟩⟩)
    · exact .inl h
  | case5 done segment rest _ _ ih =>
    rcases ih h with h | h | ⟨h, hdots⟩
    · exact .inl (mem_of_mem_parent h)
    · exact .inr (.inl h)
    · exact .inr (.inr ⟨List.mem_cons_of_mem _ h, hdots⟩)
  | case6 done segment rest _ _ _ ih =>
    rcases ih h with h | h | ⟨h, hdots⟩
    · exact .inl h
    · exact .inr (.inl h)
    · exact .inr (.inr ⟨List.mem_cons_of_mem _ h, hdots⟩)
  | case7 done segment rest _ hdouble hsingle ih =>
    rcases ih h with h | h | ⟨h, hdots⟩
    · rcases List.mem_cons.1 h with rfl | h
      · exact .inr (.inr ⟨List.mem_cons_self, not_or.2 ⟨hsingle, hdouble⟩⟩)
      · exact .inl h
    · exact .inr (.inl h)
    · exact .inr (.inr ⟨List.mem_cons_of_mem _ h, hdots⟩)

theorem resolveFrom_ne_nil (h : segments ≠ []) : resolveFrom done segments ≠ [] := by
  fun_induction resolveFrom done segments with
  | case1 => exact absurd rfl h
  | case2 | case3 | case4 => simp
  | case5 _ _ _ hrest _ ih | case6 _ _ _ hrest _ _ ih | case7 _ _ _ hrest _ _ ih => exact ih hrest

structure IsSegment (s : List Char) : Prop where
  encoded : Encoded inPathSet s
  slash : '/' ∉ s
  plain : ¬ IsDots s

def IsPath (path : List Char) : Prop :=
  ∃ segments, segments ≠ [] ∧ (∀ s ∈ segments, IsSegment s) ∧
    path = '/' :: ['/'].intercalate segments

theorem isSegment_of_mem_resolveFrom
    (h : s ∈ resolveFrom [] ((cs.splitOn '/').map (encode inPathSet))) :
    IsSegment s := by
  rcases mem_resolveFrom h with hs | rfl | ⟨hs, hdots⟩
  · cases hs
  · exact ⟨fun c hc => absurd hc List.not_mem_nil, List.not_mem_nil, by decide⟩
  · obtain ⟨t, ht, rfl⟩ := List.mem_map.1 hs
    refine ⟨sparesEscapes_inPathSet.encoded_encode t, fun hslash => ?_, hdots⟩
    rcases mem_encode hslash with ⟨hmem, -⟩ | hmem
    · exact not_mem_of_mem_splitOn ht hmem
    · exact absurd hmem (by decide)

theorem isPath_ofText (cs : List Char) : IsPath (ofText cs) :=
  ⟨_, resolveFrom_ne_nil (by simp), fun _ hs => isSegment_of_mem_resolveFrom hs, rfl⟩

theorem IsPath.ofText_eq (h : IsPath ('/' :: cs)) : ofText cs = '/' :: cs := by
  obtain ⟨segments, hne, hsegments, heq⟩ := h
  obtain rfl := (List.cons.inj heq).2
  have hencode : segments.map (encode inPathSet) = segments := by
    conv_rhs => rw [← List.map_id segments]
    exact List.map_congr_left fun s hs => (hsegments s hs).encoded.encode_eq
  rw [ofText, List.splitOn_intercalate '/' (fun s hs => (hsegments s hs).slash) hne, hencode,
    resolveFrom_of_plain fun s hs => (hsegments s hs).plain, List.reverse_nil, List.nil_append]

theorem IsPath.exists_eq_cons {path : List Char} (h : IsPath path) : ∃ cs, path = '/' :: cs := by
  obtain ⟨segments, -, -, rfl⟩ := h
  exact ⟨_, rfl⟩

theorem IsPath.encoded {path : List Char} (h : IsPath path) : Encoded inPathSet path := by
  obtain ⟨segments, -, hsegments, rfl⟩ := h
  have hslash : '/'.toNat < 128 ∧ inPathSet '/' = false := by decide
  refine List.forall_mem_cons.2 ⟨hslash, fun c hc => ?_⟩
  rcases mem_of_mem_intercalate hc with rfl | ⟨s, hs, hc⟩
  · exact hslash
  · exact (hsegments s hs).encoded c hc

theorem ofText_single (cs : List Char) : ofText ('.' :: '/' :: cs) = ofText cs := by
  have hsplit : ('.' :: '/' :: cs).splitOn '/' = ['.'] :: cs.splitOn '/' :=
    List.splitOn_append_cons_self_of_not_mem (show '/' ∉ ['.'] by decide) cs
  rw [ofText, hsplit, List.map_cons, resolveFrom, if_neg (by decide), if_pos (by decide), ofText]
  simp

/-- What stands in the last segment but one is in the path, if it can be in no dot segment. -/
theorem mem_ofText (hslash : '/' ∉ c :: cs) (hrest : '/' ∉ rest) (hdots : ¬ IsDots rest)
    (hc : c ∉ ['.', '%', '2', 'e', 'E']) (hkept : c.toNat < 128 ∧ inPathSet c = false)
    (as : List Char) :
    c ∈ ofText (as ++ c :: cs ++ '/' :: rest) := by
  obtain ⟨before, last, heq⟩ := splitOn_append_of_not_mem hslash as
  have hmem : c ∈ encode inPathSet (last ++ c :: cs) := by
    rw [encode_append, encode_cons, encodeChar_of_kept hkept.1 hkept.2]
    exact List.mem_append_right _ List.mem_cons_self
  have hplain : ∀ s ∈ [encode inPathSet (last ++ c :: cs), encode inPathSet rest], ¬ IsDots s := by
    intro s hs
    rcases List.mem_pair.1 hs with rfl | rfl
    · exact fun hdots => hc (mem_of_isDots hdots c hmem)
    · rwa [isDots_encode_iff]
  obtain ⟨above, hresolve⟩ :=
    exists_resolveFrom_append hplain (by simp) [] (before.map (encode inPathSet))
  rw [ofText, splitOn_append_cons, heq, List.splitOn_eq_singleton hrest, List.append_assoc,
    List.map_append]
  change c ∈ '/' :: ['/'].intercalate (resolveFrom [] (before.map (encode inPathSet) ++ [_, _]))
  rw [hresolve]
  exact List.mem_cons_of_mem _
    (mem_intercalate_of_mem (List.mem_append_right _ List.mem_cons_self) hmem)

/-! ### Paths without dot segments -/

theorem encode_eq_intercalate (cs : List Char) :
    encode inPathSet cs = ['/'].intercalate ((cs.splitOn '/').map (encode inPathSet)) := by
  induction cs using pieces_induction '/' with
  | last piece h => rw [List.splitOn_eq_singleton h, List.map_singleton, List.intercalate_singleton]
  | next piece rest h ih =>
    rw [List.splitOn_append_cons_self_of_not_mem h, List.map_cons,
      intercalate_cons '/' _ (by simp), ← ih, encode_append, encode_cons]
    rfl

theorem ofText_of_plain (h : ∀ s ∈ cs.splitOn '/', ¬ IsDots s) :
    ofText cs = '/' :: encode inPathSet cs := by
  rw [ofText, resolveFrom_of_plain, List.reverse_nil, List.nil_append, ← encode_eq_intercalate]
  intro s hs
  obtain ⟨t, ht, rfl⟩ := List.mem_map.1 hs
  rw [isDots_encode_iff]
  exact h t ht

/-! ### What resolving loses -/

/-- How much a segment and its slash are when they are decoded. -/
def weight (s : List Char) : Nat := (decodeBytes (Text.encode s)).length + 1

theorem weight_intercalate (h : segments ≠ []) :
    weight (['/'].intercalate segments) = (segments.map weight).sum := by
  induction segments with
  | nil => exact absurd rfl h
  | cons s rest ih =>
    by_cases hrest : rest = []
    · subst hrest
      rw [List.intercalate_singleton, List.map_singleton, List.sum_singleton]
    · have hlength : (String.utf8EncodeChar '/').length = 1 := by decide
      rw [List.map_cons, List.sum_cons, ← ih hrest, intercalate_cons '/' s hrest, weight,
        decode_append_cons (by decide), List.length_append, List.length_append, hlength,
        weight, weight,
        Nat.add_assoc]

theorem sum_parent_le (done : List (List Char)) :
    ((parent done).map weight).sum ≤ (done.map weight).sum := by
  cases done with
  | nil => exact Nat.le_refl _
  | cons s above =>
    rw [parent]
    split
    · exact Nat.le_refl _
    · rw [List.map_cons, List.sum_cons]
      exact Nat.le_add_left _ _

theorem weight_of_single (h : isSingleDot s = true) : weight s = 2 := by
  rw [weight, isSingleDot_iff_decode.1 h]
  rfl

theorem weight_of_double (h : isDoubleDot s = true) : weight s = 3 := by
  rw [weight, isDoubleDot_iff_decode.1 h]
  rfl

theorem weight_nil : weight [] = 1 := by decide

theorem sum_resolveFrom_le (done segments : List (List Char)) :
    ((resolveFrom done segments).map weight).sum ≤
      (done.map weight).sum + (segments.map weight).sum := by
  fun_induction resolveFrom done segments with
  | case1 done => simp
  | case2 done last hdouble =>
    have hparent := sum_parent_le done
    simp only [List.map_reverse, List.sum_reverse, List.map_cons, List.sum_cons, weight_nil,
      weight_of_double hdouble]
    omega
  | case3 done last _ hsingle =>
    simp only [List.map_reverse, List.sum_reverse, List.map_cons, List.sum_cons, weight_nil,
      weight_of_single hsingle]
    omega
  | case4 done last =>
    simp only [List.map_reverse, List.sum_reverse, List.map_cons, List.sum_cons, List.map_nil,
      List.sum_nil]
    omega
  | case5 done segment rest _ hdouble ih =>
    have hparent := sum_parent_le done
    rw [List.map_cons, List.sum_cons]
    omega
  | case6 done segment rest _ _ _ ih =>
    rw [List.map_cons, List.sum_cons]
    omega
  | case7 done segment rest _ _ _ ih =>
    rw [List.map_cons, List.sum_cons] at ih ⊢
    omega

theorem sum_resolveFrom_lt (h : ∃ s ∈ segments, IsDots s) :
    ((resolveFrom done segments).map weight).sum <
      (done.map weight).sum + (segments.map weight).sum := by
  fun_induction resolveFrom done segments with
  | case1 => simp at h
  | case2 done last hdouble =>
    have hparent := sum_parent_le done
    simp only [List.map_reverse, List.sum_reverse, List.map_cons, List.sum_cons, weight_nil,
      weight_of_double hdouble]
    omega
  | case3 done last _ hsingle =>
    simp only [List.map_reverse, List.sum_reverse, List.map_cons, List.sum_cons, weight_nil,
      weight_of_single hsingle]
    omega
  | case4 done last hdouble hsingle =>
    rw [List.exists_mem_cons_iff] at h
    exact absurd (h.resolve_right (by simp)) (not_or.2 ⟨hsingle, hdouble⟩)
  | case5 done segment rest _ hdouble =>
    have hparent := sum_parent_le done
    have hrest := sum_resolveFrom_le (parent done) rest
    rw [List.map_cons, List.sum_cons, weight_of_double hdouble]
    omega
  | case6 done segment rest _ _ hsingle =>
    have hrest := sum_resolveFrom_le done rest
    rw [List.map_cons, List.sum_cons, weight_of_single hsingle]
    omega
  | case7 done segment rest _ hdouble hsingle ih =>
    rw [List.exists_mem_cons_iff] at h
    have hrest := ih (h.resolve_left (not_or.2 ⟨hsingle, hdouble⟩))
    rw [List.map_cons, List.sum_cons] at hrest ⊢
    omega

theorem decode_slash (cs : List Char) :
    decodeBytes (Text.encode ('/' :: cs)) = 0x2F :: decodeBytes (Text.encode cs) :=
  decode_append_cons (by decide) [] cs

theorem length_encode_slash (cs : List Char) :
    (Text.encode ('/' :: cs)).length = (Text.encode cs).length + 1 := by
  rw [Text.encode_cons, Text.utf8EncodeChar_of_lt (by decide)]
  rfl

theorem weight_encode (s : List Char) : weight (encode inPathSet s) = weight s := by
  rw [weight, sparesEscapes_inPathSet.decode_encode, weight]

theorem sum_segments (cs : List Char) :
    (((cs.splitOn '/').map (encode inPathSet)).map weight).sum = weight cs := by
  rw [← weight_intercalate (by simp), ← encode_eq_intercalate, weight_encode]

theorem length_decode_ofText (cs : List Char) : (decodeBytes (Text.encode (ofText cs))).length =
    ((resolveFrom [] ((cs.splitOn '/').map (encode inPathSet))).map weight).sum := by
  rw [ofText, decode_slash, ← weight_intercalate (resolveFrom_ne_nil (by simp)), weight,
    List.length_cons]

theorem length_decode_ofText_le (cs : List Char) :
    (decodeBytes (Text.encode (ofText cs))).length ≤ (Text.encode cs).length + 1 := by
  have hle := sum_resolveFrom_le [] ((cs.splitOn '/').map (encode inPathSet))
  rw [sum_segments, List.map_nil, List.sum_nil, Nat.zero_add, weight] at hle
  rw [length_decode_ofText]
  exact hle.trans (Nat.succ_le_succ (length_decode_le cs))

/-- The path of a text is decoded to the text just if there is neither a dot segment nor an escape
in it. -/
theorem decode_ofText_iff : decodeBytes (Text.encode (ofText cs)) = Text.encode ('/' :: cs) ↔
    (∀ s ∈ cs.splitOn '/', ¬ IsDots s) ∧ ¬ HasEscape cs := by
  have hplain (h : ∀ s ∈ cs.splitOn '/', ¬ IsDots s) :
      decodeBytes (Text.encode (ofText cs)) = Text.encode ('/' :: cs) ↔ ¬ HasEscape cs := by
    rw [ofText_of_plain h, decode_slash, sparesEscapes_inPathSet.decode_encode,
      ← decode_eq_self_iff]
    exact List.cons_inj_right _
  by_cases h : ∀ s ∈ cs.splitOn '/', ¬ IsDots s
  · rw [hplain h, and_iff_right h]
  · refine iff_of_false (fun heq => ?_) fun hall => h hall.1
    simp only [not_forall, not_not] at h
    obtain ⟨s, hs, hdots⟩ := h
    have hlt := @sum_resolveFrom_lt [] _
      ⟨encode inPathSet s, List.mem_map_of_mem (f := encode inPathSet) hs,
        isDots_encode_iff.2 hdots⟩
    rw [sum_segments, ← length_decode_ofText, heq, List.map_nil, List.sum_nil, Nat.zero_add,
      weight] at hlt
    have hle := length_decode_le cs
    rw [length_encode_slash] at hlt
    omega

end Path

end QueryMapping.Url
