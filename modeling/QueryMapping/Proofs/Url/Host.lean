import Mathlib.Data.List.Induction
import QueryMapping.Proofs.Pieces
import QueryMapping.Proofs.Url.Encode
import QueryMapping.Url.Host

/-! Hosts as they are written and read again. An address is written with its first longest run of
zeros left out, which is read as the place where zeros fill it up to eight pieces. -/

namespace QueryMapping.Url

namespace Ipv6

variable {c : Char} {p n : Nat} {ps : List Nat} {cs rest : List Char} {done read : Pieces}

structure IsAddress (ps : List Nat) : Prop where
  length : ps.length = 8
  lt : ∀ p ∈ ps, p < 65536

/-! ### One piece -/

theorem hexValue?_digitChar (hn : n < 16) : hexValue? n.digitChar = some n :=
  (by decide : ∀ n < 16, hexValue? n.digitChar = some n) n hn

theorem isSome_hexValue?_of_mem (hc : c ∈ Nat.toDigits 16 p) : (hexValue? c).isSome := by
  induction p using Nat.strong_induction_on with
  | _ p ih =>
    rw [Nat.toDigits_eq_if (by decide)] at hc
    split at hc
    · next hp =>
      rw [List.mem_singleton.1 hc, hexValue?_digitChar hp]
      rfl
    · next hp =>
      rcases List.mem_append.1 hc with hc | hc
      · exact ih _ (by omega) hc
      · rw [List.mem_singleton.1 hc, hexValue?_digitChar (Nat.mod_lt _ (by decide))]
        rfl

theorem pieceValue_toDigits (p : Nat) : pieceValue (Nat.toDigits 16 p) = p := by
  induction p using Nat.strong_induction_on with
  | _ p ih =>
    rw [Nat.toDigits_eq_if (by decide)]
    split
    · next hp => simp [pieceValue, hexValue?_digitChar hp]
    · next hp =>
      have hdiv := ih (p / 16) (by omega)
      rw [pieceValue] at hdiv ⊢
      rw [List.foldl_append, hdiv, List.foldl_cons, List.foldl_nil,
        hexValue?_digitChar (Nat.mod_lt _ (by decide)), Option.getD_some]
      omega

theorem pieceDigits_append (hp : p < 65536) (rest : List Char)
    (hrest : ∀ c ∈ rest.head?, hexValue? c = none) :
    pieceDigits (Nat.toDigits 16 p ++ rest) = Nat.toDigits 16 p := by
  have hlength : (Nat.toDigits 16 p).length ≤ 4 :=
    (Nat.length_toDigits_le_iff (by decide) (by decide)).2 hp
  rw [pieceDigits, List.take_append, List.take_of_length_le hlength,
    List.takeWhile_append_of_pos fun c hc => isSome_hexValue?_of_mem hc]
  cases rest with
  | nil => simp
  | cons c rest =>
    have hc : hexValue? c = none := hrest c rfl
    cases 4 - (Nat.toDigits 16 p).length <;> simp [hc]

def Pieces.with (done : Pieces) (ps : List Nat) : Pieces :=
  { done with pieces := done.pieces ++ ps }

theorem exists_toDigits_eq_cons (p : Nat) :
    ∃ c digits, Nat.toDigits 16 p = c :: digits ∧ c ≠ ':' := by
  obtain ⟨c, digits, heq⟩ := List.exists_cons_of_ne_nil (Nat.toDigits_ne_nil (n := p) (b := 16))
  refine ⟨c, digits, heq, ?_⟩
  rintro rfl
  cases isSome_hexValue?_of_mem (p := p) (heq ▸ List.mem_cons_self)

theorem readPieces_last (hp : p < 65536) (hlength : done.pieces.length < 8) :
    readPieces done (Nat.toDigits 16 p) = some (done.with [p]) := by
  have hdigits := pieceDigits_append hp [] (by simp)
  rw [List.append_nil] at hdigits
  obtain ⟨c, digits, heq, hc⟩ := exists_toDigits_eq_cons p
  have hdrop : (Nat.toDigits 16 p).drop (pieceDigits (Nat.toDigits 16 p)).length = [] := by
    rw [hdigits, List.drop_length]
  rw [readPieces, if_neg Nat.toDigits_ne_nil, if_neg (Nat.ne_of_lt hlength),
    if_neg (by simpa [heq] using hc)]
  dsimp only
  split
  · rw [hdigits, pieceValue_toDigits, Pieces.with]
  · next h => cases hdrop.symm.trans h
  · next h => cases hdrop.symm.trans h
  · next h _ _ => exact absurd hdrop h

theorem readPieces_more (hp : p < 65536) (hlength : done.pieces.length < 8) (hrest : rest ≠ []) :
    readPieces done (Nat.toDigits 16 p ++ ':' :: rest) = readPieces (done.with [p]) rest := by
  have hdigits := pieceDigits_append hp (':' :: rest) (by simp [hexValue?])
  obtain ⟨c, digits, heq, hc⟩ := exists_toDigits_eq_cons p
  have hdrop : (Nat.toDigits 16 p ++ ':' :: rest).drop
      (pieceDigits (Nat.toDigits 16 p ++ ':' :: rest)).length = ':' :: rest := by
    rw [hdigits, List.drop_left]
  rw [readPieces, if_neg (List.append_ne_nil_of_left_ne_nil Nat.toDigits_ne_nil _),
    if_neg (Nat.ne_of_lt hlength), if_neg (by simpa [heq] using hc)]
  dsimp only
  split
  · next h => cases hdrop.symm.trans h
  · next h =>
    cases hdrop.symm.trans h
    rw [if_neg hrest, hdigits, pieceValue_toDigits, Pieces.with]
  · next h => cases hdrop.symm.trans h
  · next _ h _ => exact absurd hdrop (h rest)

/-! ### Several pieces -/

@[simp] theorem Pieces.with_nil : done.with [] = done := by simp [Pieces.with]

@[simp] theorem Pieces.with_with (qs : List Nat) :
    (done.with ps).with qs = done.with (ps ++ qs) := by
  simp [Pieces.with]

@[simp] theorem Pieces.pieces_with : (done.with ps).pieces = done.pieces ++ ps := by
  rw [Pieces.with]

theorem writePieces_cons (hps : ps ≠ []) (p : Nat) :
    writePieces (p :: ps) = Nat.toDigits 16 p ++ ':' :: writePieces ps := by
  rw [writePieces, List.map_cons, intercalate_cons ':' _ (by simpa using hps), writePieces]

theorem exists_writePieces_eq_cons (hps : ps ≠ []) :
    ∃ c cs, writePieces ps = c :: cs ∧ c ≠ ':' ∧ (1 < ps.length → cs ≠ []) := by
  obtain ⟨p, rest, rfl⟩ := List.exists_cons_of_ne_nil hps
  obtain ⟨c, digits, heq, hc⟩ := exists_toDigits_eq_cons p
  cases rest with
  | nil =>
    refine ⟨c, digits, ?_, hc, fun h => absurd h (by simp)⟩
    rw [writePieces, List.map_cons, List.map_nil, List.intercalate_singleton, heq]
  | cons q rest =>
    refine ⟨c, digits ++ ':' :: writePieces (q :: rest), ?_, hc, fun _ => by simp⟩
    rw [writePieces_cons (List.cons_ne_nil _ _), heq, List.cons_append]

theorem writePieces_ne_nil (hps : ps ≠ []) : writePieces ps ≠ [] := by
  obtain ⟨c, cs, heq, -⟩ := exists_writePieces_eq_cons hps
  rw [heq]
  exact List.cons_ne_nil _ _

theorem readPieces_writePieces (hps : ∀ p ∈ ps, p < 65536)
    (hlength : done.pieces.length + ps.length ≤ 8) :
    readPieces done (writePieces ps) = some (done.with ps) := by
  induction ps generalizing done with
  | nil =>
    rw [writePieces, List.map_nil, List.intercalate_nil, readPieces, if_pos rfl, Pieces.with_nil]
  | cons p ps ih =>
    obtain ⟨hp, hps⟩ := List.forall_mem_cons.1 hps
    rw [List.length_cons] at hlength
    by_cases hnil : ps = []
    · subst hnil
      rw [writePieces, List.map_cons, List.map_nil, List.intercalate_singleton,
        readPieces_last hp (by omega)]
    · rw [writePieces_cons hnil, readPieces_more hp (by omega) (writePieces_ne_nil hnil), ih hps,
        Pieces.with_with, List.singleton_append]
      simp only [Pieces.pieces_with, List.length_append, List.length_singleton]
      omega

theorem readPieces_writePieces_append (hps : ∀ p ∈ ps, p < 65536) (hne : ps ≠ [])
    (hlength : done.pieces.length + ps.length ≤ 8) (hrest : rest ≠ []) :
    readPieces done (writePieces ps ++ ':' :: rest) = readPieces (done.with ps) rest := by
  induction ps generalizing done with
  | nil => exact absurd rfl hne
  | cons p ps ih =>
    obtain ⟨hp, hps⟩ := List.forall_mem_cons.1 hps
    rw [List.length_cons] at hlength
    by_cases hnil : ps = []
    · subst hnil
      rw [writePieces, List.map_cons, List.map_nil, List.intercalate_singleton,
        readPieces_more hp (by omega) hrest]
    · rw [writePieces_cons hnil, List.append_assoc, List.cons_append,
        readPieces_more hp (by omega) (List.append_ne_nil_of_right_ne_nil _ (List.cons_ne_nil _ _)),
        ih hps hnil,
        Pieces.with_with, List.singleton_append]
      simp only [Pieces.pieces_with, List.length_append, List.length_singleton]
      omega

theorem readPieces_gap (hgap : done.gap = none) (hlength : done.pieces.length < 8)
    (cs : List Char) :
    readPieces done (':' :: cs) =
      readPieces ⟨done.pieces ++ [0], some (done.pieces.length + 1)⟩ cs := by
  rw [readPieces, if_neg (List.cons_ne_nil _ _), if_neg (Nat.ne_of_lt hlength),
    if_pos List.head?_cons, hgap]
  rfl

theorem mem_writePieces (hc : c ∈ writePieces ps) : c = ':' ∨ c ∈ hexDigits := by
  rcases mem_of_mem_intercalate hc with hc | ⟨piece, hpiece, hc⟩
  · exact .inl hc
  · obtain ⟨p, -, rfl⟩ := List.mem_map.1 hpiece
    obtain ⟨n, hn⟩ := Option.isSome_iff_exists.1 (isSome_hexValue?_of_mem hc)
    exact .inr (mem_hexDigits_of_hexDigit? hn)

theorem mem_write (hc : c ∈ write ps) : c = ':' ∨ c ∈ hexDigits := by
  rw [write] at hc
  generalize longestZeros ps = zeros at hc
  obtain ⟨start, l⟩ := zeros
  dsimp only at hc
  split at hc
  · exact mem_writePieces hc
  · simp only [List.mem_append, List.mem_cons, List.not_mem_nil, or_false] at hc
    rcases hc with (hc | hc | hc) | hc
    · exact mem_writePieces hc
    · exact .inl hc
    · exact .inl hc
    · exact mem_writePieces hc

/-! ### Zeros -/

theorem longestZeros_le (ps : List Nat) :
    (longestZeros ps).2 ≤ leadingZeros (ps.drop (longestZeros ps).1) := by
  refine List.foldlRecOn
    (motive := fun best : Nat × Nat => best.2 ≤ leadingZeros (ps.drop best.1)) _ _
    (Nat.zero_le _) fun best hbest i _ => ?_
  split
  · exact Nat.le_refl _
  · exact hbest

theorem take_eq_replicate (hn : n ≤ leadingZeros ps) : ps.take n = List.replicate n 0 := by
  induction ps generalizing n with
  | nil =>
    obtain rfl : n = 0 := Nat.le_zero.1 hn
    rfl
  | cons p ps ih =>
    cases n with
    | zero => rfl
    | succ n =>
      by_cases hp : p = 0
      · rw [leadingZeros, List.takeWhile_cons_of_pos (by simpa using hp), List.length_cons] at hn
        rw [List.take_succ_cons, ih (Nat.le_of_succ_le_succ hn), hp, List.replicate_succ]
      · rw [leadingZeros, List.takeWhile_cons_of_neg (by simpa using hp)] at hn
        cases hn

theorem eq_append_replicate (ps : List Nat) :
    ps = ps.take (longestZeros ps).1 ++ List.replicate (longestZeros ps).2 0 ++
      ps.drop ((longestZeros ps).1 + (longestZeros ps).2) := by
  rw [← take_eq_replicate (longestZeros_le ps), List.append_assoc, ← List.drop_drop,
    List.take_append_drop, List.take_append_drop]

/-! ### Addresses -/

def Pieces.filled? (read : Pieces) : Option (List Nat) :=
  match read.gap with
  | some k =>
    some (read.pieces.take k ++ List.replicate (8 - read.pieces.length) 0 ++ read.pieces.drop k)
  | none => if read.pieces.length = 8 then some read.pieces else none

theorem parse?_colons (cs : List Char) :
    parse? (':' :: ':' :: cs) = (readPieces ⟨[0], some 1⟩ cs).bind Pieces.filled? := rfl

theorem parse?_of_ne (hc : c ≠ ':') (hcs : cs ≠ []) :
    parse? (c :: cs) = (readPieces ⟨[], none⟩ (c :: cs)).bind Pieces.filled? := by
  rw [parse?]
  · rfl
  · exact fun rest h => hc (List.cons.inj h).1
  · exact fun rest h => hc (List.cons.inj h).1
  · exact List.cons_ne_nil _ _
  · exact fun d h => hcs (List.cons.inj h).2

theorem filled?_gap {qs rs : List Nat} {l : Nat} (hlength : qs.length + l + rs.length = 8)
    (hl : 0 < l) :
    (⟨qs ++ [0] ++ rs, some (qs.length + 1)⟩ : Pieces).filled? =
      some (qs ++ List.replicate l 0 ++ rs) := by
  have hq : (qs ++ [0]).length = qs.length + 1 := by simp
  obtain ⟨k, rfl⟩ := Nat.exists_eq_add_of_le' hl
  have hfill : 8 - (qs ++ [0] ++ rs).length = k := by
    simp only [List.length_append, List.length_singleton]
    omega
  simp only [Pieces.filled?]
  rw [hfill, ← hq, List.take_left, List.drop_left, List.replicate_succ]
  simp

theorem parse?_gap {qs rs : List Nat} (hqs : ∀ p ∈ qs, p < 65536) (hrs : ∀ p ∈ rs, p < 65536)
    (hlength : qs.length + rs.length < 8) :
    parse? (writePieces qs ++ [':', ':'] ++ writePieces rs) =
      (⟨qs ++ [0] ++ rs, some (qs.length + 1)⟩ : Pieces).filled? := by
  rw [List.append_assoc, List.cons_append, List.cons_append, List.nil_append]
  by_cases hnil : qs = []
  · subst hnil
    rw [List.length_nil, Nat.zero_add] at hlength
    rw [writePieces, List.map_nil, List.intercalate_nil, List.nil_append, parse?_colons,
      readPieces_writePieces hrs (by rw [List.length_singleton]; omega)]
    rfl
  · have hread : readPieces ⟨[], none⟩ (writePieces qs ++ ':' :: ':' :: writePieces rs) =
        some ⟨qs ++ [0] ++ rs, some (qs.length + 1)⟩ := by
      rw [readPieces_writePieces_append hqs hnil (by simp; omega) (List.cons_ne_nil _ _),
        readPieces_gap rfl (by simp; omega), readPieces_writePieces hrs (by simp; omega)]
      simp [Pieces.with]
    obtain ⟨c, cs, heq, hc, -⟩ := exists_writePieces_eq_cons hnil
    rw [heq, List.cons_append] at hread ⊢
    rw [parse?_of_ne hc (by simp), hread, Option.bind_some]

theorem IsAddress.parse?_write (h : IsAddress ps) : parse? (write ps) = some ps := by
  have hsplit := eq_append_replicate ps
  rw [write]
  generalize longestZeros ps = zeros at hsplit ⊢
  obtain ⟨start, l⟩ := zeros
  dsimp only at hsplit ⊢
  split
  · have hne : ps ≠ [] := by
      rintro rfl
      cases h.length
    obtain ⟨c, cs, heq, hc, hcs⟩ := exists_writePieces_eq_cons hne
    rw [heq, parse?_of_ne hc (hcs (by rw [h.length]; decide)), ← heq,
      readPieces_writePieces h.lt (by rw [h.length]; decide)]
    simp [Pieces.filled?, Pieces.with, h.length]
  · next hl =>
    generalize ps.take start = qs at hsplit ⊢
    generalize ps.drop (start + l) = rs at hsplit ⊢
    have hlength := h.length
    have hlt := h.lt
    rw [hsplit] at hlength hlt ⊢
    simp only [List.length_append, List.length_replicate] at hlength
    rw [parse?_gap (fun p hp => hlt p (by simp [hp])) (fun p hp => hlt p (by simp [hp])) (by omega),
      filled?_gap hlength (by omega)]

/-! ### What is read -/

structure Pieces.Sound (read : Pieces) : Prop where
  length : read.pieces.length ≤ 8
  lt : ∀ p ∈ read.pieces, p < 65536

theorem Pieces.Sound.add (h : done.Sound) (ps : List Nat)
    (hlength : done.pieces.length + ps.length ≤ 8)
    (hps : ∀ p ∈ ps, p < 65536) (gap : Option Nat) : (⟨done.pieces ++ ps, gap⟩ : Pieces).Sound := by
  refine ⟨by rwa [List.length_append], fun p hp => ?_⟩
  rcases List.mem_append.1 hp with hp | hp
  · exact h.lt p hp
  · exact hps p hp

theorem Pieces.Sound.add_one (h : done.Sound) (hlength : done.pieces.length ≠ 8) (hp : p < 65536)
    (gap : Option Nat) : (⟨done.pieces ++ [p], gap⟩ : Pieces).Sound :=
  h.add [p] (Nat.lt_of_le_of_ne h.length hlength) (List.forall_mem_singleton.2 hp) gap

theorem getD_hexValue?_lt (c : Char) : (hexValue? c).getD 0 < 16 := by
  by_cases hc : c ∈ hexDigits
  · exact List.all_iff_forall_prop.1
      (by decide : hexDigits.all fun c => (hexValue? c).getD 0 < 16) c hc
  · cases hvalue : hexValue? c with
    | none => decide
    | some n => exact absurd (mem_hexDigits_of_hexDigit? hvalue) hc

theorem pieceValue_lt (digits : List Char) : pieceValue digits < 16 ^ digits.length := by
  induction digits using List.reverseRecOn with
  | nil => decide
  | append_singleton digits c ih =>
    have hc := getD_hexValue?_lt c
    rw [pieceValue] at ih ⊢
    rw [List.foldl_append, List.foldl_cons, List.foldl_nil, List.length_append,
      List.length_singleton, Nat.pow_succ]
    omega

theorem pieceValue_pieceDigits_lt (cs : List Char) : pieceValue (pieceDigits cs) < 65536 := by
  have hlength : (pieceDigits cs).length ≤ 4 :=
    (List.takeWhile_prefix _).length_le.trans (List.length_take_le 4 cs)
  exact (pieceValue_lt _).trans_le (Nat.pow_le_pow_right (by decide) hlength)

theorem octet?_le (h : octet? cs = some n) : n ≤ 255 := by
  rw [octet?] at h
  split at h
  · next hcs =>
    simp only [Bool.and_eq_true, decide_eq_true_eq] at hcs
    exact Option.some.inj h ▸ hcs.2
  · cases h

theorem dotted?_sound (h : dotted? cs = some ps) : ps.length = 2 ∧ ∀ p ∈ ps, p < 65536 := by
  rw [dotted?] at h
  split at h
  · next a b c d heq =>
    have hle : ∀ n, some n ∈ (cs.splitOn '.').map octet? → n ≤ 255 := by
      intro n hn
      obtain ⟨part, -, hpart⟩ := List.mem_map.1 hn
      exact octet?_le hpart
    rw [heq] at hle
    have ha := hle a (by simp)
    have hb := hle b (by simp)
    have hc := hle c (by simp)
    have hd := hle d (by simp)
    obtain rfl := Option.some.inj h
    refine ⟨rfl, ?_⟩
    simp only [List.mem_cons, List.not_mem_nil, or_false]
    rintro p (rfl | rfl) <;> omega
  · cases h

theorem readPieces_sound (h : readPieces done cs = some read) (hdone : done.Sound) :
    read.Sound := by
  fun_induction readPieces done cs with
  | case1 done => exact Option.some.inj h ▸ hdone
  | case4 done cs _ hlength _ _ ih => exact ih h (hdone.add_one hlength (by decide) _)
  | case5 done cs _ hlength =>
    exact Option.some.inj h ▸ hdone.add_one hlength (pieceValue_pieceDigits_lt cs) _
  | case7 done cs _ hlength _ _ _ _ _ _ ih =>
    exact ih h (hdone.add_one hlength (pieceValue_pieceDigits_lt cs) _)
  | case9 done cs _ _ _ _ _ _ hroom =>
    obtain ⟨ps, hdotted, rfl⟩ := Option.map_eq_some_iff.1 h
    obtain ⟨hlength, hlt⟩ := dotted?_sound hdotted
    simp only [Bool.or_eq_true, decide_eq_true_eq, not_or] at hroom
    exact hdone.add ps (by omega) hlt _
  | case2 | case3 | case6 | case8 | case10 => cases h

theorem Pieces.Sound.isAddress (h : read.Sound) (hps : read.filled? = some ps) : IsAddress ps := by
  have hlength := h.length
  rw [filled?] at hps
  split at hps
  · next k _ =>
    obtain rfl := Option.some.inj hps
    refine ⟨?_, fun p hp => ?_⟩
    · have hsplit := congrArg List.length (List.take_append_drop k read.pieces)
      simp only [List.length_append, List.length_replicate] at hsplit ⊢
      omega
    · simp only [List.mem_append, List.mem_replicate] at hp
      rcases hp with (hp | ⟨-, rfl⟩) | hp
      · exact h.lt p (List.mem_of_mem_take hp)
      · decide
      · exact h.lt p (List.mem_of_mem_drop hp)
  · split at hps
    · next heq => exact Option.some.inj hps ▸ ⟨heq, h.lt⟩
    · cases hps

theorem isAddress_of_parse? (h : parse? cs = some ps) : IsAddress ps := by
  have hread : ∀ done cs, done.Sound → (readPieces done cs).bind Pieces.filled? = some ps →
      IsAddress ps := by
    intro done cs hdone hps
    obtain ⟨read, hread, hps⟩ := Option.bind_eq_some_iff.1 hps
    exact (readPieces_sound hread hdone).isAddress hps
  unfold parse? at h
  split at h
  · exact hread _ _ ⟨by decide, by decide⟩ h
  · cases h
  · cases h
  · cases h
  · exact hread _ _ ⟨by decide, by simp⟩ h

end Ipv6

namespace Host

variable {host : Host} {cs : List Char}

def IsNormal : Host → Prop
  | .empty => True
  | .name chars =>
    chars ≠ [] ∧ ∀ c ∈ chars, c.toNat < 128 ∧ isControl c = false ∧ isForbidden c = false
  | .ipv6 pieces => Ipv6.IsAddress pieces

theorem parse_bracket (rest : List Char) : parse ('[' :: rest) =
    if rest.getLast? = some ']' then
      match Ipv6.parse? rest.dropLast with
      | some ps => .ok (.ipv6 ps)
      | none => .error .invalidIpv6Address
    else .error .invalidIpv6Address := rfl

theorem parse_of_ne {c : Char} (hc : c ≠ '[') (rest : List Char) : parse (c :: rest) =
    if (c :: rest).any isForbidden then .error .invalidDomainCharacter
    else .ok (.name (encode isControl (c :: rest))) := by
  rw [parse]
  · exact List.cons_ne_nil _ _
  · exact fun rest h => hc (List.cons.inj h).1

theorem isNormal_of_parse (h : parse cs = .ok host) : host.IsNormal := by
  have hescape : ∀ c ∈ '%' :: hexDigits, isForbidden c = false :=
    List.all_iff_forall_prop.1 (by decide)
  rcases cs with _ | ⟨c, rest⟩
  · exact Except.ok.inj h ▸ trivial
  by_cases hc : c = '['
  · subst hc
    rw [parse_bracket] at h
    split at h
    · split at h
      · next ps hps => exact Except.ok.inj h ▸ Ipv6.isAddress_of_parse? hps
      · cases h
    · cases h
  · rw [parse_of_ne hc] at h
    split at h
    · cases h
    · next hallowed =>
      obtain rfl := Except.ok.inj h
      refine ⟨encode_ne_nil (List.cons_ne_nil _ _), fun d hd => ?_⟩
      obtain ⟨hlt, hset⟩ := sparesEscapes_isControl.encoded_encode _ d hd
      refine ⟨hlt, hset, ?_⟩
      rcases mem_encode hd with ⟨hmem, -⟩ | hmem
      · rw [Bool.not_eq_true, List.any_eq_false] at hallowed
        exact Bool.eq_false_iff.2 (hallowed d hmem)
      · exact hescape d hmem

theorem IsNormal.parse_write (h : host.IsNormal) : parse host.write = .ok host := by
  cases host with
  | empty => rfl
  | name chars =>
    obtain ⟨hne, hchars⟩ := h
    have hencoded : Encoded isControl chars := fun c hc => ⟨(hchars c hc).1, (hchars c hc).2.1⟩
    have hallowed : chars.any isForbidden = false :=
      List.any_eq_false.2 fun c hc => Bool.eq_false_iff.1 (hchars c hc).2.2
    obtain ⟨c, rest, rfl⟩ := List.exists_cons_of_ne_nil hne
    have hc : c ≠ '[' := by
      rintro rfl
      cases (hchars '[' List.mem_cons_self).2.2
    rw [write, parse_of_ne hc, hallowed, hencoded.encode_eq]
    rfl
  | ipv6 pieces =>
    have haddress : Ipv6.IsAddress pieces := h
    rw [write, List.cons_append, parse_bracket, if_pos List.getLast?_concat, List.dropLast_concat,
      haddress.parse?_write]

theorem IsNormal.of_mem_write {c : Char} (h : host.IsNormal) (hc : c ∈ host.write) :
    0x20 < c.toNat ∧ c ∉ ['@', '/', '?', '#'] := by
  cases host with
  | empty => cases hc
  | name chars =>
    obtain ⟨-, hcontrol, hallowed⟩ := h.2 c hc
    have hforbidden : ∀ c ∈ [' ', '@', '/', '?', '#'], isForbidden c = true :=
      List.all_iff_forall_prop.1 (by decide)
    have hnot : c ∉ [' ', '@', '/', '?', '#'] := by
      intro hmem
      rw [hforbidden c hmem] at hallowed
      cases hallowed
    obtain ⟨hspace, hends⟩ := List.ne_and_not_mem_of_not_mem_cons hnot
    exact ⟨visible_of_not_control hcontrol hspace, hends⟩
  | ipv6 pieces =>
    have hvisible : ∀ c ∈ '[' :: ']' :: ':' :: hexDigits,
        0x20 < c.toNat ∧ c ∉ ['@', '/', '?', '#'] :=
      List.all_iff_forall_prop.1 (by decide)
    refine hvisible c ?_
    rw [write, List.mem_append, List.mem_singleton, List.mem_cons] at hc
    rcases hc with (rfl | hc) | rfl
    · exact List.mem_cons_self
    · exact List.mem_cons_of_mem _ (List.mem_cons_of_mem _ (List.mem_cons.2 (Ipv6.mem_write hc)))
    · exact List.mem_cons_of_mem _ List.mem_cons_self

theorem IsNormal.write_ne_nil (h : host.IsNormal) (hne : host ≠ .empty) : host.write ≠ [] := by
  cases host with
  | empty => exact absurd rfl hne
  | name chars => exact h.1
  | ipv6 pieces => exact List.cons_ne_nil _ _

end Host

end QueryMapping.Url
