import Mathlib.Data.Bool.AllAny
import Mathlib.Tactic.IntervalCases
import Mathlib.Tactic.SplitIfs
import QueryMapping.Proofs.Text.Utf8
import QueryMapping.Url.Decode
import QueryMapping.Url.Encode

/-! Percent-encoding and what decoding makes of it. An encoded text is not encoded again, and it is
decoded to what the text itself is decoded to. So a text is given back just if it has no escapes of
its own. -/

namespace QueryMapping.Url

variable {inSet : Char → Bool} {b : UInt8} {bs : List UInt8} {c h l : Char}
    {cs : List Char} {m n : Nat}

theorem of_toNat_lt {P : Char → Prop} (h : ∀ k < n, P (Char.ofNat k)) (hc : c.toNat < n) : P c := by
  have hofNat := h c.toNat hc
  rwa [Char.ofNat_toNat] at hofNat

def hexDigits : List Char := "0123456789abcdefABCDEF".toList

theorem mem_hexDigits_of_hexDigit? (hc : Json.hexDigit? c = some n) : c ∈ hexDigits := by
  have hrange : (48 ≤ c.toNat ∧ c.toNat ≤ 57) ∨ (97 ≤ c.toNat ∧ c.toNat ≤ 102) ∨
      (65 ≤ c.toNat ∧ c.toNat ≤ 70) := by
    delta Json.hexDigit? Char.isDigit at hc
    simp only [ge_iff_le, Bool.and_eq_true, decide_eq_true_eq, UInt32.le_iff_toNat_le,
      Char.le_def] at hc
    change (if 48 ≤ c.toNat ∧ c.toNat ≤ 57 then _ else if 97 ≤ c.toNat ∧ c.toNat ≤ 102 then _
      else if 65 ≤ c.toNat ∧ c.toNat ≤ 70 then _ else _) = _ at hc
    split_ifs at hc <;> omega
  rw [← Char.ofNat_toNat c]
  generalize c.toNat = k at hrange
  rcases hrange with h | h | h <;> (obtain ⟨hlow, hhigh⟩ := h; interval_cases k <;> decide)

theorem toNat_lt_of_mem_hexDigits (hc : c ∈ hexDigits) : c.toNat < 128 :=
  List.all_iff_forall_prop.1 (by decide : hexDigits.all (·.toNat < 128)) c hc

theorem toNat_lt_of_mem_escape (hc : c ∈ '%' :: hexDigits) : c.toNat < 128 :=
  List.all_iff_forall_prop.1 (by decide : ('%' :: hexDigits).all (·.toNat < 128)) c hc

theorem ne_percent_of_mem_hexDigits (hc : c ∈ hexDigits) : c ≠ '%' :=
  List.all_iff_forall_prop.1 (by decide : hexDigits.all (· ≠ '%')) c hc

theorem hexDigit?_hexDigit (hn : n < 16) : Json.hexDigit? (hexDigit n) = some n :=
  (by decide : ∀ n < 16, Json.hexDigit? (hexDigit n) = some n) n hn

/-! ### Encoding -/

def Encoded (inSet : Char → Bool) (cs : List Char) : Prop :=
  ∀ c ∈ cs, c.toNat < 128 ∧ inSet c = false

def SparesEscapes (inSet : Char → Bool) : Prop := ∀ c ∈ '%' :: hexDigits, inSet c = false

instance : Decidable (SparesEscapes inSet) :=
  List.decidableBAll (inSet · = false) ('%' :: hexDigits)

@[simp] theorem encode_nil : encode inSet [] = [] := rfl

@[simp] theorem encode_cons : encode inSet (c :: cs) = encodeChar inSet c ++ encode inSet cs := rfl

@[simp] theorem encode_append (as bs : List Char) :
    encode inSet (as ++ bs) = encode inSet as ++ encode inSet bs :=
  List.flatMap_append

theorem encodeChar_of_kept (hc : c.toNat < 128) (hset : inSet c = false) :
    encodeChar inSet c = [c] := by
  simp [encodeChar, hc, hset]

theorem encodeChar_of_not_kept (hc : ¬ (c.toNat < 128 ∧ inSet c = false)) :
    encodeChar inSet c = (String.utf8EncodeChar c).flatMap encodeByte := by
  rw [encodeChar, if_neg (by simpa using hc)]

theorem Encoded.encode_eq (hcs : Encoded inSet cs) : encode inSet cs = cs := by
  induction cs with
  | nil => rfl
  | cons c cs ih =>
    obtain ⟨hc, hcs⟩ := List.forall_mem_cons.1 hcs
    rw [encode_cons, encodeChar_of_kept hc.1 hc.2, ih hcs, List.singleton_append]

theorem mem_encodeByte (b : UInt8) (hc : c ∈ encodeByte b) : c ∈ '%' :: hexDigits := by
  have hb : b.toNat < 256 := b.toNat_lt
  have hdigit : ∀ n < 16, hexDigit n ∈ '%' :: hexDigits := by decide
  simp only [encodeByte, List.mem_cons, List.not_mem_nil, or_false] at hc
  rcases hc with rfl | rfl | rfl
  · exact List.mem_cons_self
  · exact hdigit _ (by omega)
  · exact hdigit _ (by omega)

theorem mem_encode (hc : c ∈ encode inSet cs) :
    (c ∈ cs ∧ c.toNat < 128 ∧ inSet c = false) ∨ c ∈ '%' :: hexDigits := by
  obtain ⟨d, hd, hc⟩ := List.mem_flatMap.1 hc
  by_cases hkept : d.toNat < 128 ∧ inSet d = false
  · rw [encodeChar_of_kept hkept.1 hkept.2, List.mem_singleton] at hc
    exact .inl (hc ▸ ⟨hd, hkept⟩)
  · rw [encodeChar_of_not_kept hkept] at hc
    obtain ⟨b, -, hb⟩ := List.mem_flatMap.1 hc
    exact .inr (mem_encodeByte b hb)

theorem mem_of_mem_encode (hc : c ∈ encode inSet cs) (hescape : c ∉ '%' :: hexDigits) : c ∈ cs :=
  ((mem_encode hc).resolve_right hescape).1

theorem not_mem_escape_of_mark (hc : c ∈ ['?', '#']) : c ∉ '%' :: hexDigits := by
  have hmarks : ∀ c ∈ ['?', '#'], c ∉ '%' :: hexDigits := List.all_iff_forall_prop.1 (by decide)
  exact hmarks c hc

theorem encodeChar_ne_nil (inSet : Char → Bool) (c : Char) : encodeChar inSet c ≠ [] := by
  by_cases hkept : c.toNat < 128 ∧ inSet c = false
  · rw [encodeChar_of_kept hkept.1 hkept.2]
    exact List.cons_ne_nil _ _
  · obtain ⟨b, bs, hbytes⟩ := List.exists_cons_of_ne_nil (String.utf8EncodeChar_ne_nil (c := c))
    rw [encodeChar_of_not_kept hkept, hbytes]
    exact List.cons_ne_nil _ _

theorem encode_ne_nil (hcs : cs ≠ []) : encode inSet cs ≠ [] := by
  obtain ⟨c, rest, rfl⟩ := List.exists_cons_of_ne_nil hcs
  rw [encode_cons]
  exact List.append_ne_nil_of_left_ne_nil (encodeChar_ne_nil inSet c) _

theorem length_encode_lt_of_sublist {as bs : List Char} (h : List.Sublist as bs) (hne : as ≠ bs) :
    (encode inSet as).length < (encode inSet bs).length :=
  Text.length_flatMap_lt_of_sublist (encodeChar_ne_nil inSet) h hne

namespace SparesEscapes

variable (hs : SparesEscapes inSet)
include hs

theorem percent : inSet '%' = false := hs '%' List.mem_cons_self

theorem hexDigit (hc : c ∈ hexDigits) : inSet c = false := hs c (List.mem_cons_of_mem _ hc)

theorem encoded_encode (cs : List Char) : Encoded inSet (encode inSet cs) := by
  intro c hc
  rcases mem_encode hc with ⟨-, hkept⟩ | hescape
  · exact hkept
  · exact ⟨toNat_lt_of_mem_escape hescape, hs c hescape⟩

theorem encode_eq_self_iff : encode inSet cs = cs ↔ Encoded inSet cs := by
  constructor
  · intro heq
    have hencoded := hs.encoded_encode cs
    rwa [heq] at hencoded
  · exact Encoded.encode_eq

end SparesEscapes

theorem sparesEscapes_isControl : SparesEscapes isControl := by decide

theorem sparesEscapes_inFragmentSet : SparesEscapes inFragmentSet := by decide

theorem sparesEscapes_inQuerySet : SparesEscapes inQuerySet := by decide

theorem sparesEscapes_inPathSet : SparesEscapes inPathSet := by decide

theorem sparesEscapes_inUserinfoSet : SparesEscapes inUserinfoSet := by decide

theorem visible_of_not_control (hcontrol : isControl c = false) (hspace : c ≠ ' ') :
    0x20 < c.toNat := by
  have hne : c.toNat ≠ ' '.toNat := fun heq => hspace (Char.toNat_inj.1 heq)
  change c.toNat ≠ 32 at hne
  simp only [isControl, Bool.or_eq_false_iff, decide_eq_false_iff_not] at hcontrol
  omega

theorem visible_of_not_inFragmentSet (h : inFragmentSet c = false) : 0x20 < c.toNat := by
  simp only [inFragmentSet, Bool.or_eq_false_iff, beq_eq_false_iff_ne] at h
  exact visible_of_not_control h.1.1.1.1.1 h.1.1.1.1.2

theorem visible_of_not_inQuerySet (h : inQuerySet c = false) : 0x20 < c.toNat ∧ c ≠ '#' := by
  simp only [inQuerySet, Bool.or_eq_false_iff, beq_eq_false_iff_ne] at h
  exact ⟨visible_of_not_control h.1.1.1.1.1 h.1.1.1.1.2, h.1.1.2⟩

theorem visible_of_not_inPathSet (h : inPathSet c = false) : 0x20 < c.toNat ∧ c ∉ ['?', '#'] := by
  have hends : ∀ c ∈ ['?', '#'], inPathSet c = true := List.all_iff_forall_prop.1 (by decide)
  refine ⟨?_, fun hmem => by rw [hends c hmem] at h; cases h⟩
  simp only [inPathSet, Bool.or_eq_false_iff] at h
  exact visible_of_not_inFragmentSet h.1.1.1.1

theorem visible_of_not_inUserinfoSet (h : inUserinfoSet c = false) :
    0x20 < c.toNat ∧ c ∉ ['/', '?', '#'] := by
  have hends : ∀ c ∈ ['/', '?', '#'], inUserinfoSet c = true :=
    List.all_iff_forall_prop.1 (by decide)
  refine ⟨?_, fun hmem => by rw [hends c hmem] at h; cases h⟩
  simp only [inUserinfoSet, Bool.or_eq_false_iff] at h
  exact (visible_of_not_inPathSet h.1.1.1.1.1.1.1.1.1.1).1

/-! ### Decoding -/

theorem hexValue?_byte (hc : c.toNat < 128) : hexValue? (Text.byte c) = Json.hexDigit? c := by
  rw [hexValue?, Text.toNat_byte hc, Char.ofNat_toNat]

theorem decodeBytes_cons_of_ne (hb : b ≠ 0x25) (bs : List UInt8) :
    decodeBytes (b :: bs) = b :: decodeBytes bs := by
  rcases bs with _ | ⟨h, _ | ⟨l, rest⟩⟩ <;> simp [decodeBytes, hb]

theorem decodeBytes_append_of_ne {as : List UInt8} (has : ∀ b ∈ as, b ≠ 0x25) (bs : List UInt8) :
    decodeBytes (as ++ bs) = as ++ decodeBytes bs := by
  induction as with
  | nil => rfl
  | cons a as ih =>
    obtain ⟨ha, has⟩ := List.forall_mem_cons.1 has
    rw [List.cons_append, decodeBytes_cons_of_ne ha, ih has, List.cons_append]

theorem decodeBytes_percent
    (hbs : ∀ h l rest, bs = h :: l :: rest → hexValue? h = none ∨ hexValue? l = none) :
    decodeBytes (0x25 :: bs) = 0x25 :: decodeBytes bs := by
  rcases bs with _ | ⟨h, _ | ⟨l, rest⟩⟩
  · rfl
  · rfl
  · rcases hbs h l rest rfl with hnone | hnone
    · simp [decodeBytes, hnone]
    · cases hh : hexValue? h <;> simp [decodeBytes, hnone, hh]

def BeginsEscape (cs : List Char) : Prop :=
  ∃ h l rest, cs = '%' :: h :: l :: rest ∧ (Json.hexDigit? h).isSome ∧ (Json.hexDigit? l).isSome

def HasEscape (cs : List Char) : Prop := ∃ before after, cs = before ++ after ∧ BeginsEscape after

theorem escape_induction {motive : List Char → Prop} (nil : motive [])
    (escape : ∀ h l rest m n, Json.hexDigit? h = some m → Json.hexDigit? l = some n → motive rest →
      motive ('%' :: h :: l :: rest))
    (char : ∀ c rest, ¬ BeginsEscape (c :: rest) → motive rest → motive (c :: rest))
    (cs : List Char) :
    motive cs := by
  match cs with
  | [] => exact nil
  | c :: rest =>
    by_cases hc : BeginsEscape (c :: rest)
    · obtain ⟨h, l, rest', heq, hh, hl⟩ := hc
      obtain ⟨m, hm⟩ := Option.isSome_iff_exists.1 hh
      obtain ⟨n, hn⟩ := Option.isSome_iff_exists.1 hl
      obtain ⟨rfl, rfl⟩ := List.cons.inj heq
      exact escape h l rest' m n hm hn (escape_induction nil escape char rest')
    · exact char c rest hc (escape_induction nil escape char rest)
termination_by cs.length

theorem decode_escape (hh : Json.hexDigit? h = some m) (hl : Json.hexDigit? l = some n)
    (cs : List Char) :
    decodeBytes (Text.encode ('%' :: h :: l :: cs)) =
      UInt8.ofNat (m * 16 + n) :: decodeBytes (Text.encode cs) := by
  have hh' := toNat_lt_of_mem_hexDigits (mem_hexDigits_of_hexDigit? hh)
  have hl' := toNat_lt_of_mem_hexDigits (mem_hexDigits_of_hexDigit? hl)
  simp only [Text.encode_cons, Text.utf8EncodeChar_of_lt hh', Text.utf8EncodeChar_of_lt hl',
    Text.utf8EncodeChar_of_lt (show '%'.toNat < 128 by decide), List.singleton_append]
  rw [decodeBytes, if_pos (by decide), hexValue?_byte hh', hexValue?_byte hl', hh, hl]

theorem length_encode_escape (hh : Json.hexDigit? h = some m) (hl : Json.hexDigit? l = some n)
    (cs : List Char) :
    (Text.encode ('%' :: h :: l :: cs)).length = (Text.encode cs).length + 3 := by
  have hh' := toNat_lt_of_mem_hexDigits (mem_hexDigits_of_hexDigit? hh)
  have hl' := toNat_lt_of_mem_hexDigits (mem_hexDigits_of_hexDigit? hl)
  rw [Text.encode_cons, Text.encode_cons, Text.encode_cons, Text.utf8EncodeChar_of_lt hh',
    Text.utf8EncodeChar_of_lt hl', Text.utf8EncodeChar_of_lt (show '%'.toNat < 128 by decide)]
  rfl

theorem not_hexValue?_of_mem (hc : Json.hexDigit? c = none) (hb : b ∈ String.utf8EncodeChar c) :
    hexValue? b = none := by
  have hascii : ∀ c, (Json.hexDigit? c).isSome = true → c.toNat < 128 := by
    intro c hc
    obtain ⟨n, hn⟩ := Option.isSome_iff_exists.1 hc
    exact toNat_lt_of_mem_hexDigits (mem_hexDigits_of_hexDigit? hn)
  have htest := Text.test_of_mem_utf8EncodeChar (p := fun c => (Json.hexDigit? c).isSome) hascii hb
  rw [hc, Option.isSome_none, Option.isSome_eq_false_iff, Option.isNone_iff_eq_none] at htest
  rw [hexValue?, ← htest]
  congr 1
  exact Char.ofNat_toNat (Char.ofUInt8 b)

theorem exists_eq_cons_of_hexValue? (heq : Text.encode cs = b :: bs) (hb : hexValue? b = some n) :
    ∃ c rest, cs = c :: rest ∧ Json.hexDigit? c = some n ∧ bs = Text.encode rest := by
  cases cs with
  | nil => cases heq
  | cons c rest =>
    rw [Text.encode_cons] at heq
    cases hc : Json.hexDigit? c with
    | none =>
      have hmem : b ∈ String.utf8EncodeChar c := by
        cases hbytes : String.utf8EncodeChar c with
        | nil => exact absurd hbytes String.utf8EncodeChar_ne_nil
        | cons b' bs' =>
          rw [hbytes] at heq
          exact (List.cons.inj heq).1 ▸ List.mem_cons_self
      rw [not_hexValue?_of_mem hc hmem] at hb
      cases hb
    | some m =>
      have hlt := toNat_lt_of_mem_hexDigits (mem_hexDigits_of_hexDigit? hc)
      rw [Text.utf8EncodeChar_of_lt hlt] at heq
      obtain ⟨rfl, rfl⟩ := List.cons.inj heq
      rw [hexValue?_byte hlt] at hb
      exact ⟨c, rest, rfl, hb, rfl⟩

theorem decode_cons (hc : ¬ BeginsEscape (c :: cs)) :
    decodeBytes (Text.encode (c :: cs)) =
      String.utf8EncodeChar c ++ decodeBytes (Text.encode cs) := by
  by_cases hpercent : c = '%'
  · subst hpercent
    rw [Text.encode_cons, Text.utf8EncodeChar_of_lt (by decide)]
    refine decodeBytes_percent fun h l rest heq => ?_
    cases hh : hexValue? h with
    | none => exact .inl rfl
    | some m =>
      cases hl : hexValue? l with
      | none => exact .inr rfl
      | some n =>
        obtain ⟨h', cs', rfl, hh', heq'⟩ := exists_eq_cons_of_hexValue? heq hh
        obtain ⟨l', cs'', rfl, hl', -⟩ := exists_eq_cons_of_hexValue? heq'.symm hl
        exact absurd ⟨h', l', cs'', rfl, by simp [hh'], by simp [hl']⟩ hc
  · exact decodeBytes_append_of_ne
      (fun b hb => Text.ne_byte_of_mem_utf8EncodeChar (d := '%') (by decide) hpercent hb) _

theorem decode_flatMap_encodeByte (bs : List UInt8) (cs : List Char) :
    decodeBytes (Text.encode (bs.flatMap encodeByte ++ cs)) =
      bs ++ decodeBytes (Text.encode cs) := by
  induction bs with
  | nil => rfl
  | cons b bs ih =>
    have hb : b.toNat < 256 := b.toNat_lt
    rw [List.flatMap_cons, List.append_assoc, encodeByte, List.cons_append, List.cons_append,
      List.cons_append, List.nil_append,
      decode_escape (hexDigit?_hexDigit (by omega)) (hexDigit?_hexDigit (by omega)), ih,
      List.cons_append, Nat.mul_comm, Nat.div_add_mod, UInt8.ofNat_toNat]

theorem eq_cons_of_encode_eq_cons (heq : encode inSet cs = c :: as) (hc : c ≠ '%') :
    ∃ rest, cs = c :: rest ∧ as = encode inSet rest := by
  cases cs with
  | nil => cases heq
  | cons d rest =>
    rw [encode_cons] at heq
    by_cases hkept : d.toNat < 128 ∧ inSet d = false
    · rw [encodeChar_of_kept hkept.1 hkept.2] at heq
      obtain ⟨rfl, rfl⟩ := List.cons.inj heq
      exact ⟨rest, rfl, rfl⟩
    · rw [encodeChar_of_not_kept hkept] at heq
      cases hbytes : String.utf8EncodeChar d with
      | nil => exact absurd hbytes String.utf8EncodeChar_ne_nil
      | cons b bs =>
        rw [hbytes] at heq
        exact absurd (List.cons.inj heq).1.symm hc

theorem beginsEscape_of_encode (h : BeginsEscape (c :: encode inSet cs)) :
    BeginsEscape (c :: cs) := by
  obtain ⟨h, l, rest, heq, hh, hl⟩ := h
  obtain ⟨m, hm⟩ := Option.isSome_iff_exists.1 hh
  obtain ⟨n, hn⟩ := Option.isSome_iff_exists.1 hl
  obtain ⟨rfl, htail⟩ := List.cons.inj heq
  obtain ⟨cs', rfl, heq'⟩ :=
    eq_cons_of_encode_eq_cons htail (ne_percent_of_mem_hexDigits (mem_hexDigits_of_hexDigit? hm))
  obtain ⟨cs'', rfl, -⟩ :=
    eq_cons_of_encode_eq_cons heq'.symm
      (ne_percent_of_mem_hexDigits (mem_hexDigits_of_hexDigit? hn))
  exact ⟨h, l, cs'', rfl, hh, hl⟩

theorem SparesEscapes.decode_encode (hs : SparesEscapes inSet) (cs : List Char) :
    decodeBytes (Text.encode (encode inSet cs)) = decodeBytes (Text.encode cs) := by
  induction cs using escape_induction with
  | nil => rfl
  | escape h l rest m n hh hl ih =>
    have hkept : ∀ c ∈ hexDigits, encodeChar inSet c = [c] := fun c hc =>
      encodeChar_of_kept (toNat_lt_of_mem_hexDigits hc) (hs.hexDigit hc)
    rw [encode_cons, encode_cons, encode_cons, encodeChar_of_kept (by decide) hs.percent,
      hkept h (mem_hexDigits_of_hexDigit? hh), hkept l (mem_hexDigits_of_hexDigit? hl),
      List.singleton_append,
      List.singleton_append, List.singleton_append, decode_escape hh hl, decode_escape hh hl, ih]
  | char c rest hc ih =>
    rw [decode_cons hc, encode_cons]
    by_cases hkept : c.toNat < 128 ∧ inSet c = false
    · rw [encodeChar_of_kept hkept.1 hkept.2, List.singleton_append,
        decode_cons (fun h => hc (beginsEscape_of_encode h)), ih]
    · rw [encodeChar_of_not_kept hkept, decode_flatMap_encodeByte, ih]

theorem length_decode_le (cs : List Char) :
    (decodeBytes (Text.encode cs)).length ≤ (Text.encode cs).length := by
  induction cs using escape_induction with
  | nil => exact Nat.le_refl _
  | escape h l rest m n hh hl ih =>
    rw [decode_escape hh hl, length_encode_escape hh hl, List.length_cons]
    omega
  | char c rest hc ih =>
    rw [decode_cons hc, Text.encode_cons, List.length_append, List.length_append]
    omega

theorem hasEscape_cons_iff : HasEscape (c :: cs) ↔ BeginsEscape (c :: cs) ∨ HasEscape cs := by
  constructor
  · rintro ⟨before, after, heq, hafter⟩
    cases before with
    | nil => exact .inl (heq ▸ hafter)
    | cons d before =>
      obtain ⟨rfl, rfl⟩ := List.cons.inj heq
      exact .inr ⟨before, after, rfl, hafter⟩
  · rintro (h | ⟨before, after, rfl, hafter⟩)
    · exact ⟨[], _, rfl, h⟩
    · exact ⟨c :: before, after, rfl, hafter⟩

theorem decode_append_cons (hc : c ∉ '%' :: hexDigits) (as bs : List Char) :
    decodeBytes (Text.encode (as ++ c :: bs)) =
      decodeBytes (Text.encode as) ++ String.utf8EncodeChar c ++ decodeBytes (Text.encode bs) := by
  obtain ⟨hpercent, hdigit⟩ := List.ne_and_not_mem_of_not_mem_cons hc
  induction as using escape_induction with
  | nil =>
    refine decode_cons ?_
    rintro ⟨h, l, rest, heq, -⟩
    exact hpercent (List.cons.inj heq).1
  | escape h l rest m n hh hl ih =>
    rw [List.cons_append, List.cons_append, List.cons_append, decode_escape hh hl,
      decode_escape hh hl, ih, List.cons_append, List.cons_append]
  | char d rest hd ih =>
    have hbegins : ¬ BeginsEscape (d :: (rest ++ c :: bs)) := by
      rintro ⟨h, l, rest', heq, hh, hl⟩
      obtain ⟨m, hm⟩ := Option.isSome_iff_exists.1 hh
      obtain ⟨n, hn⟩ := Option.isSome_iff_exists.1 hl
      obtain ⟨rfl, hrest⟩ := List.cons.inj heq
      rcases rest with _ | ⟨h', _ | ⟨l', rest⟩⟩
      · exact hdigit ((List.cons.inj hrest).1 ▸ mem_hexDigits_of_hexDigit? hm)
      · exact hdigit ((List.cons.inj (List.cons.inj hrest).2).1 ▸ mem_hexDigits_of_hexDigit? hn)
      · obtain ⟨rfl, hrest'⟩ := List.cons.inj hrest
        obtain ⟨rfl, -⟩ := List.cons.inj hrest'
        exact hd ⟨h', l', rest, rfl, hh, hl⟩
    rw [List.cons_append, decode_cons hbegins, decode_cons hd, ih, List.append_assoc,
      List.append_assoc, List.append_assoc]

theorem decode_eq_self_iff : decodeBytes (Text.encode cs) = Text.encode cs ↔ ¬ HasEscape cs := by
  induction cs using escape_induction with
  | nil =>
    refine iff_of_true rfl ?_
    rintro ⟨before, after, heq, h, l, rest, rfl, -⟩
    cases before <;> cases heq
  | escape h l rest m n hh hl ih =>
    refine iff_of_false (fun heq => ?_) (not_not_intro ?_)
    · have hlength := congrArg List.length heq
      have hle := length_decode_le rest
      rw [decode_escape hh hl, length_encode_escape hh hl, List.length_cons] at hlength
      omega
    · exact ⟨[], _, rfl, h, l, rest, rfl, by simp [hh], by simp [hl]⟩
  | char c rest hc ih =>
    rw [decode_cons hc, Text.encode_cons, List.append_cancel_left_eq, ih,
      hasEscape_cons_iff, not_or]
    exact (and_iff_right hc).symm

theorem decode?_eq_some_iff {text : String} :
    decode? cs = some text ↔ decodeBytes (Text.encode cs) = Text.encode text.toList := by
  have hbytes : text.toByteArray.data.toList = Text.encode text.toList := Text.toList_bytes text
  rw [decode?, String.fromUTF8?, ← hbytes]
  constructor
  · intro h
    split at h
    · obtain rfl := Option.some.inj h
      rfl
    · cases h
  · intro h
    have harray : (⟨(decodeBytes (Text.encode cs)).toArray⟩ : ByteArray) = text.toByteArray := by
      rw [h]
    have hvalid : (⟨(decodeBytes (Text.encode cs)).toArray⟩ : ByteArray).IsValidUTF8 :=
      harray ▸ text.isValidUTF8
    exact (dif_pos hvalid).trans (congrArg some (String.toByteArray_inj.1 harray))

end QueryMapping.Url
