import QueryMapping.Text.Bytes

/-! Byte positions as places between characters. An ASCII character is one byte below 128 and all
bytes of any other character are 128 or more, so a reader that tells apart ASCII characters only can
go through the text byte by byte and still stop between characters. -/

namespace QueryMapping.Text

def encode (cs : List Char) : List UInt8 := cs.flatMap String.utf8EncodeChar

@[simp]
theorem encode_nil : encode [] = [] := by simp [encode]

@[simp]
theorem encode_cons (c : Char) (cs : List Char) :
    encode (c :: cs) = String.utf8EncodeChar c ++ encode cs := rfl

@[simp]
theorem encode_append (as bs : List Char) : encode (as ++ bs) = encode as ++ encode bs := by
  simp [encode]

theorem toList_bytes (text : String) : (bytes text).toList = encode text.toList := by
  rw [bytes, String.toUTF8_eq_toByteArray, ← String.utf8Encode_toList, List.utf8Encode,
    List.data_toByteArray, List.toList_toArray, encode]

theorem length_flatMap_lt_of_sublist {β : Type} {f : Char → List β} {as bs : List Char}
    (hf : ∀ c, f c ≠ [])
    (h : List.Sublist as bs) (hne : as ≠ bs) : (as.flatMap f).length < (bs.flatMap f).length := by
  induction h with
  | slnil => exact absurd rfl hne
  | @cons as bs c h ih =>
    have hpos := List.length_pos_iff.2 (hf c)
    rw [List.flatMap_cons, List.length_append]
    by_cases heq : as = bs
    · rw [heq]
      omega
    · have hlt := ih heq
      omega
  | @cons_cons as bs c h ih =>
    have hlt := ih fun heq => hne (by rw [heq])
    simp only [List.flatMap_cons, List.length_append]
    omega

theorem length_encode_lt_of_sublist {as bs : List Char} (h : List.Sublist as bs) (hne : as ≠ bs) :
    (encode as).length < (encode bs).length :=
  length_flatMap_lt_of_sublist (fun _ => String.utf8EncodeChar_ne_nil) h hne

theorem size_utf8Encode (cs : List Char) : cs.utf8Encode.size = (encode cs).length := by
  rw [List.utf8Encode, List.size_toByteArray, encode]

theorem utf8ByteSize_ofList (cs : List Char) :
    (String.ofList cs).utf8ByteSize = (encode cs).length := by
  rw [← String.size_toByteArray, String.toByteArray_ofList, size_utf8Encode]

theorem utf8ByteSize_eq (text : String) : text.utf8ByteSize = (encode text.toList).length := by
  rw [← utf8ByteSize_ofList, String.ofList_toList]

theorem utf8EncodeChar_of_lt {c : Char} (hc : c.toNat < 128) :
    String.utf8EncodeChar c = [byte c] := by
  have hle : c.val.toNat ≤ 0x7f := Nat.le_of_lt_succ hc
  unfold String.utf8EncodeChar
  simp only [hle, ↓reduceIte]
  rfl

theorem le_of_mem_utf8EncodeChar {c : Char} (hc : 128 ≤ c.toNat) {b : UInt8}
    (hb : b ∈ String.utf8EncodeChar c) : 128 ≤ b.toNat := by
  rw [String.utf8EncodeChar_eq_utf8EncodeCharFast] at hb
  unfold String.utf8EncodeCharFast at hb
  have hgt : ¬ c.val ≤ 0x7f := by
    rw [UInt32.le_iff_toNat_le]
    exact Nat.not_le.2 hc
  have hor : ∀ x y : UInt8, 128 ≤ y.toNat → 128 ≤ (x ||| y).toNat := by
    intro x y hy
    rw [UInt8.toNat_or]
    exact Nat.le_trans hy Nat.right_le_or
  simp only [hgt, ↓reduceIte] at hb
  split at hb
  · simp only [List.mem_cons, List.not_mem_nil, or_false] at hb
    rcases hb with rfl | rfl <;> exact hor _ _ (by decide)
  · split at hb
    · simp only [List.mem_cons, List.not_mem_nil, or_false] at hb
      rcases hb with rfl | rfl | rfl <;> exact hor _ _ (by decide)
    · simp only [List.mem_cons, List.not_mem_nil, or_false] at hb
      rcases hb with rfl | rfl | rfl | rfl <;> exact hor _ _ (by decide)

theorem encode_of_lt {cs : List Char} (hcs : ∀ c ∈ cs, c.toNat < 128) :
    encode cs = cs.map byte := by
  induction cs with
  | nil => rfl
  | cons c cs ih =>
    obtain ⟨hc, hcs⟩ := List.forall_mem_cons.1 hcs
    rw [encode_cons, utf8EncodeChar_of_lt hc, ih hcs]
    rfl

theorem toNat_ofUInt8 (b : UInt8) : (Char.ofUInt8 b).toNat = b.toNat := rfl

theorem ofUInt8_byte {c : Char} (hc : c.toNat < 128) : Char.ofUInt8 (byte c) = c := by
  apply Char.ext
  apply UInt32.toNat_inj.1
  have h : (byte c).toNat = c.toNat % 256 := rfl
  calc (Char.ofUInt8 (byte c)).toNat = c.toNat % 256 := h
    _ = c.toNat := Nat.mod_eq_of_lt (Nat.lt_trans hc (by decide))

theorem byte_inj {c d : Char} (hc : c.toNat < 128) (hd : d.toNat < 128) : byte c = byte d ↔ c = d :=
  ⟨fun h => by rw [← ofUInt8_byte hc, ← ofUInt8_byte hd, h], fun h => by rw [h]⟩

theorem toNat_byte {c : Char} (hc : c.toNat < 128) : (byte c).toNat = c.toNat := by
  rw [← toNat_ofUInt8, ofUInt8_byte hc]

theorem ne_byte_of_mem_utf8EncodeChar {c d : Char} (hd : d.toNat < 128) (hcd : c ≠ d) {b : UInt8}
    (hb : b ∈ String.utf8EncodeChar c) : b ≠ byte d := by
  by_cases hc : c.toNat < 128
  · rw [utf8EncodeChar_of_lt hc, List.mem_singleton] at hb
    rw [hb]
    exact fun h => hcd ((byte_inj hc hd).1 h)
  · rintro rfl
    have hle := le_of_mem_utf8EncodeChar (Nat.not_lt.1 hc) hb
    rw [toNat_byte hd] at hle
    exact Nat.not_lt.2 hle hd

theorem eq_and_eq_of_append_eq_cons {c d : Char} (hd : d.toNat < 128) {as bs : List UInt8}
    (h : String.utf8EncodeChar c ++ as = byte d :: bs) : c = d ∧ as = bs := by
  by_cases hcd : c = d
  · subst hcd
    rw [utf8EncodeChar_of_lt hd] at h
    exact ⟨rfl, (List.cons.inj h).2⟩
  · obtain ⟨b, bs', hbytes⟩ := List.exists_cons_of_ne_nil (String.utf8EncodeChar_ne_nil (c := c))
    have hne := ne_byte_of_mem_utf8EncodeChar hd hcd (hbytes ▸ List.mem_cons_self)
    rw [hbytes] at h
    exact absurd (List.cons.inj h).1 hne

theorem map_byte_prefix_encode {word cs : List Char} (hword : ∀ c ∈ word, c.toNat < 128) :
    word.map byte <+: encode cs ↔ word <+: cs := by
  induction word generalizing cs with
  | nil => simp
  | cons w word ih =>
    obtain ⟨hw, hws⟩ := List.forall_mem_cons.1 hword
    cases cs with
    | nil => simp
    | cons c cs =>
      by_cases hcw : c = w
      · subst hcw
        simp [utf8EncodeChar_of_lt hw, ih hws]
      · cases hc : String.utf8EncodeChar c with
        | nil => exact absurd hc String.utf8EncodeChar_ne_nil
        | cons b bs =>
          have hb : b ≠ byte w :=
            ne_byte_of_mem_utf8EncodeChar hw hcw (hc ▸ List.mem_cons_self)
          simp [hc, List.cons_prefix_cons, Ne.symm hb, Ne.symm hcw]

theorem lt_or_le_of_mem_utf8EncodeChar {c : Char} {b : UInt8} (hb : b ∈ String.utf8EncodeChar c) :
    c.toNat < 128 ∧ Char.ofUInt8 b = c ∨ 128 ≤ c.toNat ∧ 128 ≤ (Char.ofUInt8 b).toNat := by
  by_cases hc : c.toNat < 128
  · rw [utf8EncodeChar_of_lt hc, List.mem_singleton] at hb
    exact .inl ⟨hc, hb ▸ ofUInt8_byte hc⟩
  · exact .inr ⟨Nat.not_lt.1 hc, le_of_mem_utf8EncodeChar (Nat.not_lt.1 hc) hb⟩

theorem test_of_mem_utf8EncodeChar {p : Char → Bool}
    (hp : ∀ c, p c = true → c.toNat < 128) {c : Char}
    {b : UInt8} (hb : b ∈ String.utf8EncodeChar c) : p (Char.ofUInt8 b) = p c := by
  rcases lt_or_le_of_mem_utf8EncodeChar hb with ⟨_, h⟩ | ⟨hc, hle⟩
  · rw [h]
  · have hfalse : ∀ d : Char, 128 ≤ d.toNat → p d = false := by
      intro d hd
      rw [← Bool.not_eq_true]
      exact fun h => Nat.not_lt.2 hd (hp d h)
    rw [hfalse c hc, hfalse _ hle]

theorem isNameByte_of_mem {c : Char} {b : UInt8} (hb : b ∈ String.utf8EncodeChar c) :
    isNameByte b = isNameChar c := test_of_mem_utf8EncodeChar (fun _ => toNat_lt_of_isNameChar) hb

theorem isNameStartByte_of_mem {c : Char} {b : UInt8} (hb : b ∈ String.utf8EncodeChar c) :
    isNameStartByte b = isNameStart c :=
  test_of_mem_utf8EncodeChar
    (fun _ h => toNat_lt_of_isNameChar (isNameChar_of_isNameStart h)) hb

theorem isDigitByte_of_mem {c : Char} {b : UInt8} (hb : b ∈ String.utf8EncodeChar c) :
    isDigitByte b = c.isDigit :=
  test_of_mem_utf8EncodeChar (fun _ h => toNat_lt_of_isNameChar (isNameChar_of_isDigit h)) hb

theorem beq_byte_of_mem {c d : Char} (hd : d.toNat < 128) {b : UInt8}
    (hb : b ∈ String.utf8EncodeChar c) : (b == byte d) = (c == d) := by
  by_cases hcd : c = d
  · subst hcd
    rw [utf8EncodeChar_of_lt hd, List.mem_singleton] at hb
    simp [hb]
  · rw [beq_eq_false_iff_ne.2 hcd, beq_eq_false_iff_ne.2 (ne_byte_of_mem_utf8EncodeChar hd hcd hb)]

theorem searchByte_of_true {p : UInt8 → Bool} {bytes : Array UInt8} {i : Nat} {b : UInt8}
    (hb : bytes[i]? = some b) (hp : p b = true) : searchByte p bytes i = i := by
  obtain ⟨hi, rfl⟩ := Array.getElem?_eq_some_iff.1 hb
  rw [searchByte, dif_pos hi, if_pos hp]

theorem searchByte_of_false {p : UInt8 → Bool} {bytes : Array UInt8} {i : Nat} {b : UInt8}
    (hb : bytes[i]? = some b) (hp : p b = false) :
    searchByte p bytes i = searchByte p bytes (i + 1) := by
  obtain ⟨hi, rfl⟩ := Array.getElem?_eq_some_iff.1 hb
  rw [searchByte, dif_pos hi, if_neg (by simp [hp])]

theorem searchWord_of_ne {word bytes : Array UInt8} {i : Nat} (hi : i < bytes.size)
    (hne : bytes.extract i (i + word.size) ≠ word) :
    searchWord word bytes i = searchWord word bytes (i + 1) := by
  rw [searchWord, dif_pos hi, if_neg hne]

theorem searchWord_of_eq {word bytes : Array UInt8} {i : Nat} (hi : i < bytes.size)
    (heq : bytes.extract i (i + word.size) = word) : searchWord word bytes i = i + word.size := by
  rw [searchWord, dif_pos hi, if_pos heq]

structure At (text : String) (i : Nat) (before after : List Char) : Prop where
  toList_eq : text.toList = before ++ after
  position_eq : i = (encode before).length

namespace At

variable {text : String} {i : Nat} {before after between : List Char} {c : Char}

theorem start (text : String) : At text 0 [] text.toList := ⟨rfl, rfl⟩

theorem position_unique {j : Nat} {after' : List Char} (h : At text i before after)
    (h' : At text j before after') : i = j := by rw [h.position_eq, h'.position_eq]

theorem advance (h : At text i before (between ++ after)) :
    At text (i + (encode between).length) (before ++ between) after := by
  refine ⟨by rw [h.toList_eq, List.append_assoc], ?_⟩
  rw [h.position_eq, encode_append, List.length_append]

theorem next (h : At text i before (c :: after)) :
    At text (i + (String.utf8EncodeChar c).length) (before ++ [c]) after := by
  have hcons : At text i before ([c] ++ after) := h
  simpa using hcons.advance

theorem next_ascii (hc : c.toNat < 128) (h : At text i before (c :: after)) :
    At text (i + 1) (before ++ [c]) after := by
  simpa [utf8EncodeChar_of_lt hc] using h.next

theorem getElem?_add (h : At text i before after) (k : Nat) :
    (bytes text)[i + k]? = (encode after)[k]? := by
  rw [← Array.getElem?_toList, toList_bytes, h.toList_eq, encode_append, h.position_eq,
    List.getElem?_append_right (Nat.le_add_right _ _), Nat.add_sub_cancel_left]

theorem size_eq (h : At text i before after) : (bytes text).size = i + (encode after).length := by
  rw [← Array.length_toList, toList_bytes, h.toList_eq, encode_append, List.length_append,
    h.position_eq]

theorem le_size (h : At text i before after) : i ≤ (bytes text).size := by
  rw [h.size_eq]
  exact Nat.le_add_right _ _

theorem position_of_nil (h : At text i before []) : i = (bytes text).size := by
  simpa using h.size_eq.symm

theorem not_lt_of_nil (h : At text i before []) : ¬ i < (bytes text).size :=
  Nat.not_lt.2 (Nat.le_of_eq h.position_of_nil.symm)

theorem getElem?_of_lt (h : At text i before (c :: after)) (hc : c.toNat < 128) :
    (bytes text)[i]? = some (byte c) := by
  simpa [utf8EncodeChar_of_lt hc] using h.getElem?_add 0

theorem exists_byte (h : At text i before (c :: after)) :
    ∃ b, (bytes text)[i]? = some b ∧ b ∈ String.utf8EncodeChar c := by
  cases hb : String.utf8EncodeChar c with
  | nil => exact absurd hb String.utf8EncodeChar_ne_nil
  | cons b bs =>
    refine ⟨b, ?_, List.mem_cons_self⟩
    simpa [hb] using h.getElem?_add 0

theorem lt_size (h : At text i before after) (hne : after ≠ []) : i < (bytes text).size := by
  obtain ⟨c, after, rfl⟩ := List.exists_cons_of_ne_nil hne
  obtain ⟨b, hb, -⟩ := h.exists_byte
  exact (Array.getElem?_eq_some_iff.1 hb).1

theorem any_getElem? {p : UInt8 → Bool} {q : Char → Bool}
    (hpq : ∀ c, ∀ b ∈ String.utf8EncodeChar c, p b = q c) (h : At text i before after) :
    (bytes text)[i]?.any p = after.head?.any q := by
  cases after with
  | nil => simp [h.position_of_nil]
  | cons c after =>
    obtain ⟨b, hb, hmem⟩ := h.exists_byte
    simp [hb, hpq c b hmem]

theorem any_getElem?_pred {p : UInt8 → Bool} {q : Char → Bool}
    (hpq : ∀ c, ∀ b ∈ String.utf8EncodeChar c, p b = q c) (h : At text i before after) :
    (if i = 0 then none else (bytes text)[i - 1]?).any p = before.getLast?.any q := by
  rcases List.eq_nil_or_concat before with rfl | ⟨bs, c, rfl⟩
  · simp [h.position_eq]
  · have hpos := List.length_pos_iff.2 (String.utf8EncodeChar_ne_nil (c := c))
    have hi : i = (encode bs).length + (String.utf8EncodeChar c).length := by
      simpa using h.position_eq
    have hc : At text (encode bs).length bs (c :: after) := ⟨by simpa using h.toList_eq, rfl⟩
    have hlast : i - 1 = (encode bs).length + ((String.utf8EncodeChar c).length - 1) := by omega
    have hlt : (String.utf8EncodeChar c).length - 1 < (String.utf8EncodeChar c).length := by omega
    have hb := hc.getElem?_add ((String.utf8EncodeChar c).length - 1)
    rw [← hlast, encode_cons, List.getElem?_append_left hlt, List.getElem?_eq_getElem hlt] at hb
    have hi0 : i ≠ 0 := by omega
    rw [if_neg hi0, hb, Option.any_some, hpq c _ (List.getElem_mem hlt)]
    simp

theorem getElem?_eq_some_byte {d : Char} (h : At text i before after) (hd : d.toNat < 128) :
    (bytes text)[i]? = some (byte d) ↔ after.head? = some d := by
  cases after with
  | nil => simp [h.position_of_nil]
  | cons c after =>
    by_cases hcd : c = d
    · subst hcd
      simp [h.getElem?_of_lt hd]
    · obtain ⟨b, hb, hmem⟩ := h.exists_byte
      simp [hb, hcd, ne_byte_of_mem_utf8EncodeChar hd hcd hmem]

/-- A reader that goes on at each byte of a run of characters goes over the run. -/
theorem across {α : Type} {f : Nat → α} {p : UInt8 → Prop}
    (hf : ∀ j b, (bytes text)[j]? = some b → p b → f j = f (j + 1))
    (h : At text i before (between ++ after)) (hp : ∀ b ∈ encode between, p b) :
    f i = f (i + (encode between).length) := by
  have hover : ∀ k ≤ (encode between).length, f i = f (i + k) := by
    intro k
    induction k with
    | zero => intro _; rfl
    | succ k ih =>
      intro hk
      have hb : (bytes text)[i + k]? = some (encode between)[k] := by
        rw [h.getElem?_add, encode_append, List.getElem?_append_left hk,
          List.getElem?_eq_getElem hk]
      rw [ih (Nat.le_of_succ_le hk), hf _ _ hb (hp _ (List.getElem_mem hk))]
      rfl
  exact hover _ (Nat.le_refl _)

theorem across_char {α : Type} {f : Nat → α} {p : UInt8 → Prop}
    (hf : ∀ j b, (bytes text)[j]? = some b → p b → f j = f (j + 1))
    (h : At text i before (c :: after)) (hp : ∀ b ∈ String.utf8EncodeChar c, p b) :
    f i = f (i + (String.utf8EncodeChar c).length) := by
  have hcons : At text i before ([c] ++ after) := h
  simpa using hcons.across hf (by simpa using hp)

theorem searchByte {p : UInt8 → Bool} {q : Char → Bool}
    (hpq : ∀ c, ∀ b ∈ String.utf8EncodeChar c, p b = q c) (h : At text i before after) :
    At text (searchByte p (bytes text) i) (before ++ after.takeWhile fun c => !q c)
      (after.dropWhile fun c => !q c) := by
  induction after generalizing i before with
  | nil =>
    rw [Text.searchByte, dif_neg h.not_lt_of_nil, ← h.position_of_nil]
    simpa using h
  | cons c after ih =>
    cases hq : q c with
    | true =>
      obtain ⟨b, hb, hmem⟩ := h.exists_byte
      rw [searchByte_of_true hb ((hpq c b hmem).trans hq)]
      simpa [hq] using h
    | false =>
      rw [h.across_char (fun j b => searchByte_of_false) fun b hb => (hpq c b hb).trans hq]
      simpa [hq] using ih h.next

theorem findByte {p : UInt8 → Bool} {q : Char → Bool}
    (hpq : ∀ c, ∀ b ∈ String.utf8EncodeChar c, p b = q c) (h : At text i before after) :
    ∃ j, findByte p (bytes text) i = .ok j ∧ At text j (before ++ after.takeWhile fun c => !q c)
      (after.dropWhile fun c => !q c) :=
  ⟨_, if_pos h.le_size, h.searchByte hpq⟩

theorem extract_eq_word {word : List Char} (hword : ∀ c ∈ word, c.toNat < 128)
    (h : At text i before after) :
    (bytes text).extract i (i + (word.map byte).toArray.size) = (word.map byte).toArray ↔
      word <+: after := by
  have hdrop : (bytes text).toList.drop i = encode after := by
    rw [toList_bytes, h.toList_eq, encode_append, h.position_eq, List.drop_left]
  rw [← map_byte_prefix_encode hword, List.prefix_iff_eq_take, ← hdrop, ← Array.toList_inj,
    Array.toList_extract, List.extract, Nat.add_sub_cancel_left, List.size_toArray]
  exact eq_comm

theorem isValid (h : At text i before after) : String.Pos.Raw.IsValid text ⟨i⟩ := by
  refine String.Pos.Raw.isValid_iff_exists_append.2
    ⟨String.ofList before, String.ofList after, ?_, ?_⟩
  · rw [← String.ofList_append, ← h.toList_eq, String.ofList_toList]
  · apply String.Pos.Raw.ext
    rw [String.byteIdx_rawEndPos, utf8ByteSize_ofList, h.position_eq]

theorem extract_toByteArray (h : At text i before (between ++ after)) :
    text.toByteArray.extract i (i + (encode between).length) = between.utf8Encode := by
  rw [← String.utf8Encode_toList, h.toList_eq, List.utf8Encode_append, List.utf8Encode_append,
    h.position_eq, ← size_utf8Encode, ← size_utf8Encode]
  have hcut := @ByteArray.extract_append_size_add before.utf8Encode
    (between.utf8Encode ++ after.utf8Encode) 0 between.utf8Encode.size
  rw [Nat.add_zero, ByteArray.extract_append_eq_left rfl] at hcut
  exact hcut

theorem cut (h : At text i before (between ++ after)) :
    cut text i (i + (encode between).length) = .ok (String.ofList between) := by
  have hsize : i + (encode between).length ≤ text.utf8ByteSize := by
    simpa [String.Pos.Raw.le_iff] using h.advance.isValid.le_rawEndPos
  unfold Text.cut
  rw [if_pos ⟨Nat.le_add_right _ _, hsize⟩, dif_pos h.isValid, dif_pos h.advance.isValid,
    Except.ok.injEq, ← String.toByteArray_inj, String.toByteArray_extract,
    String.toByteArray_ofList]
  exact h.extract_toByteArray

end At

/-- A piece of a text lies within it and begins and ends between characters. -/
structure IsPiece (text : String) (start stop : Nat) : Prop where
  le : start ≤ stop
  le_size : stop ≤ (bytes text).size
  start_isValid : String.Pos.Raw.IsValid text ⟨start⟩
  stop_isValid : String.Pos.Raw.IsValid text ⟨stop⟩

theorem exists_cut_eq_ok_iff {text : String} {start stop : Nat} :
    (∃ piece, cut text start stop = .ok piece) ↔ IsPiece text start stop := by
  have hsize : (bytes text).size = text.utf8ByteSize := rfl
  constructor
  · rintro ⟨piece, h⟩
    unfold cut at h
    split at h
    · next hle =>
      split at h
      · next hstart =>
        split at h
        · next hstop => exact ⟨hle.1, hsize ▸ hle.2, hstart, hstop⟩
        · cases h
      · cases h
    · cases h
  · intro h
    have hle : start ≤ stop ∧ stop ≤ text.utf8ByteSize := ⟨h.le, hsize ▸ h.le_size⟩
    unfold cut
    rw [if_pos hle, dif_pos h.start_isValid, dif_pos h.stop_isValid]
    exact ⟨_, rfl⟩

end QueryMapping.Text
