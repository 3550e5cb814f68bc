import Mathlib.Data.List.TakeWhile
import QueryMapping.Proofs.Url.Normal

/-! What a part of a URL holds of the text that it is set to. User and password hold an escape in
the text for what it stands for, a path holds its dot segments resolved, and a host ends at its
first colon. All other text is there as it was. -/

namespace QueryMapping.Url

variable {u v : Url} {cs part : List Char} {text : String} {host : Host}

/-! ### Users and passwords -/

structure Holds (encoded : List Char) (text : String) : Prop where
  decoded : decode? encoded = decode? text.toList
  exact : decode? encoded = some text ↔ ¬ HasEscape text.toList

theorem SparesEscapes.holds {inSet : Char → Bool} (hs : SparesEscapes inSet) (text : String) :
    Holds (encode inSet text.toList) text := by
  have hdecoded : decode? (encode inSet text.toList) = decode? text.toList := by
    refine Option.ext fun text' => ?_
    rw [decode?_eq_some_iff, decode?_eq_some_iff, hs.decode_encode]
  exact ⟨hdecoded, by rw [hdecoded, decode?_eq_some_iff, decode_eq_self_iff]⟩

/-! ### Hosts -/

def IsBracketed (cs : List Char) : Prop := cs.head? = some '[' ∧ cs.getLast? = some ']'

theorem hostPart?_of_bracketed (h : IsBracketed cs) : hostPart? cs = some cs := by
  rw [hostPart?, if_pos (by simp [h.1, h.2])]

theorem eq_of_hostPart? (h : ¬ IsBracketed cs) (hpart : hostPart? cs = some part) :
    part = cs.takeWhile (· ≠ ':') := by
  rw [hostPart?, if_neg (by simpa [IsBracketed] using h)] at hpart
  split at hpart
  · cases hpart
  · exact (Option.some.inj hpart).symm

theorem Host.write_of_parse (h : Host.parse cs = .ok host) :
    IsBracketed cs ∧ IsBracketed host.write ∨ host.write = encode isControl cs := by
  rcases cs with _ | ⟨c, rest⟩
  · obtain rfl := Except.ok.inj h
    exact .inr rfl
  by_cases hc : c = '['
  · subst hc
    rw [parse_bracket] at h
    split at h
    · next hlast =>
      split at h
      · obtain rfl := Except.ok.inj h
        refine .inl ⟨⟨rfl, ?_⟩, rfl, ?_⟩
        · rw [List.getLast?_cons, hlast, Option.getD_some]
        · exact List.getLast?_concat
      · cases h
    · cases h
  · rw [parse_of_ne hc] at h
    split at h
    · cases h
    · obtain rfl := Except.ok.inj h
      exact .inr rfl

theorem Host.write_eq_iff (h : ¬ IsBracketed cs)
    (hhost : Host.parse (cs.takeWhile (· ≠ ':')) = .ok host) :
    host.write = cs ↔ ':' ∉ cs ∧ Encoded isControl cs := by
  by_cases hcolon : ':' ∈ cs
  · refine iff_of_false (fun heq => ?_) fun hall => hall.1 hcolon
    rcases write_of_parse hhost with ⟨-, hbracketed⟩ | hencode
    · exact h (heq ▸ hbracketed)
    · rw [← heq, hencode] at hcolon
      rcases mem_encode hcolon with ⟨hmem, -⟩ | hmem
      · exact absurd (List.mem_takeWhile_imp hmem) (by decide)
      · exact absurd hmem (by decide)
  · have hwhole : cs.takeWhile (· ≠ ':') = cs :=
      List.takeWhile_eq_self_iff.2 (ne_mark_of_mem hcolon)
    rw [hwhole] at hhost
    rcases write_of_parse hhost with ⟨hbracketed, -⟩ | hencode
    · exact absurd hbracketed h
    · rw [hencode, sparesEscapes_isControl.encode_eq_self_iff, and_iff_right hcolon]

/-- What a host is of the text that it is set to: the address that is meant, or else a name that is
written as the text is unless that has a colon or has to be encoded. -/
structure Host.Names (host : Host) (cs : List Char) : Prop where
  address : IsBracketed cs → parse cs = .ok host
  name : ¬ IsBracketed cs → parse (cs.takeWhile (· ≠ ':')) = .ok host
  exact : ¬ IsBracketed cs → (host.write = cs ↔ ':' ∉ cs ∧ Encoded isControl cs)

theorem setHost_names (h : u.setHost cs = .ok v) : v.authorityOrBlank.host.Names cs := by
  obtain ⟨-, part, host, hpart, hhost, rfl⟩ := setHost_eq_ok_iff.1 h
  change host.Names cs
  by_cases hbracketed : IsBracketed cs
  · rw [hostPart?_of_bracketed hbracketed] at hpart
    obtain rfl := Option.some.inj hpart
    exact ⟨fun _ => hhost, fun hnot => absurd hbracketed hnot, fun hnot => absurd hbracketed hnot⟩
  · rw [eq_of_hostPart? hbracketed hpart] at hhost
    exact ⟨fun h => absurd h hbracketed, fun _ => hhost,
      fun _ => Host.write_eq_iff hbracketed hhost⟩

/-! ### Paths -/

def Path.withoutSlash : List Char → List Char
  | '/' :: cs => cs
  | cs => cs

/-- A text that a path holds as it is: nothing in it is ignored, resolved or decoded. -/
structure Path.IsLiteral (cs : List Char) : Prop where
  significant : ∀ c ∈ cs, isTabOrNewline c = false
  segments : ∀ s ∈ cs.splitOn '/', ¬ IsDots s
  plain : ¬ HasEscape cs

theorem decode_withoutSlash_ofText_iff :
    decodeBytes (Text.encode (Path.withoutSlash (Path.ofText part))) = Text.encode cs ↔
      decodeBytes (Text.encode (Path.ofText part)) = Text.encode ('/' :: cs) := by
  rw [Path.ofText, Path.decode_slash]
  exact (List.cons_inj_right _).symm

/-- The slash that an opaque path is given is one too many for every text. -/
theorem slash_cons_decode_ne (cs : List Char) :
    0x2F :: decodeBytes (Text.encode (cs.filter (!isTabOrNewline ·))) ≠ Text.encode cs := by
  induction cs with
  | nil => exact List.cons_ne_nil _ _
  | cons c rest ih =>
    intro heq
    obtain ⟨rfl, hrest⟩ := Text.eq_and_eq_of_append_eq_cons (d := '/') (by decide) heq.symm
    rw [List.filter_cons_of_pos (by decide), Path.decode_slash] at hrest
    exact ih hrest.symm

theorem decode_setPath_iff (u : Url) (name : String) :
    decode? (Path.withoutSlash (u.setPath name.toList).path) = some name ↔
      u.isOpaque = false ∧ Path.IsLiteral name.toList := by
  rw [decode?_eq_some_iff]
  generalize name.toList = cs
  cases hform : u.isOpaque with
  | true =>
    refine iff_of_false (fun heq => ?_) fun h => by cases h.1
    rw [setPath_of_isOpaque hform] at heq
    change decodeBytes (Text.encode ('%' :: '2' :: 'F' :: encode isControl _)) = _ at heq
    rw [decode_escape (m := 2) (n := 15) rfl rfl, sparesEscapes_isControl.decode_encode] at heq
    exact slash_cons_decode_ne cs heq
  | false =>
    rw [setPath_of_not_isOpaque hform, and_iff_right rfl, decode_withoutSlash_ofText_iff]
    by_cases hsignificant : ∀ c ∈ cs, isTabOrNewline c = false
    · have hwhole : cs.filter (!isTabOrNewline ·) = cs :=
        List.filter_eq_self.2 (by simpa using hsignificant)
      rw [hwhole, Path.decode_ofText_iff]
      exact ⟨fun h => ⟨hsignificant, h.1, h.2⟩, fun h => ⟨h.segments, h.plain⟩⟩
    · refine iff_of_false (fun heq => ?_) fun h => hsignificant h.significant
      -- What is ignored is missing from the path, however it is decoded.
      have hne : cs.filter (!isTabOrNewline ·) ≠ cs := fun hwhole =>
        hsignificant (by simpa using List.filter_eq_self.1 hwhole)
      have hlt := Text.length_encode_lt_of_sublist List.filter_sublist hne
      have hle := Path.length_decode_ofText_le (cs.filter (!isTabOrNewline ·))
      rw [heq, Path.length_encode_slash] at hle
      omega

theorem isOpaque_setPath (u : Url) (cs : List Char) : (u.setPath cs).isOpaque = u.isOpaque := by
  cases hform : u.isOpaque with
  | true =>
    rw [isOpaque, Bool.and_eq_true, Bool.and_eq_true] at hform
    rw [setPath_of_isOpaque (by simp [isOpaque, hform]), isOpaque, hform.1.1, hform.1.2]
    rfl
  | false =>
    rw [setPath_of_not_isOpaque hform, isOpaque, Path.ofText, List.head?_cons, bne_self_eq_false,
      Bool.and_false]

end QueryMapping.Url
