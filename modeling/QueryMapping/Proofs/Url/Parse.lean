import Mathlib.Data.List.TakeDrop
import QueryMapping.Proofs.Failure
import QueryMapping.Proofs.Url.Host
import QueryMapping.Proofs.Url.Path
import QueryMapping.Url.Parse

/-! Reading a URL that has been written. Every part is written with the characters that end it
encoded, so that a URL with a host is read as what it was. -/

namespace QueryMapping.Url

variable {c mark : Char} {cs as bs rest : List Char}

/-! ### Cutting texts -/

theorem span_append {p : Char → Bool} (as bs : List Char) (has : ∀ c ∈ as, p c = true)
    (hbs : ∀ c ∈ bs.head?, p c = false) : (as ++ bs).span p = (as, bs) := by
  rw [List.span_eq_takeWhile_dropWhile, List.takeWhile_append_of_pos has,
    List.dropWhile_append_of_pos has]
  cases bs with
  | nil => simp
  | cons b bs =>
    have hb : ¬ p b = true := Bool.eq_false_iff.1 (hbs b rfl)
    rw [List.takeWhile_cons_of_neg hb, List.dropWhile_cons_of_neg hb, List.append_nil]

theorem ne_mark_of_mem (h : mark ∉ cs) : ∀ c ∈ cs, decide (c ≠ mark) = true :=
  fun _ hc => decide_eq_true fun heq => h (heq ▸ hc)

theorem cutLast?_of_not_mem (h : mark ∉ cs) : cutLast? mark cs = none := by
  have hreverse : mark ∉ cs.reverse := by simpa using h
  have hspan := span_append cs.reverse [] (ne_mark_of_mem hreverse) (by simp)
  rw [List.append_nil] at hspan
  rw [cutLast?, hspan]

theorem cutLast?_append (h : mark ∉ bs) : cutLast? mark (as ++ mark :: bs) = some (as, bs) := by
  have hspan :=
    span_append bs.reverse (mark :: as.reverse) (ne_mark_of_mem (by simpa using h)) (by simp)
  rw [cutLast?, List.reverse_append, List.reverse_cons, List.append_assoc,
    List.singleton_append, hspan]
  simp

theorem significant_of_visible (h : ∀ c ∈ cs, 0x20 < c.toNat) : significant cs = cs := by
  have hdrop : ∀ as : List Char, (∀ c ∈ as, 0x20 < c.toNat) →
      as.dropWhile isControlOrSpace = as := by
    intro as has
    cases as with
    | nil => rfl
    | cons a as =>
      refine List.dropWhile_cons_of_neg ?_
      rw [isControlOrSpace, decide_eq_true_eq]
      exact Nat.not_le.2 (has a List.mem_cons_self)
  rw [significant, hdrop cs h, hdrop cs.reverse fun c hc => h c (List.mem_reverse.1 hc),
    List.reverse_reverse]
  refine List.filter_eq_self.2 fun c hc => ?_
  have hc' := h c hc
  rw [Bool.not_eq_true', isTabOrNewline, Bool.or_eq_false_iff, Bool.or_eq_false_iff,
    beq_eq_false_iff_ne, beq_eq_false_iff_ne, beq_eq_false_iff_ne]
  refine ⟨⟨?_, ?_⟩, ?_⟩ <;> rintro rfl <;> revert hc' <;> decide

/-! ### Schemes -/

structure IsScheme (scheme : List Char) : Prop where
  head : scheme.head?.any Char.isAlpha = true
  chars : ∀ c ∈ scheme, isSchemeChar c = true
  lower : scheme.map Char.toLower = scheme

theorem IsScheme.scheme?_append {scheme : List Char} (h : IsScheme scheme) (rest : List Char) :
    scheme? (scheme ++ ':' :: rest) = some (scheme, rest) := by
  have hcolon : isSchemeChar ':' = false := by decide
  obtain ⟨c, cs, rfl⟩ : ∃ c cs, scheme = c :: cs := by
    cases scheme with
    | nil => cases h.head
    | cons c cs => exact ⟨c, cs, rfl⟩
  have hhead : ((c :: cs ++ ':' :: rest).head?.any Char.isAlpha) = true := h.head
  rw [scheme?, if_pos hhead, List.dropWhile_append_of_pos h.chars,
    List.takeWhile_append_of_pos h.chars, List.dropWhile_cons_of_neg (by simp [hcolon]),
    List.takeWhile_cons_of_neg (by simp [hcolon]),
    List.append_nil, h.lower]
  rfl

theorem isAlpha_toLower (h : c.isAlpha = true) : c.toLower.isAlpha = true := by
  rcases Text.toLower_cases c with ⟨heq, -⟩ | ⟨hrange, heq⟩
  · rwa [heq]
  · have hlower : c.toLower.isLower = true := by
      have hbounds : 97 ≤ c.toLower.toNat ∧ c.toLower.toNat ≤ 122 := by omega
      exact Bool.and_eq_true_iff.2 ⟨decide_eq_true hbounds.1, decide_eq_true hbounds.2⟩
    exact Bool.or_eq_true_iff.2 (.inr hlower)

theorem isSchemeChar_toLower (h : isSchemeChar c = true) : isSchemeChar c.toLower = true := by
  rcases Text.toLower_cases c with ⟨heq, -⟩ | ⟨hrange, -⟩
  · rwa [heq]
  · have hupper : c.isUpper = true := decide_eq_true hrange
    have halpha : c.isAlpha = true := Bool.or_eq_true_iff.2 (.inl hupper)
    simp [isSchemeChar, Char.isAlphanum, isAlpha_toLower halpha]

theorem isScheme_of_scheme? {scheme : List Char} (h : scheme? cs = some (scheme, rest)) :
    IsScheme scheme := by
  rw [scheme?] at h
  split at h
  · next hhead =>
    split at h
    · obtain ⟨rfl, -⟩ := Prod.mk.inj (Option.some.inj h)
      refine ⟨?_, fun c hc => ?_, ?_⟩
      · cases cs with
        | nil => cases hhead
        | cons c cs =>
          have hc : c.isAlpha = true := hhead
          have hkeep : isSchemeChar c = true := by simp [isSchemeChar, Char.isAlphanum, hc]
          rw [List.takeWhile_cons_of_pos hkeep]
          exact isAlpha_toLower hc
      · obtain ⟨d, hd, rfl⟩ := List.mem_map.1 hc
        exact isSchemeChar_toLower (List.all_eq_true.1 List.all_takeWhile d hd)
      · rw [List.map_map]
        exact List.map_congr_left fun c _ => Text.toLower_idem c
    · cases h
  · cases h

/-! ### Authorities -/

structure Authority.IsNormal (a : Authority) : Prop where
  username : Encoded inUserinfoSet a.username
  password : Encoded inUserinfoSet a.password
  host : a.host.IsNormal
  port : ∀ p ∈ a.port, p ≤ 65535

theorem not_mem_of_encoded {inSet : Char → Bool} (hcs : Encoded inSet cs) (hc : inSet c = true) :
    c ∉ cs := by
  intro hmem
  rw [(hcs c hmem).2] at hc
  cases hc

theorem userinfo_write {user password : List Char} (huser : Encoded inUserinfoSet user)
    (hpassword : Encoded inUserinfoSet password) :
    userinfo (user ++ if password.isEmpty then [] else ':' :: password) = (user, password) := by
  have hcolon : ':' ∉ user := not_mem_of_encoded huser (by decide)
  rw [userinfo]
  cases password with
  | nil =>
    have hspan := span_append user [] (ne_mark_of_mem hcolon) (by simp)
    rw [List.isEmpty_nil, if_pos rfl, hspan]
    dsimp only
    rw [huser.encode_eq]
    rfl
  | cons c cs =>
    have hspan := span_append user (':' :: c :: cs) (ne_mark_of_mem hcolon) (by simp)
    rw [List.isEmpty_cons, if_neg Bool.false_ne_true, hspan]
    dsimp only
    rw [huser.encode_eq, List.tail_cons, hpassword.encode_eq]

def EndsHost (cs : List Char) : Prop := ∀ c ∈ cs.head?, c = ':'

theorem spanHost_end (hrest : EndsHost rest) : spanHost false rest = ([], rest) := by
  cases rest with
  | nil => rfl
  | cons c rest =>
    obtain rfl := hrest c rfl
    rfl

theorem spanHost_name {name : List Char} (hname : ∀ c ∈ name, c ≠ ':' ∧ c ≠ '[' ∧ c ≠ ']')
    (hrest : EndsHost rest) : spanHost false (name ++ rest) = (name, rest) := by
  induction name with
  | nil => exact spanHost_end hrest
  | cons c name ih =>
    obtain ⟨⟨hcolon, hopen, hclose⟩, hname⟩ := List.forall_mem_cons.1 hname
    rw [List.cons_append, spanHost, if_neg (by simp [hcolon]), if_neg hopen, if_neg hclose]
    dsimp only
    rw [ih hname]

theorem spanHost_inside {inside : List Char} (hinside : ∀ c ∈ inside, c ≠ '[' ∧ c ≠ ']')
    (hrest : EndsHost rest) : spanHost true (inside ++ ']' :: rest) = (inside ++ [']'], rest) := by
  induction inside with
  | nil =>
    rw [List.nil_append, spanHost, if_neg (by decide), if_neg (by decide), if_pos rfl]
    dsimp only
    rw [spanHost_end hrest, List.nil_append]
  | cons c inside ih =>
    obtain ⟨⟨hopen, hclose⟩, hinside⟩ := List.forall_mem_cons.1 hinside
    rw [List.cons_append, spanHost, if_neg (by simp), if_neg hopen, if_neg hclose]
    dsimp only
    rw [ih hinside, List.cons_append]

theorem spanHost_write {host : Host} (h : host.IsNormal) (hrest : EndsHost rest) :
    spanHost false (host.write ++ rest) = (host.write, rest) := by
  cases host with
  | empty => exact spanHost_end hrest
  | name chars =>
    refine spanHost_name (fun c hc => ?_) hrest
    have hallowed := (h.2 c hc).2.2
    refine ⟨?_, ?_, ?_⟩ <;> rintro rfl <;> cases hallowed
  | ipv6 pieces =>
    have hinside : ∀ c ∈ Ipv6.write pieces, c ≠ '[' ∧ c ≠ ']' := by
      intro c hc
      rcases Ipv6.mem_write hc with rfl | hc
      · decide
      · exact List.all_iff_forall_prop.1 (by decide : hexDigits.all fun c => c ≠ '[' ∧ c ≠ ']') c hc
    rw [Host.write, List.cons_append, List.cons_append, List.append_assoc,
      List.singleton_append, spanHost, if_neg (by decide), if_pos rfl]
    dsimp only
    rw [spanHost_inside hinside hrest]

def portText (port : Option Nat) : List Char := port.elim [] fun p => ':' :: (toString p).toList

theorem toList_toString (p : Nat) : (toString p).toList = Nat.toDigits 10 p := by
  rw [Nat.toString_eq_ofList_toDigits, String.toList_ofList]

theorem readPort_digits {p : Nat} (hp : p ≤ 65535) :
    readPort (Nat.toDigits 10 p) = .ok (some p, []) := by
  have hspan := span_append (Nat.toDigits 10 p) []
    (fun c hc => Nat.isDigit_of_mem_toDigits (by decide) (by decide) hc) (by simp)
  have hvalue : (Nat.toDigits 10 p).foldl (fun n c => n * 10 + (c.toNat - 48)) 0 = p := by
    have h := Nat.ofDigitChars_ten_toDigits (n := p)
    rw [Nat.ofDigitChars_eq_foldl] at h
    simpa [Nat.mul_comm] using h
  rw [List.append_nil] at hspan
  rw [readPort, hspan]
  dsimp only
  rw [hvalue, if_neg (Nat.not_lt.2 hp), List.head?_nil, if_neg (by simp),
    if_neg (by simp)]

theorem mem_portText {port : Option Nat} (hc : c ∈ portText port) : c = ':' ∨ c.isDigit = true := by
  cases port with
  | none => cases hc
  | some p =>
    rcases List.mem_cons.1 hc with hc | hc
    · exact .inl hc
    · rw [toList_toString] at hc
      exact .inr (Nat.isDigit_of_mem_toDigits (by decide) (by decide) hc)

namespace Authority

variable {a : Authority}

def userText (a : Authority) : List Char :=
  a.username ++ if a.password.isEmpty then [] else ':' :: a.password

theorem write_eq (a : Authority) : a.write =
    (if a.userText.isEmpty then [] else a.userText ++ ['@']) ++
      (a.host.write ++ portText a.port) := by
  rw [write, userText, portText, List.append_assoc]

theorem userText_eq_nil (h : a.userText.isEmpty = true) : a.username = [] ∧ a.password = [] := by
  rw [userText, List.isEmpty_iff, List.append_eq_nil_iff] at h
  refine ⟨h.1, ?_⟩
  by_contra hne
  have hpassword := h.2
  rw [if_neg (by simpa using hne)] at hpassword
  cases hpassword

namespace IsNormal

variable (h : a.IsNormal)
include h

theorem of_mem_hostport (hc : c ∈ a.host.write ++ portText a.port) :
    0x20 < c.toNat ∧ c ∉ ['@', '/', '?', '#'] := by
  rcases List.mem_append.1 hc with hc | hc
  · exact h.host.of_mem_write hc
  · rcases mem_portText hc with rfl | hdigit
    · decide
    · simp only [Char.isDigit, Bool.and_eq_true, decide_eq_true_eq, ge_iff_le,
        UInt32.le_iff_toNat_le] at hdigit
      have hlow : 48 ≤ c.toNat := hdigit.1
      have hhigh : c.toNat ≤ 57 := hdigit.2
      refine ⟨by omega, ?_⟩
      simp only [List.mem_cons, List.not_mem_nil, or_false, not_or]
      refine ⟨?_, ?_, ?_, ?_⟩ <;> rintro rfl
      · exact absurd hhigh (by decide)
      · exact absurd hlow (by decide)
      · exact absurd hhigh (by decide)
      · exact absurd hlow (by decide)

theorem of_mem_write (hc : c ∈ a.write) : 0x20 < c.toNat ∧ c ∉ ['/', '?', '#'] := by
  have huser : c ∈ a.userText → 0x20 < c.toNat ∧ c ∉ ['/', '?', '#'] := by
    intro hc
    rcases List.mem_append.1 hc with hc | hc
    · exact visible_of_not_inUserinfoSet (h.username c hc).2
    · split at hc
      · cases hc
      · rcases List.mem_cons.1 hc with rfl | hc
        · decide
        · exact visible_of_not_inUserinfoSet (h.password c hc).2
  rw [write_eq] at hc
  rcases List.mem_append.1 hc with hc | hc
  · split at hc
    · cases hc
    · rcases List.mem_append.1 hc with hc | hc
      · exact huser hc
      · obtain rfl := List.mem_singleton.1 hc
        decide
  · have hhostport := h.of_mem_hostport hc
    exact ⟨hhostport.1, fun hmem => hhostport.2 (List.mem_cons_of_mem _ hmem)⟩

theorem cutUserinfo_write :
    cutUserinfo a.write = ((a.username, a.password), a.host.write ++ portText a.port) := by
  have hmark : '@' ∉ a.host.write ++ portText a.port := fun hmem =>
    (h.of_mem_hostport hmem).2 List.mem_cons_self
  rw [write_eq]
  by_cases hempty : a.userText.isEmpty = true
  · obtain ⟨husername, hpassword⟩ := userText_eq_nil hempty
    rw [if_pos hempty, List.nil_append, cutUserinfo, cutLast?_of_not_mem hmark,
      husername, hpassword]
  · rw [if_neg hempty, List.append_assoc, List.singleton_append, cutUserinfo, cutLast?_append hmark]
    dsimp only
    rw [userText, userinfo_write h.username h.password]

theorem write_ne_at (hhost : a.host ≠ .empty) : a.write ≠ ['@'] := by
  intro heq
  obtain ⟨c, host, hhost'⟩ := List.exists_cons_of_ne_nil (h.host.write_ne_nil hhost)
  have hc : c ∈ a.host.write ++ portText a.port := by
    rw [hhost']
    exact List.mem_cons_self
  have hmem : c ∈ a.write := by
    rw [write_eq]
    exact List.mem_append_right _ hc
  rw [heq, List.mem_singleton] at hmem
  exact (h.of_mem_hostport hc).2 (hmem ▸ List.mem_cons_self)

/-- An authority that names a host is written so that it is read again. -/
theorem readAuthority_write (hhost : a.host ≠ .empty) : readAuthority a.write = .ok (a, []) := by
  have hends : EndsHost (portText a.port) := by
    cases a.port with
    | none => simp [EndsHost, portText]
    | some p => simp [EndsHost, portText]
  rw [readAuthority, h.cutUserinfo_write]
  dsimp only
  rw [spanHost_write h.host hends]
  dsimp only
  rw [h.host.parse_write]
  obtain ⟨user, password, host, port⟩ := a
  have hempty : (decide (host = .empty)) = false := decide_eq_false hhost
  cases port with
  | none =>
    simp only [bind, Except.bind, portText, hempty]
    rfl
  | some p =>
    have hport := readPort_digits (h.port p rfl)
    simp only [bind, Except.bind, portText, Option.elim_some, hempty, toList_toString, hport]
    rfl

end IsNormal

end Authority

end QueryMapping.Url
