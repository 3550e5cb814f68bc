import QueryMapping.Json.Token

/-! The grammar of RFC 8259, on the characters of a text; no scanner has a part in it. What the
scanners take as a number, as a string or as any other token is what the grammar says, and each of
them stops where the grammar does. -/

namespace QueryMapping.Json.Grammar

def IsBlank (cs : List Char) : Prop := ∀ c ∈ cs, c = ' ' ∨ c = '\t' ∨ c = '\n' ∨ c = '\r'

def IsHex (c : Char) : Prop := c.isDigit = true ∨ ('a' ≤ c ∧ c ≤ 'f') ∨ ('A' ≤ c ∧ c ≤ 'F')

def Digits (cs : List Char) : Prop := cs ≠ [] ∧ ∀ c ∈ cs, c.isDigit = true

inductive Whole : List Char → Prop where
  | zero : Whole ['0']
  | long {cs : List Char} (h : Digits cs) (hzero : cs.head? ≠ some '0') : Whole cs

inductive Fraction : List Char → Prop where
  | none : Fraction []
  | point {cs : List Char} (h : Digits cs) : Fraction ('.' :: cs)

inductive Exponent : List Char → Prop where
  | none : Exponent []
  | mark {e : Char} {sign cs : List Char} (he : e = 'e' ∨ e = 'E')
    (hsign : sign = [] ∨ sign = ['+'] ∨ sign = ['-']) (h : Digits cs) : Exponent (e :: (sign ++ cs))

inductive Numeral : List Char → Prop where
  | mk {sign whole fraction exponent : List Char} (hsign : sign = [] ∨ sign = ['-'])
    (hwhole : Whole whole) (hfraction : Fraction fraction) (hexponent : Exponent exponent) :
    Numeral (sign ++ (whole ++ (fraction ++ exponent)))

inductive Inside : List Char → Prop where
  | nil : Inside []
  | char {c : Char} {cs : List Char} (hcontrol : 0x20 ≤ c.toNat) (hquote : c ≠ '"')
    (hescape : c ≠ '\\') (h : Inside cs) : Inside (c :: cs)
  | escape {c : Char} {cs : List Char} (hc : c ∈ ['"', '\\', '/', 'b', 'f', 'n', 'r', 't'])
    (h : Inside cs) : Inside ('\\' :: c :: cs)
  | unit {a b c d : Char} {cs : List Char} (ha : IsHex a) (hb : IsHex b) (hc : IsHex c)
    (hd : IsHex d) (h : Inside cs) : Inside ('\\' :: 'u' :: a :: b :: c :: d :: cs)

inductive Rule where
  | value
  | element
  | elements
  | members

def IsKey (cs : List Char) : Prop :=
  ∃ before key after, IsBlank before ∧ Inside key ∧ IsBlank after ∧
    cs = before ++ ('"' :: key ++ ['"']) ++ after

inductive Spells : Rule → List Char → Prop where
  | null : Spells .value ['n', 'u', 'l', 'l']
  | bool (b : Bool) : Spells .value (if b then ['t', 'r', 'u', 'e'] else ['f', 'a', 'l', 's', 'e'])
  | number {cs : List Char} (h : Numeral cs) : Spells .value cs
  | string {cs : List Char} (h : Inside cs) : Spells .value ('"' :: cs ++ ['"'])
  | emptyArray {cs : List Char} (h : IsBlank cs) : Spells .value ('[' :: cs ++ [']'])
  | array {cs : List Char} (h : Spells .elements cs) : Spells .value ('[' :: cs ++ [']'])
  | emptyObject {cs : List Char} (h : IsBlank cs) : Spells .value ('\x7b' :: cs ++ ['\x7d'])
  | object {cs : List Char} (h : Spells .members cs) : Spells .value ('\x7b' :: cs ++ ['\x7d'])
  | element {before cs after : List Char} (hbefore : IsBlank before) (h : Spells .value cs)
    (hafter : IsBlank after) : Spells .element (before ++ cs ++ after)
  | item {cs : List Char} (h : Spells .element cs) : Spells .elements cs
  | nextItem {us vs : List Char} (h : Spells .elements us) (hv : Spells .element vs) :
    Spells .elements (us ++ ',' :: vs)
  | pair {ks vs : List Char} (hk : IsKey ks) (hv : Spells .element vs) :
    Spells .members (ks ++ ':' :: vs)
  | nextPair {us ks vs : List Char} (h : Spells .members us) (hk : IsKey ks)
    (hv : Spells .element vs) :
    Spells .members (us ++ ',' :: (ks ++ ':' :: vs))

/-! ### What the scanners take -/

variable {cs text rest : List Char}

theorem isDigit_of_digit? {c : Char} {d : Nat} (h : digit? c = some d) : c.isDigit = true := by
  unfold digit? at h
  split at h
  · assumption
  · cases h

theorem isHex_of_hexDigit? {c : Char} {d : Nat} (h : hexDigit? c = some d) : IsHex c := by
  unfold hexDigit? at h
  split at h
  · next hc => exact .inl hc
  · split at h
    · next hc => exact .inr (.inl (by simpa using hc))
    · split at h
      · next hc => exact .inr (.inr (by simpa using hc))
      · cases h

theorem digits_take (cs : List Char) :
    ∃ ds, cs = ds ++ (digits cs).2 ∧ (∀ c ∈ ds, c.isDigit = true) ∧
    (ds = [] → (digits cs).1 = []) := by
  fun_induction digits cs with
  | case1 => exact ⟨[], rfl, List.forall_mem_nil _, fun _ => rfl⟩
  | case2 c cs d hd ih =>
    obtain ⟨ds, heq, hds, -⟩ := ih
    exact ⟨c :: ds, congrArg (c :: ·) heq, List.forall_mem_cons.2 ⟨isDigit_of_digit? hd, hds⟩,
      fun hnil => absurd hnil (List.cons_ne_nil _ _)⟩
  | case3 c cs hd => exact ⟨[], rfl, List.forall_mem_nil _, fun _ => rfl⟩

theorem exists_digits (h : ((digits cs).1.isEmpty) = false) :
    ∃ ds, cs = ds ++ (digits cs).2 ∧ Digits ds := by
  obtain ⟨ds, heq, hds, hempty⟩ := digits_take cs
  refine ⟨ds, heq, fun hnil => ?_, hds⟩
  rw [hempty hnil] at h
  cases h

theorem wholeDigits?_take {r : List Nat × List Char} (h : wholeDigits? cs = some r) :
    ∃ whole, cs = whole ++ r.2 ∧ Whole whole := by
  unfold wholeDigits? at h
  split at h
  · cases h
    exact ⟨['0'], rfl, .zero⟩
  · next hzero =>
    split at h
    · cases h
    · next hempty =>
      cases h
      obtain ⟨ds, heq, hds⟩ := exists_digits (Bool.eq_false_iff.2 hempty)
      refine ⟨ds, heq, .long hds fun hhead => ?_⟩
      obtain ⟨tail, rfl⟩ := List.head?_eq_some_iff.1 hhead
      exact hzero _ heq

theorem fractionDigits?_take {r : List Nat × List Char} (h : fractionDigits? cs = some r) :
    ∃ fraction, cs = fraction ++ r.2 ∧ Fraction fraction := by
  unfold fractionDigits? at h
  split at h
  · split at h
    · cases h
    · next hempty =>
      cases h
      obtain ⟨ds, heq, hds⟩ := exists_digits (Bool.eq_false_iff.2 hempty)
      exact ⟨'.' :: ds, congrArg ('.' :: ·) heq, .point hds⟩
  · cases h
    exact ⟨[], rfl, .none⟩

theorem signedDigits_take (cs : List Char) (h : (signedDigits cs).2.1.isEmpty = false) :
    ∃ sign ds, cs = sign ++ ds ++ (signedDigits cs).2.2 ∧
      (sign = [] ∨ sign = ['+'] ∨ sign = ['-']) ∧ Digits ds := by
  unfold signedDigits at h ⊢
  split at h
  · obtain ⟨ds, heq, hds⟩ := exists_digits h
    exact ⟨['-'], ds, congrArg ('-' :: ·) heq, .inr (.inr rfl), hds⟩
  · obtain ⟨ds, heq, hds⟩ := exists_digits h
    exact ⟨['+'], ds, congrArg ('+' :: ·) heq, .inr (.inl rfl), hds⟩
  · obtain ⟨ds, heq, hds⟩ := exists_digits h
    exact ⟨[], ds, heq, .inl rfl, hds⟩

theorem exponentDigits?_take {r : Option (Bool × List Nat) × List Char}
    (h : exponentDigits? cs = some r) : ∃ exponent, cs = exponent ++ r.2 ∧ Exponent exponent := by
  unfold exponentDigits? at h
  split at h
  · cases h
    exact ⟨[], rfl, .none⟩
  · next c tail =>
    split at h
    · next hc =>
      dsimp only at h
      split at h
      · cases h
      · next hempty =>
        cases h
        obtain ⟨sign, ds, heq, hsign, hds⟩ := signedDigits_take tail (Bool.eq_false_iff.2 hempty)
        refine ⟨c :: (sign ++ ds), congrArg (c :: ·) heq, .mark ?_ hsign hds⟩
        simpa using hc
    · cases h
      exact ⟨[], rfl, .none⟩

theorem number?_take {negative : Bool} {r : NumberText × List Char}
    (h : number? negative cs = some r) {sign : List Char} (hsign : sign = [] ∨ sign = ['-']) :
    ∃ text, sign ++ cs = text ++ r.2 ∧ Numeral text := by
  simp only [number?, bind, Option.bind_eq_some_iff] at h
  obtain ⟨⟨ws, cs₁⟩, hw, ⟨fs, cs₂⟩, hf, ⟨es, cs₃⟩, he, h⟩ := h
  cases h
  obtain ⟨whole, rfl, hwhole⟩ := wholeDigits?_take hw
  obtain ⟨fraction, rfl, hfraction⟩ := fractionDigits?_take hf
  obtain ⟨exponent, rfl, hexponent⟩ := exponentDigits?_take he
  exact ⟨_, by simp, .mk hsign hwhole hfraction hexponent⟩

theorem isHex_of_unit? {a b c d : Char} {n : Nat} (h : unit? a b c d = some n) :
    IsHex a ∧ IsHex b ∧ IsHex c ∧ IsHex d := by
  simp only [unit?, bind, Option.bind_eq_some_iff] at h
  obtain ⟨w, ha, x, hb, y, hc, z, hd, -⟩ := h
  exact ⟨isHex_of_hexDigit? ha, isHex_of_hexDigit? hb, isHex_of_hexDigit? hc, isHex_of_hexDigit? hd⟩

theorem mem_of_escaped? {c d : Char} (h : escaped? c = some d) :
    c ∈ ['"', '\\', '/', 'b', 'f', 'n', 'r', 't'] := by
  unfold escaped? at h
  split at h
  case h_9 => cases h
  all_goals simp

theorem stringParts_take {r : List StringPart × List Char} (h : stringParts cs = some r) :
    ∃ inside, cs = inside ++ '"' :: r.2 ∧ Inside inside := by
  fun_induction stringParts cs generalizing r with
  | case1 => cases h
  | case2 rest =>
    cases h
    exact ⟨[], rfl, .nil⟩
  | case3 a b c d tail ih =>
    obtain ⟨p, r', hp, hr, rfl⟩ := consPart_eq_some h
    obtain ⟨n, hn, -⟩ := Option.map_eq_some_iff.1 hp
    obtain ⟨ha, hb, hc, hd⟩ := isHex_of_unit? hn
    obtain ⟨inside, rfl, hinside⟩ := ih hr
    exact ⟨_, rfl, .unit ha hb hc hd hinside⟩
  | case4 c tail _ ih =>
    obtain ⟨p, r', hp, hr, rfl⟩ := consPart_eq_some h
    obtain ⟨d, hd, -⟩ := Option.map_eq_some_iff.1 hp
    obtain ⟨inside, rfl, hinside⟩ := ih hr
    exact ⟨_, rfl, .escape (mem_of_escaped? hd) hinside⟩
  | case5 c tail hquote _ _ ih =>
    obtain ⟨p, r', hp, hr, rfl⟩ := consPart_eq_some h
    obtain ⟨inside, rfl, hinside⟩ := ih hr
    split at hp
    · cases hp
    · next hc =>
      simp only [Bool.or_eq_true, beq_iff_eq, decide_eq_true_eq, not_or, Nat.not_lt] at hc
      exact ⟨c :: inside, rfl, .char hc.2 hquote hc.1 hinside⟩

def Written : Token → List Char → Prop
  | .openArray, cs => cs = ['[']
  | .closeArray, cs => cs = [']']
  | .openObject, cs => cs = ['\x7b']
  | .closeObject, cs => cs = ['\x7d']
  | .comma, cs => cs = [',']
  | .colon, cs => cs = [':']
  | .null, cs => cs = ['n', 'u', 'l', 'l']
  | .bool b, cs => cs = if b then ['t', 'r', 'u', 'e'] else ['f', 'a', 'l', 's', 'e']
  | .number _, cs => Numeral cs
  | .string _, cs => ∃ inside, Inside inside ∧ cs = '"' :: inside ++ ['"']

theorem token?_take {r : Token × List Char} (h : token? cs = some r) :
    ∃ text, cs = text ++ r.2 ∧ Written r.1 text := by
  unfold token? at h
  split at h
  case h_10 =>
    obtain ⟨r', hr, rfl⟩ := Option.map_eq_some_iff.1 h
    obtain ⟨inside, rfl, hinside⟩ := stringParts_take hr
    exact ⟨_, by simp, inside, hinside, rfl⟩
  case h_11 =>
    obtain ⟨r', hr, rfl⟩ := Option.map_eq_some_iff.1 h
    exact number?_take hr (.inr rfl)
  case h_12 =>
    obtain ⟨r', hr, rfl⟩ := Option.map_eq_some_iff.1 h
    exact number?_take hr (.inl rfl)
  all_goals
    obtain rfl := Option.some.inj h
    refine ⟨_, ?_, rfl⟩
    rfl

/-! ### Where the scanners stop -/

/-- What does not carry on a number. -/
def Bounded (rest : List Char) : Prop :=
  ∀ c ∈ rest.head?, c.isDigit = false ∧ c ≠ '.' ∧ c ≠ 'e' ∧ c ≠ 'E'

theorem digits_append {ds : List Char} (hds : ∀ c ∈ ds, c.isDigit = true)
    (hrest : ∀ c ∈ rest.head?, c.isDigit = false) :
    digits (ds ++ rest) = ((digits ds).1, rest) := by
  induction ds with
  | nil =>
    cases rest with
    | nil => rfl
    | cons c rest =>
      have hc : digit? c = none := if_neg (by rw [hrest c rfl]; exact Bool.false_ne_true)
      change digits (c :: rest) = ([], c :: rest)
      rw [digits, hc]
  | cons c ds ih =>
    obtain ⟨hc, hds⟩ := List.forall_mem_cons.1 hds
    have hd : digit? c = some (c.toNat - 48) := if_pos hc
    rw [List.cons_append, digits, hd, digits, hd]
    simp only [ih hds]

theorem Digits.isEmpty_eq_false {ds : List Char} (h : Digits ds) :
    (digits ds).1.isEmpty = false := by
  obtain ⟨hne, hds⟩ := h
  cases ds with
  | nil => exact absurd rfl hne
  | cons c ds =>
    have hd : digit? c = some (c.toNat - 48) := if_pos (hds c (.head _))
    rw [digits, hd]
    rfl

theorem Whole.scan {whole : List Char} (h : Whole whole)
    (hrest : ∀ c ∈ rest.head?, c.isDigit = false) :
    wholeDigits? (whole ++ rest) = some ((digits whole).1, rest) := by
  cases h with
  | zero => rfl
  | long hds hzero =>
    have hscan := digits_append hds.2 hrest
    unfold wholeDigits?
    split
    · next tail heq =>
      cases whole with
      | nil => exact absurd rfl hds.1
      | cons c ds =>
        obtain rfl := (List.cons.inj heq).1
        exact absurd rfl hzero
    · rw [hscan, hds.isEmpty_eq_false]
      rfl

theorem Fraction.scan {fraction : List Char} (h : Fraction fraction)
    (hrest : ∀ c ∈ rest.head?, c.isDigit = false ∧ c ≠ '.') :
    fractionDigits? (fraction ++ rest) = some ((digits fraction.tail).1, rest) := by
  cases h with
  | none =>
    rw [List.nil_append]
    unfold fractionDigits?
    split
    · exact absurd rfl (hrest '.' rfl).2
    · rfl
  | @point ds hds =>
    have hscan := digits_append hds.2 fun c hc => (hrest c hc).1
    change (if (digits (ds ++ rest)).1.isEmpty then _ else some (digits (ds ++ rest))) = _
    rw [hscan, hds.isEmpty_eq_false]
    rfl

theorem signedDigits_append {sign ds : List Char}
    (hsign : sign = [] ∨ sign = ['+'] ∨ sign = ['-']) (hds : Digits ds)
    (hrest : ∀ c ∈ rest.head?, c.isDigit = false) :
    signedDigits (sign ++ ds ++ rest) = (decide (sign = ['-']), (digits ds).1, rest) := by
  have hscan := digits_append hds.2 hrest
  rcases hsign with rfl | rfl | rfl
  · obtain ⟨c, ds, rfl⟩ := List.exists_cons_of_ne_nil hds.1
    have hc := hds.2 c (.head _)
    unfold signedDigits
    split
    · next heq =>
      obtain rfl := (List.cons.inj heq).1
      cases hc
    · next heq =>
      obtain rfl := (List.cons.inj heq).1
      cases hc
    · rw [List.nil_append, hscan]
      rfl
  · change (false, digits (ds ++ rest)) = _
    rw [hscan]
    rfl
  · change (true, digits (ds ++ rest)) = _
    rw [hscan]
    rfl

theorem Exponent.scan {exponent : List Char} (h : Exponent exponent) :
    ∃ es, ∀ rest, Bounded rest → exponentDigits? (exponent ++ rest) = some (es, rest) := by
  cases h with
  | none =>
    refine ⟨.none, fun rest hrest => ?_⟩
    cases rest with
    | nil => rfl
    | cons c rest =>
      obtain ⟨-, -, he, hE⟩ := hrest c rfl
      exact if_neg (by simp [he, hE])
  | @mark e sign ds he hsign hds =>
    refine ⟨some (sign = ['-'], (digits ds).1), fun rest hrest => ?_⟩
    have hmark : (e == 'e' || e == 'E') = true := by simpa using he
    have hsigned := signedDigits_append hsign hds fun c hc => (hrest c hc).1
    rw [List.cons_append, exponentDigits?, if_pos hmark, hsigned]
    simp only [hds.isEmpty_eq_false]
    rfl

theorem Exponent.head_eq {exponent : List Char} (h : Exponent exponent) (hrest : Bounded rest) :
    ∀ c ∈ (exponent ++ rest).head?, c.isDigit = false ∧ c ≠ '.' := by
  cases h with
  | none => exact fun c hc => ⟨(hrest c hc).1, (hrest c hc).2.1⟩
  | mark he hsign hds =>
    intro c hc
    obtain rfl := Option.some.inj hc
    rcases he with rfl | rfl <;> decide

theorem Fraction.head_eq {fraction : List Char} (h : Fraction fraction)
    (hrest : ∀ c ∈ rest.head?, c.isDigit = false) :
    ∀ c ∈ (fraction ++ rest).head?, c.isDigit = false := by
  cases h with
  | none => exact hrest
  | point hds =>
    intro c hc
    obtain rfl := Option.some.inj hc
    rfl

theorem exists_number? {whole fraction exponent : List Char} (hwhole : Whole whole)
    (hfraction : Fraction fraction) (hexponent : Exponent exponent) (negative : Bool) :
    ∃ n, ∀ rest, Bounded rest →
      number? negative (whole ++ (fraction ++ exponent) ++ rest) = some (n, rest) := by
  obtain ⟨es, hes⟩ := hexponent.scan
  refine ⟨⟨negative, (digits whole).1, (digits fraction.tail).1, es⟩, fun rest hrest => ?_⟩
  have hpoint := hexponent.head_eq hrest
  have hdigit := hfraction.head_eq fun c hc => (hpoint c hc).1
  rw [List.append_assoc, List.append_assoc, number?, hwhole.scan hdigit]
  change (fractionDigits? (fraction ++ (exponent ++ rest)) >>= _) = _
  rw [hfraction.scan hpoint]
  change (exponentDigits? (exponent ++ rest) >>= _) = _
  rw [hes rest hrest]
  rfl

theorem token?_of_isDigit {c : Char} (hc : c.isDigit = true) (cs : List Char) :
    token? (c :: cs) = (number? false (c :: cs)).map fun r => (.number r.1, r.2) := by
  rw [token?]
  all_goals
    intro tail heq
    obtain rfl := (List.cons.inj heq).1
    exact absurd hc (by decide)

theorem Whole.exists_cons {whole : List Char} (h : Whole whole) :
    ∃ c tail, whole = c :: tail ∧ c.isDigit = true := by
  cases h with
  | zero => exact ⟨'0', [], rfl, rfl⟩
  | long hds hzero =>
    obtain ⟨c, tail, rfl⟩ := List.exists_cons_of_ne_nil hds.1
    exact ⟨c, tail, rfl, hds.2 c (.head _)⟩

theorem Numeral.exists_token? (h : Numeral text) :
    ∃ n, ∀ rest, Bounded rest → token? (text ++ rest) = some (.number n, rest) := by
  obtain ⟨hsign, hwhole, hfraction, hexponent⟩ := h
  rcases hsign with rfl | rfl
  · obtain ⟨n, hn⟩ := exists_number? hwhole hfraction hexponent false
    refine ⟨n, fun rest hrest => ?_⟩
    have hscan := hn rest hrest
    obtain ⟨c, tail, rfl, hc⟩ := hwhole.exists_cons
    exact (token?_of_isDigit hc _).trans (congrArg (Option.map _) hscan)
  · obtain ⟨n, hn⟩ := exists_number? hwhole hfraction hexponent true
    exact ⟨n, fun rest hrest => congrArg (Option.map _) (hn rest hrest)⟩

theorem IsHex.exists_hexDigit? {c : Char} (h : IsHex c) : ∃ d, hexDigit? c = some d := by
  unfold hexDigit?
  split
  · exact ⟨_, rfl⟩
  · next hdigit =>
    split
    · exact ⟨_, rfl⟩
    · next hlower =>
      refine ⟨_, if_pos ?_⟩
      rcases h with h | h | h
      · exact absurd h hdigit
      · exact absurd (by simpa using h) hlower
      · simpa using h

theorem exists_unit? {a b c d : Char} (ha : IsHex a) (hb : IsHex b) (hc : IsHex c) (hd : IsHex d) :
    ∃ n, unit? a b c d = some n := by
  obtain ⟨w, hw⟩ := ha.exists_hexDigit?
  obtain ⟨x, hx⟩ := hb.exists_hexDigit?
  obtain ⟨y, hy⟩ := hc.exists_hexDigit?
  obtain ⟨z, hz⟩ := hd.exists_hexDigit?
  exact ⟨_, by rw [unit?, hw, hx, hy, hz]; rfl⟩

theorem exists_escaped? {c : Char} (h : c ∈ ['"', '\\', '/', 'b', 'f', 'n', 'r', 't']) :
    (∃ d, escaped? c = some d) ∧ c ≠ 'u' := by
  simp only [List.mem_cons, List.not_mem_nil, or_false] at h
  rcases h with rfl | rfl | rfl | rfl | rfl | rfl | rfl | rfl <;> exact ⟨⟨_, rfl⟩, by decide⟩

theorem Inside.exists_stringParts {inside : List Char} (h : Inside inside) :
    ∃ parts, ∀ rest, stringParts (inside ++ '"' :: rest) = some (parts, rest) := by
  induction h with
  | nil => exact ⟨[], fun rest => rfl⟩
  | @char c cs hcontrol hquote hescape h ih =>
    obtain ⟨parts, hparts⟩ := ih
    refine ⟨.char c :: parts, fun rest => ?_⟩
    have hpart : (c == '\\' || decide (c.toNat < 0x20)) = false := by simp [hescape, hcontrol]
    rw [List.cons_append, stringParts, hparts, if_neg (by rw [hpart]; exact Bool.false_ne_true)]
    · rfl
    all_goals simp [hquote, hescape]
  | @escape c cs hc h ih =>
    obtain ⟨parts, hparts⟩ := ih
    obtain ⟨⟨d, hd⟩, hu⟩ := exists_escaped? hc
    refine ⟨.char d :: parts, fun rest => ?_⟩
    rw [List.cons_append, List.cons_append, stringParts, hparts, hd]
    · rfl
    all_goals simp [hu]
  | @unit a b c d cs ha hb hc hd h ih =>
    obtain ⟨parts, hparts⟩ := ih
    obtain ⟨n, hn⟩ := exists_unit? ha hb hc hd
    refine ⟨.unit n :: parts, fun rest => ?_⟩
    simp only [List.cons_append]
    rw [stringParts, hparts, hn]
    rfl

end QueryMapping.Json.Grammar
