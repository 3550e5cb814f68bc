import QueryMapping.Proofs.Sql.Lexeme

/-! Where the body of a lexeme ends: a quoted token at the first quote that is not doubled, a
comment or a body between tags at the first occurrence of its closing mark, a name or a line where
its run of characters stops. -/

namespace QueryMapping.Sql.Lexeme

structure Tail where
  body : List Char
  closed : Bool
  rest : List Char

def Tail.push (c : Char) (t : Tail) : Tail := { t with body := c :: t.body }

@[simp]
theorem Tail.push_body (c : Char) (t : Tail) : (t.push c).body = c :: t.body := rfl

@[simp]
theorem Tail.push_closed (c : Char) (t : Tail) : (t.push c).closed = t.closed := rfl

@[simp]
theorem Tail.push_rest (c : Char) (t : Tail) : (t.push c).rest = t.rest := by rw [Tail.push]

@[grind =]
def quotedTail (quote : Char) : List Char → Tail
  | [] => ⟨[], false, []⟩
  | c :: cs =>
    if c = quote then
      match cs with
      | [] => ⟨[], true, []⟩
      | d :: rest =>
        if d = quote then ((quotedTail quote rest).push quote).push quote
        else ⟨[], true, d :: rest⟩
    else (quotedTail quote cs).push c

theorem quotedTail_cons_of_ne {quote c : Char} (hc : c ≠ quote) (cs : List Char) :
    quotedTail quote (c :: cs) = (quotedTail quote cs).push c := by
  cases cs <;> simp [quotedTail, hc]

theorem quotedTail_pair (quote : Char) (cs : List Char) :
    quotedTail quote (quote :: quote :: cs) = ((quotedTail quote cs).push quote).push quote := by
  simp [quotedTail]

theorem quotedTail_close {quote : Char} {rest : List Char} (hrest : rest.head? ≠ some quote) :
    quotedTail quote (quote :: rest) = ⟨[], true, rest⟩ := by
  cases rest with
  | nil => simp [quotedTail]
  | cons d rest =>
    have hd : d ≠ quote := by simpa using hrest
    simp [quotedTail, hd]

theorem quotedTail_append (quote : Char) (cs : List Char) :
    (quotedTail quote cs).body ++ ending (quotedTail quote cs).closed [quote] ++
      (quotedTail quote cs).rest = cs := by
  fun_induction quotedTail quote cs with
  | case1 | case2 | case4 => simp
  | case3 rest ih => simpa using ih
  | case5 c cs hc ih => simpa using ih

theorem doubled_quotedTail (quote : Char) (cs : List Char) :
    Doubled quote (quotedTail quote cs).body := by
  fun_induction quotedTail quote cs with
  | case1 | case2 | case4 => exact .nil
  | case3 rest ih => exact .pair ih
  | case5 c cs hc ih => exact .other hc ih

theorem head_quotedTail (quote : Char) (cs : List Char) (h : (quotedTail quote cs).closed = true) :
    (quotedTail quote cs).rest.head? ≠ some quote := by
  fun_induction quotedTail quote cs <;> simp_all

theorem quotedTail_of_open (quote : Char) (cs : List Char)
    (h : (quotedTail quote cs).closed = false) : (quotedTail quote cs).rest = [] := by
  fun_induction quotedTail quote cs <;> simp_all

theorem Doubled.quotedTail {quote : Char} {body rest : List Char} (h : Doubled quote body)
    (hrest : rest.head? ≠ some quote) :
    quotedTail quote (body ++ quote :: rest) = ⟨body, true, rest⟩ := by
  induction h with
  | nil => exact quotedTail_close hrest
  | other hc _ ih =>
    rw [List.cons_append, quotedTail_cons_of_ne hc, ih]
    rfl
  | pair _ ih =>
    rw [List.cons_append, List.cons_append, quotedTail_pair, ih]
    rfl

theorem Doubled.quotedTail_open {quote : Char} {body : List Char} (h : Doubled quote body) :
    Lexeme.quotedTail quote body = ⟨body, false, []⟩ := by
  induction h with
  | nil => rfl
  | other hc _ ih =>
    rw [quotedTail_cons_of_ne hc, ih]
    rfl
  | pair _ ih =>
    rw [quotedTail_pair, ih]
    rfl

@[grind =]
def upTo (word : List Char) : List Char → Tail
  | [] => ⟨[], false, []⟩
  | c :: cs =>
    if word <+: c :: cs then ⟨[], true, (c :: cs).drop word.length⟩
    else (upTo word cs).push c

theorem upTo_append (word cs : List Char) :
    (upTo word cs).body ++ ending (upTo word cs).closed word ++ (upTo word cs).rest = cs := by
  fun_induction upTo word cs with
  | case1 => rfl
  | case2 c cs h =>
    obtain ⟨rest, hrest⟩ := h
    simp [← hrest]
  | case3 c cs h ih => simpa using ih

theorem upTo_of_open (word cs : List Char) (h : (upTo word cs).closed = false) :
    (upTo word cs).rest = [] := by
  fun_induction upTo word cs <;> simp_all

theorem append_dropLast_isPrefix (body word rest : List Char) :
    body ++ word.dropLast <+: body ++ word ++ rest := by
  rw [List.append_assoc, List.prefix_append_right_inj]
  exact (List.dropLast_prefix word).trans (List.prefix_append _ _)

theorem not_infix_upTo {word cs : List Char} (hword : word ≠ [])
    (h : (upTo word cs).closed = true) :
    ¬ word <:+: (upTo word cs).body ++ word.dropLast := by
  fun_induction upTo word cs with
  | case1 => cases h
  | case2 c cs hpre =>
    intro hin
    have hle : word.length ≤ word.length - 1 := by simpa using hin.length_le
    have := List.length_pos_iff.2 hword
    omega
  | case3 c cs hpre ih =>
    rw [Tail.push_closed] at h
    rw [Tail.push_body, List.cons_append, List.infix_cons_iff]
    rintro (hin | hin)
    · have hcs := upTo_append word cs
      have hdrop := append_dropLast_isPrefix (upTo word cs).body word (upTo word cs).rest
      rw [h, ending_true] at hcs
      rw [hcs] at hdrop
      exact hpre (hin.trans ((List.prefix_cons_inj c).2 hdrop))
    · exact ih h hin

theorem not_infix_upTo_of_open {word cs : List Char} (hword : word ≠ [])
    (h : (upTo word cs).closed = false) : ¬ word <:+: (upTo word cs).body := by
  fun_induction upTo word cs with
  | case1 => simpa using hword
  | case2 c cs hpre => cases h
  | case3 c cs hpre ih =>
    rw [Tail.push_closed] at h
    rw [Tail.push_body, List.infix_cons_iff]
    rintro (hin | hin)
    · have hcs := upTo_append word cs
      rw [h, ending_false, List.append_nil, upTo_of_open word cs h, List.append_nil] at hcs
      exact hpre (hcs ▸ hin)
    · exact ih h hin

theorem upTo_of_not_infix {word body : List Char} (hword : word ≠ []) (rest : List Char)
    (h : ¬ word <:+: body ++ word.dropLast) :
    upTo word (body ++ word ++ rest) = ⟨body, true, rest⟩ := by
  induction body with
  | nil =>
    cases word with
    | nil => exact absurd rfl hword
    | cons w ws => simp [upTo]
  | cons c body ih =>
    have hpre : ¬ word <+: c :: (body ++ word ++ rest) := by
      intro hpre
      have hlen : word.length ≤ (c :: body ++ word.dropLast).length := by
        simp only [List.cons_append, List.length_cons, List.length_append, List.length_dropLast]
        omega
      have hdrop := append_dropLast_isPrefix (c :: body) word rest
      exact h (List.prefix_of_prefix_length_le hpre hdrop hlen).isInfix
    have htail : ¬ word <:+: body ++ word.dropLast :=
      fun hin => h (hin.trans (List.suffix_cons _ _).isInfix)
    rw [List.cons_append, List.cons_append, upTo, if_neg hpre, ih htail]
    rfl

theorem upTo_of_not_infix_open {word body : List Char} (h : ¬ word <:+: body) :
    upTo word body = ⟨body, false, []⟩ := by
  induction body with
  | nil => rfl
  | cons c body ih =>
    rw [upTo, if_neg fun hpre => h hpre.isInfix,
      ih fun hin => h (hin.trans (List.suffix_cons _ _).isInfix)]
    rfl

theorem takeWhile_append {p : Char → Bool} {as bs : List Char} (has : ∀ c ∈ as, p c = true)
    (hbs : ∀ c ∈ bs.head?, p c = false) : (as ++ bs).takeWhile p = as := by
  rw [List.takeWhile_append_of_pos has]
  cases bs with
  | nil => simp
  | cons c bs => simp [hbs c rfl]

theorem dropWhile_append {p : Char → Bool} {as bs : List Char} (has : ∀ c ∈ as, p c = true)
    (hbs : ∀ c ∈ bs.head?, p c = false) : (as ++ bs).dropWhile p = bs := by
  rw [List.dropWhile_append_of_pos has]
  cases bs with
  | nil => rfl
  | cons c bs => simp [hbs c rfl]

theorem of_head?_dropWhile {p : Char → Bool} {cs : List Char} {c : Char}
    (h : (cs.dropWhile p).head? = some c) : p c = false := by
  have hnot := List.head?_dropWhile_not p cs
  rwa [h] at hnot

theorem quotedTail_fits (before : Option Char) {quote : Char} (hquote : isQuote quote = true)
    (cs : List Char) :
    Fits before (.quoted quote (quotedTail quote cs).body (quotedTail quote cs).closed)
      (quotedTail quote cs).rest := by
  cases h : (quotedTail quote cs).closed with
  | true => exact .quoted hquote (doubled_quotedTail quote cs) (head_quotedTail quote cs h)
  | false =>
    rw [quotedTail_of_open quote cs h]
    exact .openQuoted hquote (doubled_quotedTail quote cs)

theorem upTo_fits {before : Option Char} {word cs : List Char} {l : List Char → Bool → Lexeme}
    (hword : word ≠ [])
    (hclosed : ∀ body rest, ¬ word <:+: body ++ word.dropLast → Fits before (l body true) rest)
    (hopen : ∀ body, ¬ word <:+: body → Fits before (l body false) []) :
    Fits before (l (upTo word cs).body (upTo word cs).closed) (upTo word cs).rest := by
  cases h : (upTo word cs).closed with
  | true => exact hclosed _ _ (not_infix_upTo hword h)
  | false =>
    rw [upTo_of_open word cs h]
    exact hopen _ (not_infix_upTo_of_open hword h)

end QueryMapping.Sql.Lexeme
