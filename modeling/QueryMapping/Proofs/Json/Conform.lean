import QueryMapping.Json.Holder
import QueryMapping.Proofs.Json.Grammar
import QueryMapping.Proofs.Json.Scan

/-! The check of a document's form, and the grammar of RFC 8259. What the check accepts is spelt by
the grammar, as its tokens are, with blanks between them; and what the grammar spells is cut into
the tokens of a document, whatever follows it, as long as that does not carry on a number. -/

namespace QueryMapping.Json

open Grammar

namespace Grammar

variable {ws cs text front back rest : List Char} {t : Token} {us vs ts : List Token}

theorem IsBlank.append (h : IsBlank ws) (h' : IsBlank cs) : IsBlank (ws ++ cs) := fun c hc =>
  (List.mem_append.1 hc).elim (h c) (h' c)

theorem isSpace_iff {c : Char} : isSpace c = true ↔ c = ' ' ∨ c = '\t' ∨ c = '\n' ∨ c = '\r' := by
  simp [isSpace, or_assoc]

/-! ### Tokens and the blanks between them -/

inductive Spelt : List Token → List Char → Prop where
  | nil {ws : List Char} (h : IsBlank ws) : Spelt [] ws
  | cons {t : Token} {ts : List Token} {ws text rest : List Char} (hws : IsBlank ws)
    (ht : Written t text) (h : Spelt ts rest) : Spelt (t :: ts) (ws ++ text ++ rest)

namespace Spelt

theorem blank (h : Spelt [] cs) : IsBlank cs := by
  cases h with
  | nil h => exact h

theorem exists_cons (h : Spelt (t :: ts) cs) :
    ∃ ws text rest, cs = ws ++ text ++ rest ∧ IsBlank ws ∧
    Written t text ∧ Spelt ts rest := by
  cases h with
  | cons hws ht h => exact ⟨_, _, _, rfl, hws, ht, h⟩

theorem after_blank (h : Spelt ts cs) (hws : IsBlank ws) : Spelt ts (ws ++ cs) := by
  cases h with
  | nil h => exact .nil (hws.append h)
  | cons hws' ht h =>
    rw [← List.append_assoc, ← List.append_assoc]
    exact .cons (hws.append hws') ht h

theorem split (h : Spelt (us ++ t :: vs) cs) : ∃ front text back, cs = front ++ text ++ back ∧
    Spelt us front ∧ Written t text ∧ Spelt vs back := by
  induction us generalizing cs with
  | nil =>
    obtain ⟨ws, text, rest, rfl, hws, ht, h⟩ := h.exists_cons
    exact ⟨ws, text, rest, rfl, .nil hws, ht, h⟩
  | cons u us ih =>
    obtain ⟨ws, utext, rest, rfl, hws, hu, h⟩ := h.exists_cons
    obtain ⟨front, text, back, rfl, hfront, ht, hback⟩ := ih h
    exact ⟨ws ++ utext ++ front, text, back, by simp, .cons hws hu hfront, ht, hback⟩

theorem enclosed {t' : Token} (h : Spelt (t :: us ++ [t']) cs) : ∃ before text inner text' after,
    cs = before ++ (text ++ inner ++ text') ++ after ∧ IsBlank before ∧ Written t text ∧
      Spelt us inner ∧ Written t' text' ∧ IsBlank after := by
  obtain ⟨before, text, rest, rfl, hbefore, ht, h⟩ := h.exists_cons
  obtain ⟨inner, text', after, rfl, hinner, ht', h⟩ := h.split
  exact ⟨before, text, inner, text', after, by simp, hbefore, ht, hinner, ht', h.blank⟩

theorem element (h : Spelt [t] cs) (ht : ∀ text, Written t text → Spells .value text) :
    Spells .element cs := by
  obtain ⟨before, text, after, rfl, hbefore, htext, hafter⟩ := h.exists_cons
  exact .element hbefore (ht text htext) hafter.blank

theorem isKey {parts : List StringPart} (h : Spelt [.string parts] cs) : IsKey cs := by
  obtain ⟨before, text, after, rfl, hbefore, ⟨key, hkey, rfl⟩, hafter⟩ := h.exists_cons
  exact ⟨before, key, after, hbefore, hkey, hafter.blank, rfl⟩

end Spelt

theorem spelt_of_tokens? (h : tokens? cs = some ts) : Spelt ts cs := by
  fun_induction tokens? cs generalizing ts with
  | case1 =>
    cases h
    exact .nil (List.forall_mem_nil _)
  | case2 c cs hspace ih =>
    have hblank : IsBlank [c] := List.forall_mem_singleton.2 (isSpace_iff.1 hspace)
    exact (ih h).after_blank hblank
  | case3 c cs hspace htoken => cases h
  | case4 c cs hspace t rest htoken ih =>
    obtain ⟨us, hus, rfl⟩ := Option.map_eq_some_iff.1 h
    obtain ⟨text, heq, htext⟩ := token?_take htoken
    have hnone : IsBlank [] := List.forall_mem_nil _
    rw [heq]
    exact .cons hnone htext (ih hus)

end Grammar

def Phrase.rule : Phrase → Rule
  | value => .element
  | items => .elements
  | members => .members

theorem Derives.spells {p : Phrase} {ts : List Token} (h : Derives p ts) {cs : List Char}
    (hs : Spelt ts cs) : Spells p.rule cs := by
  induction h generalizing cs with
  | null => exact hs.element fun text htext => (show text = _ from htext) ▸ .null
  | bool b => exact hs.element fun text htext => (show text = _ from htext) ▸ .bool b
  | number n => exact hs.element fun text htext => .number htext
  | string parts =>
    refine hs.element fun text htext => ?_
    obtain ⟨inside, hinside, rfl⟩ := htext
    exact .string hinside
  | emptyArray =>
    have hs : Spelt (.openArray :: [] ++ [.closeArray]) cs := hs
    obtain ⟨before, _, inner, _, after, rfl, hbefore, rfl, hinner, rfl, hafter⟩ := hs.enclosed
    exact .element hbefore (.emptyArray hinner.blank) hafter
  | array h ih =>
    obtain ⟨before, _, inner, _, after, rfl, hbefore, rfl, hinner, rfl, hafter⟩ := hs.enclosed
    exact .element hbefore (.array (ih hinner)) hafter
  | emptyObject =>
    have hs : Spelt (.openObject :: [] ++ [.closeObject]) cs := hs
    obtain ⟨before, _, inner, _, after, rfl, hbefore, rfl, hinner, rfl, hafter⟩ := hs.enclosed
    exact .element hbefore (.emptyObject hinner.blank) hafter
  | object h ih =>
    obtain ⟨before, _, inner, _, after, rfl, hbefore, rfl, hinner, rfl, hafter⟩ := hs.enclosed
    exact .element hbefore (.object (ih hinner)) hafter
  | item h ih => exact .item (ih hs)
  | nextItem h hv ih ihv =>
    obtain ⟨front, _, back, rfl, hfront, rfl, hback⟩ := hs.split
    rw [List.append_assoc]
    exact .nextItem (ih hfront) (ihv hback)
  | @pair v key h ih =>
    have hs : Spelt ([.string key] ++ .colon :: v) cs := hs
    obtain ⟨front, _, back, rfl, hfront, rfl, hback⟩ := hs.split
    rw [List.append_assoc]
    exact .pair hfront.isKey (ih hback)
  | @nextPair us v key h hv ih ihv =>
    obtain ⟨front, _, back, rfl, hfront, rfl, hback⟩ := hs.split
    have hpair : Spelt ([.string key] ++ .colon :: v) back := hback
    obtain ⟨keyText, _, value, rfl, hkey, rfl, hvalue⟩ := hpair.split
    rw [List.append_assoc, List.append_assoc]
    exact .nextPair (ih hfront) hkey.isKey (ihv hvalue)

namespace Grammar

variable {ws cs text front back rest : List Char} {t : Token} {us vs ts : List Token}

/-! ### The tokens of what the grammar spells -/

theorem tokens?_blank (h : IsBlank ws) (rest : List Char) :
    tokens? (ws ++ rest) = tokens? rest := by
  induction ws with
  | nil => rfl
  | cons c ws ih =>
    obtain ⟨hc, hws⟩ := List.forall_mem_cons.1 h
    rw [List.cons_append, tokens?, if_pos (isSpace_iff.2 hc), ih hws]

theorem not_isSpace_of_token? {c : Char} {r : Token × List Char} (h : token? (c :: cs) = some r) :
    isSpace c = false := by
  refine Bool.eq_false_iff.2 fun hspace => ?_
  rcases isSpace_iff.1 hspace with rfl | rfl | rfl | rfl <;> cases h

theorem tokens?_of_token? (h : token? cs = some (t, rest)) :
    tokens? cs = (tokens? rest).map (t :: ·) := by
  cases cs with
  | nil => cases h
  | cons c cs =>
    rw [tokens?, if_neg (by rw [not_isSpace_of_token? h]; exact Bool.false_ne_true)]
    split
    · next hnone => cases hnone.symm.trans h
    · next hsome =>
      obtain ⟨rfl, rfl⟩ := Prod.mk.inj (Option.some.inj (hsome.symm.trans h))
      rfl

def Lexes (ts : List Token) (cs : List Char) : Prop :=
  ∀ rest, Bounded rest → tokens? (cs ++ rest) = (tokens? rest).map (ts ++ ·)

def Ends (cs : List Char) : Prop := ∀ rest, Bounded rest → Bounded (cs ++ rest)

theorem ends_cons {c : Char} (hc : c.isDigit = false ∧ c ≠ '.' ∧ c ≠ 'e' ∧ c ≠ 'E')
    (cs : List Char) :
    Ends (c :: cs) := fun _ _ _ hd => Option.some.inj hd ▸ hc

theorem IsBlank.ends (h : IsBlank ws) : Ends ws := by
  cases ws with
  | nil => exact fun rest hrest => hrest
  | cons c ws =>
    refine ends_cons ?_ ws
    rcases h c (.head _) with rfl | rfl | rfl | rfl <;> decide

namespace Lexes

theorem blank (h : IsBlank ws) : Lexes [] ws := fun rest _ => by
  rw [tokens?_blank h]
  exact (Option.map_id' ..).symm

theorem after_blank (hws : IsBlank ws) (h : Lexes ts cs) :
    Lexes ts (ws ++ cs) := fun rest hrest => by
  rw [List.append_assoc, tokens?_blank hws, h rest hrest]

theorem single (h : ∀ rest, Bounded rest → token? (cs ++ rest) = some (t, rest)) : Lexes [t] cs :=
  fun rest hrest => tokens?_of_token? (h rest hrest)

theorem append (h : Lexes us front) (h' : Lexes vs back) (hends : Ends back) :
    Lexes (us ++ vs) (front ++ back) := fun rest hrest => by
  rw [List.append_assoc, h _ (hends rest hrest), h' rest hrest, Option.map_map]
  exact congrArg (Option.map · _) (funext fun ts => (List.append_assoc us vs ts).symm)

theorem cons {c : Char} (hc : ∀ rest, token? (c :: rest) = some (t, rest)) (h : Lexes ts cs) :
    Lexes (t :: ts) (c :: cs) := fun rest hrest => by
  rw [List.cons_append, tokens?_of_token? (hc _), h rest hrest, Option.map_map]
  rfl

theorem enclosed {c c' : Char} {t' : Token} (hc : ∀ rest, token? (c :: rest) = some (t, rest))
    (hc' : ∀ rest, token? (c' :: rest) = some (t', rest)) (hends : Ends [c']) (h : Lexes us cs) :
    Lexes (t :: us ++ [t']) (c :: cs ++ [c']) :=
  cons hc (h.append (single fun rest _ => hc' rest) hends)

theorem string {inside : List Char} (h : Inside inside) :
    ∃ parts, Lexes [.string parts] ('"' :: inside ++ ['"']) := by
  obtain ⟨parts, hparts⟩ := h.exists_stringParts
  refine ⟨parts, single fun rest _ => ?_⟩
  rw [List.append_assoc]
  exact congrArg (Option.map _) (hparts rest)

theorem key {ks : List Char} (h : IsKey ks) : ∃ parts, Lexes [.string parts] ks := by
  obtain ⟨before, inside, after, hbefore, hinside, hafter, rfl⟩ := h
  obtain ⟨parts, hparts⟩ := string hinside
  exact ⟨parts, (hparts.after_blank hbefore).append (blank hafter) hafter.ends⟩

theorem pair {parts : List StringPart} {ks : List Char} (hk : Lexes [.string parts] ks)
    (hv : Lexes vs back) : Lexes (.string parts :: .colon :: vs) (ks ++ ':' :: back) :=
  hk.append (cons (fun _ => rfl) hv) (ends_cons (by decide) _)

end Lexes

def Rule.phrase : Rule → Phrase
  | .value | .element => .value
  | .elements => .items
  | .members => .members

theorem Spells.exists_derives {r : Rule} (h : Spells r cs) :
    ∃ ts, Derives r.phrase ts ∧ Lexes ts cs := by
  induction h with
  | null => exact ⟨_, .null, .single fun _ _ => rfl⟩
  | bool b => exact ⟨_, .bool b, .single fun _ _ => by cases b <;> rfl⟩
  | number h =>
    obtain ⟨n, hn⟩ := h.exists_token?
    exact ⟨_, .number n, .single hn⟩
  | string h =>
    obtain ⟨parts, hparts⟩ := Lexes.string h
    exact ⟨_, .string parts, hparts⟩
  | emptyArray h =>
    exact ⟨_, .emptyArray,
      .enclosed (fun _ => rfl) (fun _ => rfl) (ends_cons (by decide) _) (.blank h)⟩
  | array h ih =>
    obtain ⟨ts, hts, hlexes⟩ := ih
    exact ⟨_, .array hts, hlexes.enclosed (fun _ => rfl) (fun _ => rfl) (ends_cons (by decide) _)⟩
  | emptyObject h =>
    exact ⟨_, .emptyObject,
      .enclosed (fun _ => rfl) (fun _ => rfl) (ends_cons (by decide) _) (.blank h)⟩
  | object h ih =>
    obtain ⟨ts, hts, hlexes⟩ := ih
    exact ⟨_, .object hts, hlexes.enclosed (fun _ => rfl) (fun _ => rfl) (ends_cons (by decide) _)⟩
  | element hbefore h hafter ih =>
    obtain ⟨ts, hts, hlexes⟩ := ih
    have happend := (hlexes.after_blank hbefore).append (.blank hafter) hafter.ends
    rw [List.append_nil] at happend
    exact ⟨ts, hts, happend⟩
  | item h ih =>
    obtain ⟨ts, hts, hlexes⟩ := ih
    exact ⟨ts, .item hts, hlexes⟩
  | nextItem h hv ih ihv =>
    obtain ⟨us, hus, hlexes⟩ := ih
    obtain ⟨vs, hvs, hlexes'⟩ := ihv
    exact ⟨_, .nextItem hus hvs,
      hlexes.append (.cons (fun _ => rfl) hlexes') (ends_cons (by decide) _)⟩
  | pair hk hv ihv =>
    obtain ⟨parts, hparts⟩ := Lexes.key hk
    obtain ⟨vs, hvs, hlexes⟩ := ihv
    exact ⟨_, .pair parts hvs, hparts.pair hlexes⟩
  | nextPair h hk hv ih ihv =>
    obtain ⟨us, hus, hlexes⟩ := ih
    obtain ⟨parts, hparts⟩ := Lexes.key hk
    obtain ⟨vs, hvs, hlexes'⟩ := ihv
    exact ⟨_, .nextPair parts hus hvs,
      hlexes.append (.cons (fun _ => rfl) (hparts.pair hlexes')) (ends_cons (by decide) _)⟩

end Grammar

/-- The texts that the grammar of RFC 8259 spells. -/
def IsDocument (text : String) : Prop := Spells .element text.toList

theorem isValid_iff_isDocument {text : String} : isValid text = true ↔ IsDocument text := by
  rw [isValid_iff]
  constructor
  · rintro ⟨ts, hts, hderives⟩
    exact hderives.spells (spelt_of_tokens? hts)
  · intro h
    obtain ⟨ts, hts, hlexes⟩ := h.exists_derives
    refine ⟨ts, ?_, hts⟩
    have hall := hlexes [] nofun
    rwa [List.append_nil, tokens?, Option.map_some, List.append_nil] at hall

end QueryMapping.Json

namespace QueryMapping

/-- A library that keeps to the grammar: its check accepts what the grammar spells and nothing else,
and what it reads is spelt by the grammar, whatever else it asks of a document. -/
structure JsonLibrary.Conforms {D : Type} (l : JsonLibrary D) : Prop where
  isValid_iff : ∀ text, l.isValid text = true ↔ Json.IsDocument text
  isDocument_of_parse? : ∀ text document, l.parse? text = some document → Json.IsDocument text

end QueryMapping
