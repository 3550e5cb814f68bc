import QueryMapping.Text.Ascii

/-! The lexical structure of SQL text, as a grammar: quoted tokens, bodies between dollar tags,
comments, casts, named parameters, semicolons, and single characters for all the rest. A lexeme is
described between the character before it and the text after it. -/

namespace QueryMapping.Sql

/-- A lexeme that can lack its end says whether it is closed. -/
inductive Lexeme where
  | quoted (quote : Char) (body : List Char) (closed : Bool)
  | dollarQuoted (tag body : List Char) (closed : Bool)
  /-- A comment from two dashes up to the end of the line, without the newline. -/
  | lineComment (body : List Char)
  | blockComment (body : List Char) (closed : Bool)
  | cast
  | parameter (name : List Char)
  | semicolon
  | char (c : Char)
deriving DecidableEq, Repr

namespace Lexeme

def isQuote (c : Char) : Bool := c == '\'' || c == '"' || c == '\x60'

def delimiter (tag : List Char) : List Char := '$' :: tag ++ ['$']

def ending (closed : Bool) (mark : List Char) : List Char := if closed then mark else []

@[simp]
theorem ending_true (mark : List Char) : ending true mark = mark := rfl

@[simp]
theorem ending_false (mark : List Char) : ending false mark = [] := rfl

def chars : Lexeme → List Char
  | .quoted quote body closed => quote :: body ++ ending closed [quote]
  | .dollarQuoted tag body closed => delimiter tag ++ body ++ ending closed (delimiter tag)
  | .lineComment body => '-' :: '-' :: body
  | .blockComment body closed => '/' :: '*' :: body ++ ending closed ['*', '/']
  | .cast => [':', ':']
  | .parameter name => ':' :: name
  | .semicolon => [';']
  | .char c => [c]

inductive Doubled (quote : Char) : List Char → Prop
  | nil : Doubled quote []
  | other {c : Char} {cs : List Char} (hc : c ≠ quote) (hcs : Doubled quote cs) :
    Doubled quote (c :: cs)
  | pair {cs : List Char} (hcs : Doubled quote cs) : Doubled quote (quote :: quote :: cs)

/-- A dollar sign can open a tag unless it stands in a name or after another dollar sign. -/
def MayOpenTag (before : Option Char) : Prop :=
  ∀ c ∈ before, Text.isNameChar c = false ∧ c ≠ '$'

structure IsTag (tag : List Char) : Prop where
  isNameChar : ∀ c ∈ tag, Text.isNameChar c = true
  head : ∀ c ∈ tag.head?, c.isDigit = false

/-- A character that begins no longer lexeme. -/
structure IsPlain (before : Option Char) (c : Char) (rest : List Char) : Prop where
  quote : isQuote c = false
  semicolon : c ≠ ';'
  dash : c = '-' → rest.head? ≠ some '-'
  slash : c = '/' → rest.head? ≠ some '*'
  dollar : c = '$' → MayOpenTag before → ∀ tag after, IsTag tag → rest ≠ tag ++ '$' :: after
  colon : c = ':' → ∀ d ∈ rest.head?, d ≠ ':' ∧ Text.isNameStart d = false

/-- A lexeme stands between the character `before` and the text `rest`. Bodies end at the first
possible place; names are as long as possible; what is not closed runs to the end of the text. -/
inductive Fits (before : Option Char) : Lexeme → List Char → Prop
  | quoted {quote : Char} {body rest : List Char} (hquote : isQuote quote = true)
      (hbody : Doubled quote body) (hrest : rest.head? ≠ some quote) :
    Fits before (.quoted quote body true) rest
  | openQuoted {quote : Char} {body : List Char} (hquote : isQuote quote = true)
      (hbody : Doubled quote body) : Fits before (.quoted quote body false) []
  | dollarQuoted {tag body rest : List Char} (hbefore : MayOpenTag before) (htag : IsTag tag)
      (hbody : ¬ delimiter tag <:+: body ++ (delimiter tag).dropLast) :
    Fits before (.dollarQuoted tag body true) rest
  | openDollarQuoted {tag body : List Char} (hbefore : MayOpenTag before) (htag : IsTag tag)
      (hbody : ¬ delimiter tag <:+: body) : Fits before (.dollarQuoted tag body false) []
  | lineComment {body rest : List Char} (hbody : '\n' ∉ body)
      (hrest : ∀ c ∈ rest.head?, c = '\n') : Fits before (.lineComment body) rest
  | blockComment {body rest : List Char} (hbody : ¬ ['*', '/'] <:+: body ++ ['*']) :
    Fits before (.blockComment body true) rest
  | openBlockComment {body : List Char} (hbody : ¬ ['*', '/'] <:+: body) :
    Fits before (.blockComment body false) []
  | cast {rest : List Char} : Fits before .cast rest
  | parameter {name rest : List Char} (hhead : ∃ c ∈ name.head?, Text.isNameStart c = true)
      (hname : ∀ c ∈ name, Text.isNameChar c = true)
      (hrest : ∀ c ∈ rest.head?, Text.isNameChar c = false) : Fits before (.parameter name) rest
  | semicolon {rest : List Char} : Fits before .semicolon rest
  | char {c : Char} {rest : List Char} (hc : IsPlain before c rest) : Fits before (.char c) rest

theorem chars_ne_nil (l : Lexeme) : l.chars ≠ [] := by
  cases l <;> simp [chars, delimiter]

theorem getLast?_append_chars (cs : List Char) (l : Lexeme) :
    (cs ++ l.chars).getLast? = l.chars.getLast? := by
  rw [List.getLast?_append, List.getLast?_eq_some_getLast l.chars_ne_nil, Option.some_or]

end Lexeme

inductive Lexed : Option Char → List Char → List Lexeme → Prop
  | nil {before : Option Char} : Lexed before [] []
  | cons {before : Option Char} {l : Lexeme} {rest : List Char} {ls : List Lexeme}
      (hl : l.Fits before rest) (hls : Lexed l.chars.getLast? rest ls) :
    Lexed before (l.chars ++ rest) (l :: ls)

theorem Lexed.chars_eq {before : Option Char} {text : List Char} {ls : List Lexeme}
    (h : Lexed before text ls) : ls.flatMap Lexeme.chars = text := by
  induction h with
  | nil => rfl
  | cons _ _ ih => rw [List.flatMap_cons, ih]

end QueryMapping.Sql
