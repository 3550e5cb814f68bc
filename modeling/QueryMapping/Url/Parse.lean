import QueryMapping.Url.Basic
import QueryMapping.Url.Path

/-! Reading a URL. Controls and spaces around it are stripped, tabs and newlines are ignored
anywhere. -/

namespace QueryMapping.Url

def isTabOrNewline (c : Char) : Bool := c == '\t' || c == '\n' || c == '\r'

def isControlOrSpace (c : Char) : Bool := c.toNat ≤ 0x20

def significant (cs : List Char) : List Char :=
  let stripped := (cs.dropWhile isControlOrSpace).reverse.dropWhile isControlOrSpace
  stripped.reverse.filter (!isTabOrNewline ·)

def isSchemeChar (c : Char) : Bool := c.isAlphanum || c == '+' || c == '-' || c == '.'

def scheme? (cs : List Char) : Option (List Char × List Char) :=
  if cs.head?.any Char.isAlpha then
    match cs.dropWhile isSchemeChar with
    | ':' :: rest => some ((cs.takeWhile isSchemeChar).map Char.toLower, rest)
    | _ => none
  else none

def cutLast? (mark : Char) (cs : List Char) : Option (List Char × List Char) :=
  match cs.reverse.span (· ≠ mark) with
  | (_, []) => none
  | (after, _ :: before) => some (before.reverse, after.reverse)

def userinfo (cs : List Char) : List Char × List Char :=
  let (user, rest) := cs.span (· ≠ ':')
  (encode inUserinfoSet user, encode inUserinfoSet rest.tail)

/-- A host and what follows it; a colon in brackets does not end it. -/
def spanHost (bracketed : Bool) : List Char → List Char × List Char
  | [] => ([], [])
  | c :: cs =>
    if c = ':' && !bracketed then ([], c :: cs)
    else
      let inside := if c = '[' then true else if c = ']' then false else bracketed
      let (host, rest) := spanHost inside cs
      (c :: host, rest)

/-- A port and what follows it. Leading zeros are dropped and no digits mean no port; a backslash
ends it and belongs to the path. -/
def readPort (cs : List Char) : Except UrlError (Option Nat × List Char) :=
  let (digits, rest) := cs.span Char.isDigit
  let n := digits.foldl (fun n c => n * 10 + (c.toNat - 48)) 0
  if 65535 < n then .error .invalidPort
  else if rest.head?.any (· ≠ '\\') then .error .invalidPort
  else .ok (if digits.isEmpty then none else some n, rest)

def cutUserinfo (cs : List Char) : (List Char × List Char) × List Char :=
  match cutLast? '@' cs with
  | some (before, after) => (userinfo before, after)
  | none => (([], []), cs)

def readAuthority (cs : List Char) : Except UrlError (Authority × List Char) := do
  let ((user, password), hostport) := cutUserinfo cs
  let (host, rest) := spanHost false hostport
  let host ← Host.parse host
  if host = .empty && (rest.head? = some ':' || !user.isEmpty || !password.isEmpty) then
    throw .emptyHost
  match rest with
  | ':' :: rest =>
    let (port, rest) ← readPort rest
    return (⟨user, password, host, port⟩, rest)
  | rest => return (⟨user, password, host, none⟩, rest)

def pathAfterAuthority : List Char → List Char
  | [] => []
  | '/' :: cs => Path.ofText cs
  | cs => Path.ofText cs

/-- A path without an authority: made of segments if it begins with a slash, and opaque
otherwise. -/
def pathAlone : List Char → List Char
  | '/' :: cs => Path.ofText cs
  | cs => encode isControl cs

def queryAndFragment (cs : List Char) : Option (List Char) × Option (List Char) :=
  let (beforeFragment, fragment) := cs.span (· ≠ '#')
  (match beforeFragment with
    | '?' :: query => some (encode inQuerySet query)
    | _ => none,
   match fragment with
    | _ :: fragment => some (encode inFragmentSet fragment)
    | [] => none)

def parseSignificant (cs : List Char) : Except UrlError Url := do
  match scheme? cs with
  | none => throw .relativeWithoutBase
  | some (scheme, rest) =>
    let (hierarchy, ending) := rest.span fun c => c ≠ '?' && c ≠ '#'
    let (query, fragment) := queryAndFragment ending
    match hierarchy with
    | '/' :: '/' :: rest =>
      let (beforePath, path) := rest.span (· ≠ '/')
      -- An at sign with nothing before it wants a host, unless the text ends there.
      if beforePath = ['@'] && !(path.isEmpty && ending.isEmpty) then throw .emptyHost
      let (authority, remaining) ← readAuthority beforePath
      return ⟨scheme, some authority, false, pathAfterAuthority (remaining ++ path),
        query, fragment⟩
    | hierarchy =>
      let path := pathAlone hierarchy
      return ⟨scheme, none, ['/', '/'].isPrefixOf path, path, query, fragment⟩

def parse (text : List Char) : Except UrlError Url := parseSignificant (significant text)

end QueryMapping.Url
