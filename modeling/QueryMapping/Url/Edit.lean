import QueryMapping.Url.Parse

/-! Changing parts of a URL. -/

namespace QueryMapping.Url

/-- An address in brackets is taken whole; any other host ends at its first colon. -/
def hostPart? (cs : List Char) : Option (List Char) :=
  if cs.head? = some '[' && cs.getLast? = some ']' then some cs
  else if cs.head? = some ':' then none
  else some (cs.takeWhile (· ≠ ':'))

/-- Names the host. An empty host is allowed, and leaves user, password and port as they are. -/
def setHost (u : Url) (cs : List Char) : Except UrlError Url :=
  if u.isOpaque then .error .hostOnOpaquePath
  else
    match hostPart? cs with
    | none => .error .invalidDomainCharacter
    | some part => do
      let host ← Host.parse part
      let authority :=
        match u.authority with
        | some a => { a with host }
        | none => ⟨[], [], host, none⟩
      return { u with authority := some authority }

def modifyAuthority? (u : Url) (f : Authority → Authority) : Option Url :=
  if u.hasHost then some { u with authority := u.authority.map f } else none

/-- A new port is followed by the path at once, without the segment that set it off. -/
def setPort? (u : Url) (port : Nat) : Option Url :=
  let isNew := u.authority.bind (·.port) ≠ some port
  { u with setOff := u.setOff && !isNew }.modifyAuthority? fun a => { a with port := some port }

def setUsername? (u : Url) (cs : List Char) : Option Url :=
  u.modifyAuthority? fun a => { a with username := encode inUserinfoSet cs }

def setPassword? (u : Url) (cs : List Char) : Option Url :=
  u.modifyAuthority? fun a => { a with password := encode inUserinfoSet cs }

/-- Replaces the path by a slash and the text, after the segment that sets it off if there is one.
An opaque path stays opaque, so its slash is encoded. -/
def setPath (u : Url) (cs : List Char) : Url :=
  let cs := cs.filter (!isTabOrNewline ·)
  if u.isOpaque then { u with path := ['%', '2', 'F'] ++ encode isControl cs }
  else { u with path := Path.ofText cs }

def formPair (pair : List Char × List Char) : List Char :=
  encodeForm pair.1 ++ '=' :: encodeForm pair.2

/-- Appends a pair to the query; the first pair of a query has no separator before it. -/
def appendPair (u : Url) (pair : List Char × List Char) : Url :=
  match u.query with
  | none | some [] => { u with query := some (formPair pair) }
  | some query => { u with query := some (query ++ '&' :: formPair pair) }

end QueryMapping.Url
