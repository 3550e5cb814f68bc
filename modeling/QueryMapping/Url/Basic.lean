import QueryMapping.Url.Host

/-! URLs of schemes without rules of their own. Every part is held as it is written, that is
encoded, except the host, which is held as what it names. -/

namespace QueryMapping

namespace Url

/-- User, password, host and port. An empty password is the same as none. -/
structure Authority where
  username : List Char
  password : List Char
  host : Host
  port : Option Nat
deriving DecidableEq, Repr

end Url

structure Url where
  scheme : List Char
  authority : Option Url.Authority
  /-- Whether a dot segment, which is no part of the path, is written before it. A URL without an
  authority is read so if its path would otherwise be taken for one. -/
  setOff : Bool
  path : List Char
  query : Option (List Char)
  fragment : Option (List Char)
deriving DecidableEq, Repr

namespace Url

namespace Authority

def write (a : Authority) : List Char :=
  let password := if a.password.isEmpty then [] else ':' :: a.password
  let userinfo := a.username ++ password
  let port := a.port.elim [] fun p => ':' :: (toString p).toList
  (if userinfo.isEmpty then [] else userinfo ++ ['@']) ++ a.host.write ++ port

end Authority

/-- A path that does not begin with a slash, without an authority, is opaque: it is not made of
segments, and no other path can be resolved against it. -/
def isOpaque (u : Url) : Bool := u.authority.isNone && !u.setOff && u.path.head? != some '/'

/-- Whether a host is named. Without one there can be no user, password or port to set. -/
def hasHost (u : Url) : Bool := u.authority.any fun a => a.host ≠ .empty

def write (u : Url) : List Char :=
  u.scheme ++ ':' :: u.authority.elim [] (fun a => '/' :: '/' :: a.write) ++
    (if u.setOff then ['/', '.'] else []) ++ u.path ++
    u.query.elim [] ('?' :: ·) ++ u.fragment.elim [] ('#' :: ·)

def password? (u : Url) : Option (List Char) :=
  u.authority.bind fun a => if a.password.isEmpty then none else some a.password

end Url

end QueryMapping
