import QueryMapping.Database.Session

/-! Pools of connections to one database. Whoever takes a connection gets the one that has not been
used for the longest time, or a new one if all are in use and there may be more. A connection that
is given back is on its way until the next is taken, so that it does not count as one that is free;
only where there may be no other is it waited for. -/

namespace QueryMapping

structure Pool (σ : Type) where
  session : Session σ
  /-- How many connections have been opened before they were needed. These are taken first. -/
  unused : Nat
  /-- The connections that are free, the one that has been for the longest time first. -/
  idle : List σ
  limit : Nat
  isShortLived : Bool

namespace Pool

variable {σ α : Type}

def ofState (s : σ) (opened limit : Nat) (isShortLived : Bool) : Pool σ :=
  ⟨.ofState s, min opened limit - 1, [], limit, isShortLived⟩

/-- Takes a connection. Inside a transaction it is the transaction's. -/
def take (b : PooledBackend σ) (p : Pool σ) : Pool σ :=
  let last := p.session.base
  if p.session.inTransaction then p
  else
    match p.unused, p.idle with
    | n + 1, idle =>
      { p with session := .ofState (b.opened last), unused := n, idle := idle ++ [last] }
    | 0, c :: idle => { p with session := .ofState (b.joined c last), idle := idle ++ [last] }
    | 0, [] =>
      if 1 < p.limit then { p with session := .ofState (b.opened last), idle := [last] } else p

/-- Gives the connection back, unless a transaction is open on it. In the place of one that is
closed there is a new one. -/
def giveBack (b : PooledBackend σ) (p : Pool σ) : Pool σ :=
  let last := p.session.base
  if p.session.inTransaction then p
  else if p.isShortLived || (b.lost? last).isSome then
    { p with session := .ofState (b.opened last) }
  else p

def use (b : PooledBackend σ) (task : Session σ → α × Session σ) (p : Pool σ) : α × Pool σ :=
  let p := p.take b
  let (a, session) := task p.session
  (a, giveBack b { p with session })

def start (b : PooledBackend σ) (label : Option String) (p : Pool σ) : Pool σ :=
  let p := p.take b
  { p with session := p.session.start label }

def ending (b : PooledBackend σ) (p : Pool σ) : Except BackendError Unit :=
  (b.lost? p.session.current).elim (.ok ()) .error

def rollback? (b : PooledBackend σ) (p : Pool σ) : Option (Except BackendError Unit × Pool σ) :=
  if p.session.inTransaction then
    some (p.ending b, giveBack b { p with session := p.session.rollback b.toTransactionalBackend })
  else none

/-- Commits the open transaction; absent if there is none or it is a test's. What a lost connection
has done is given up. -/
def commit? (b : PooledBackend σ) (p : Pool σ) : Option (Except BackendError Unit × Pool σ) := do
  let session ← p.session.commit?
  match p.ending b with
  | .ok () => return (.ok (), giveBack b { p with session })
  | .error e =>
    let session := p.session.rollback b.toTransactionalBackend
    return (.error e, giveBack b { p with session })

end Pool

end QueryMapping
