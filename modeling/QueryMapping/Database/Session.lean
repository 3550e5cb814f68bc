import QueryMapping.Database.Backend
import QueryMapping.Text.Quoted

/-! Sessions on a database. Statements take effect at once outside a transaction, and inside one
only on its own state, which a commit makes the database's and a rollback gives up. -/

namespace QueryMapping

structure OpenTransaction (σ : Type) where
  state : σ
  /-- The label of a test's transaction, which is never committed. -/
  label : Option String

structure Session (σ : Type) where
  base : σ
  transaction : Option (OpenTransaction σ)

namespace Session

variable {σ : Type}

def ofState (s : σ) : Session σ := ⟨s, none⟩

def inTransaction (s : Session σ) : Bool := s.transaction.isSome

def current (s : Session σ) : σ := s.transaction.elim s.base (·.state)

def setCurrent (s : Session σ) (state : σ) : Session σ :=
  match s.transaction with
  | none => { s with base := state }
  | some t => { s with transaction := some { t with state := state } }

def start (s : Session σ) (label : Option String) : Session σ :=
  { s with transaction := some ⟨s.base, label⟩ }

def commit? (s : Session σ) : Option (Session σ) :=
  match s.transaction with
  | some ⟨state, none⟩ => some ⟨state, none⟩
  | _ => none

def rollback (b : TransactionalBackend σ) (s : Session σ) : Session σ :=
  match s.transaction with
  | none => s
  | some t => ⟨b.undone s.base t.state, none⟩

end Session

namespace Backend

variable {σ : Type}

def inSession (b : Backend σ) : Backend (Session σ) where
  engine := b.engine
  run s sql arguments :=
    let (answer, state) := b.run s.current sql arguments
    (answer, s.setCurrent state)
  runText s sql :=
    let (answer, state) := b.runText s.current sql
    (answer, s.setCurrent state)

end Backend

def displayTransaction (label : String) : String :=
  "TestTransaction \x7b label: " ++ Text.quoted label ++ ", .. \x7d"

end QueryMapping
