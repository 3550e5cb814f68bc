import QueryMapping.Database.Backend

/-! Backends that keep a record of what they are sent, so that it can be said what a task sends and
what it leaves unsent. The record changes nothing else. -/

namespace QueryMapping

inductive Sent where
  | statement (sql : String) (arguments : List Argument)
  | text (sql : String)
deriving DecidableEq, Repr

namespace Backend

variable {σ : Type}

/-- The backend with a record beside its state, the last to be sent at the end. -/
def recorded (b : Backend σ) : Backend (σ × List Sent) where
  engine := b.engine
  run s sql arguments :=
    ((b.run s.1 sql arguments).1, (b.run s.1 sql arguments).2, s.2 ++ [.statement sql arguments])
  runText s sql := ((b.runText s.1 sql).1, (b.runText s.1 sql).2, s.2 ++ [.text sql])

end Backend

end QueryMapping
