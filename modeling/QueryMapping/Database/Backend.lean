import QueryMapping.Cursor
import QueryMapping.Database.Argument
import QueryMapping.Database.Error
import QueryMapping.Sql.Engine

/-! What the library needs of a database: to run one statement with values, and to run a text of
statements as it is. A backend is given by what these do to its state. -/

namespace QueryMapping

structure Answer where
  cursor : Cursor
  affected : Nat

structure Backend (σ : Type) where
  engine : Engine
  run : σ → String → List Argument → Except BackendError Answer × σ
  runText : σ → String → Except BackendError Nat × σ

structure TransactionalBackend (σ : Type) extends Backend σ where
  /-- The state after a transaction is given up that began in one state and came to another. -/
  undone : σ → σ → σ

structure PooledBackend (σ : Type) extends TransactionalBackend σ where
  opened : σ → σ
  /-- A connection after the last use of another one. -/
  joined : (own last : σ) → σ
  lost? : σ → Option BackendError

end QueryMapping
