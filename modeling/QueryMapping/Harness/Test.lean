import QueryMapping.Database.Pool
import QueryMapping.Database.Populate

/-! The frame of one test on a database: scripts run outside of any transaction, and the test itself
runs inside one that is given up when it ends. -/

namespace QueryMapping

variable {σ : Type}

def Pool.prepareTest (b : PooledBackend σ) (p : Populator) (label : String) (pool : Pool σ) :
    Except DatabaseError PopulateReport × Pool σ :=
  match pool.use b (p.populate b.inSession) with
  | (.ok report, pool) => (.ok report, pool.start b (some label))
  | (.error e, pool) => (.error e, pool)

end QueryMapping
