import QueryMapping.Harness.Test
import QueryMapping.Launch.Databases
import QueryMapping.Storage.Handle

/-! The context of one test: the vendor's instance, started if need be, a handle on its database
with the test's script run, and the test's transaction open on it. -/

namespace QueryMapping

/-- What tests are prepared with: a backend, and how databases are opened and closed and scripts are
read. What is outside of the program, such as files, is an `ω`. -/
structure Host (σ ω : Type) where
  backend : PooledBackend σ
  connect : String → ω → Except DatabaseError (DatabaseHandle σ) × ω
  close : DatabaseHandle σ → ω → ω
  script? : String → ω → Option String

structure Fixture (σ : Type) where
  source : Instance
  handle : DatabaseHandle σ
  report : PopulateReport
  label : String

namespace Fixture

variable {σ : Type}

def vendor (f : Fixture σ) : Vendor := f.source.vendor

def display (f : Fixture σ) : String :=
  "TestContext \x7b vendor: " ++ f.vendor.display ++ ", report: " ++ f.report.display ++
    ", tx: " ++ displayTransaction f.label ++ ", .. \x7d"

end Fixture

namespace Host

variable {σ ω : Type} (h : Host σ ω)

def connectTo (i : Instance) (w : ω) : Except LaunchError (DatabaseHandle σ) × ω :=
  match i.source.dsn with
  | .error e => (.error e, w)
  | .ok dsn =>
    let (handle, w) := h.connect dsn w
    (handle.mapError .database, w)

def populator (v : Vendor) (test dir : String) (w : ω) : Except DatabaseError Populator :=
  let settings := ScriptSettings.ofVendor v
  let path := settings.scriptPath dir test
  match h.script? path w with
  | some text => .ok (settings.customize (Populator.empty.addScript path text))
  | none => .error (.file path)

/-- Populates the database of an instance and opens the test's transaction. If that fails, the
handle is closed. -/
def prepareOn (i : Instance) (v : Vendor) (test dir : String) (w : ω) :
    Except LaunchError (Fixture σ) × ω :=
  match h.connectTo i w with
  | (.error e, w) => (.error e, w)
  | (.ok handle, w) =>
    match h.populator v test dir w with
    | .error e => (.error (.database e), h.close handle w)
    | .ok p =>
      let (result, pool) := handle.pool.prepareTest h.backend p test
      let handle := { handle with pool }
      match result with
      | .error e => (.error (.database e), h.close handle w)
      | .ok report => (.ok ⟨i, handle, report, test⟩, w)

def prepare (d : Databases) (v : Vendor) (test dir : String) (w : ω) :
    Except LaunchError (Fixture σ) × Databases × ω :=
  match d.get v with
  | (.error e, d) => (.error e, d, w)
  | (.ok i, d) =>
    let (fixture, w) := h.prepareOn i v test dir w
    (fixture, d, w)

def files : Host Relational.Connection Files where
  backend := Relational.backend
  connect := Handle.connect .standard
  close := Handle.close
  script? path files :=
    match files.read? path with
    | some (.text text) => some text
    | some (.store _) | none => none

end Host

abbrev TestContext := Fixture Relational.Connection

namespace TestContext

def prepare (d : Databases) (v : Vendor) (test dir : String) (files : Files) :
    Except LaunchError TestContext × Databases × Files :=
  Host.files.prepare d v test dir files

end TestContext

end QueryMapping
