import QueryMapping.Database.Backend
import QueryMapping.Sql.Statement

/-! Populating a database from scripts, statement by statement. A failing statement ends it unless
it is tolerated. -/

namespace QueryMapping

structure Script where
  name : String
  text : String
deriving DecidableEq, Repr

structure PopulateReport where
  executed : Nat
  ignored : Nat
deriving DecidableEq, Repr

namespace PopulateReport

def zero : PopulateReport := ⟨0, 0⟩

def display (r : PopulateReport) : String :=
  "PopulateReport \x7b executed: " ++ toString r.executed ++ ", ignored: " ++
    toString r.ignored ++ " \x7d"

end PopulateReport

structure Populator where
  scripts : List Script
  ignoreFailedDrops : Bool
  continueOnError : Bool
deriving DecidableEq, Repr

namespace Populator

def empty : Populator := ⟨[], false, false⟩

def addScript (p : Populator) (name text : String) : Populator :=
  { p with scripts := p.scripts ++ [⟨name, text⟩] }

def tolerates (p : Populator) (statement : String) : Bool :=
  p.continueOnError || (p.ignoreFailedDrops && Sql.isDrop statement)

def numbered (script : Script) : List (Nat × String) :=
  (Sql.statements script.text).zipIdx 1 |>.map Prod.swap

variable {σ : Type}

def runStatements (p : Populator) (b : Backend σ) (report : PopulateReport) :
    List (Nat × String) → σ → Except DatabaseError PopulateReport × σ
  | [], s => (.ok report, s)
  | (index, statement) :: rest, s =>
    match b.runText s statement with
    | (.ok _, s') => runStatements p b { report with executed := report.executed + 1 } rest s'
    | (.error e, s') =>
      if p.tolerates statement then
        runStatements p b { report with ignored := report.ignored + 1 } rest s'
      else (.error (.script index statement e), s')

/-- Runs every statement of every script in order, up to the first failure not tolerated. -/
def populate (p : Populator) (b : Backend σ) (s : σ) : Except DatabaseError PopulateReport × σ :=
  p.runStatements b .zero (p.scripts.flatMap numbered) s

end Populator

end QueryMapping
