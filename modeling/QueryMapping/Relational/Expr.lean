import QueryMapping.Relational.Datum

/-! Expressions over the names of columns, and their values. A comparison adapts its operands to the
column that it compares. -/

namespace QueryMapping.Relational

inductive Comparison where
  | eq
  | ne
  | lt
  | le
  | gt
  | ge
deriving DecidableEq, Repr

namespace Comparison

def holds : Comparison → Ordering → Bool
  | .eq, o => o == .eq
  | .ne, o => o != .eq
  | .lt, o => o == .lt
  | .le, o => o != .gt
  | .gt, o => o == .gt
  | .ge, o => o != .lt

def flipped : Comparison → Comparison
  | .eq => .eq
  | .ne => .ne
  | .lt => .gt
  | .le => .ge
  | .gt => .lt
  | .ge => .le

end Comparison

inductive Expr (ν : Type) where
  | name (n : ν)
  | parameter (index : Nat)
  | constant (d : Datum)
  | comparison (c : Comparison) (left right : Expr ν)
  | isNull (e : Expr ν)
  | notNull (e : Expr ν)
  | not (e : Expr ν)
  | and (left right : Expr ν)
  | or (left right : Expr ν)
  | countRows
  | count (e : Expr ν)
deriving DecidableEq, Repr

/-- The affinity under which two operands are compared, given those that they have. Two columns are
compared as numbers if one of them is numeric. -/
def commonAffinity? : Option Affinity → Option Affinity → Option Affinity
  | some a, some b => if a.isNumeric || b.isNumeric then some .numeric else none
  | some a, none => some a
  | none, b? => b?

namespace Expr

variable {ν : Type}

def names : Expr ν → List ν
  | .name n => [n]
  | .parameter _ | .constant _ | .countRows => []
  | .comparison _ left right | .and left right | .or left right => names left ++ names right
  | .isNull e | .notNull e | .not e | .count e => names e

def counts : Expr ν → Bool
  | .countRows | .count _ => true
  | .name _ | .parameter _ | .constant _ => false
  | .comparison _ left right | .and left right | .or left right => counts left || counts right
  | .isNull e | .notNull e | .not e => counts e

def conjuncts : Expr ν → List (Expr ν)
  | .and left right => conjuncts left ++ conjuncts right
  | e => [e]

structure Environment (ν ρ : Type) where
  args : Array Datum
  affinity : ν → Affinity
  value : ρ → ν → Datum
  rows : List ρ

def affinity? (affinity : ν → Affinity) : Expr ν → Option Affinity
  | .name n => some (affinity n)
  | _ => none

def conjunction : Option Bool → Option Bool → Option Bool
  | some true, b? => b?
  | some false, _ => some false
  | none, some false => some false
  | none, _ => none

/-- The value of an expression in a row. Parameters without a value are null, and so are comparisons
with null. -/
def eval {ρ : Type} (env : Environment ν ρ) (row : ρ) : Expr ν → Datum
  | .name n => env.value row n
  | .parameter index => env.args[index]?.getD .null
  | .constant d => d
  | .comparison c left right =>
    let a? := commonAffinity? (left.affinity? env.affinity) (right.affinity? env.affinity)
    let (x, y) := Datum.comparable a? (eval env row left) (eval env row right)
    Datum.ofTruth ((x.compare? y).map c.holds)
  | .isNull e => Datum.ofBool (eval env row e = .null)
  | .notNull e => Datum.ofBool (eval env row e ≠ .null)
  | .not e => Datum.ofTruth ((eval env row e).truth?.map (!·))
  | .and left right =>
    Datum.ofTruth (conjunction (eval env row left).truth? (eval env row right).truth?)
  | .or left right =>
    Datum.ofTruth ((conjunction ((eval env row left).truth?.map (!·))
      ((eval env row right).truth?.map (!·))).map (!·))
  | .countRows => .int (Int64.ofNat env.rows.length)
  | .count e => .int (Int64.ofNat (env.rows.countP fun row => eval env row e != .null))

def holds {ρ : Type} (env : Environment ν ρ) (row : ρ) (e : Expr ν) : Bool :=
  (e.eval env row).truth? = some true

end Expr

end QueryMapping.Relational
