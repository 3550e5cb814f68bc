import QueryMapping.Relational.Estimate
import QueryMapping.Relational.Scope

/-! The order in which a statement goes through the rows of its relation. Rows are read by their
number or by an index, whichever is estimated to cost less, and what an order leaves open is decided
by it. A relation is taken to have about a million rows, however many there are. -/

namespace QueryMapping.Relational

structure Demand where
  scope : Scope
  conditions : List PlacedExpr
  used : List Place
  order : List (OrderTerm Place)
  width : Nat
  isReading : Bool

structure Access where
  place : Place
  cost : Estimate
  rows : Estimate
deriving DecidableEq, Repr

namespace Demand

def tableRows : Estimate := 200

def bound? (e : PlacedExpr) : Option (Place × Comparison × PlacedExpr) :=
  match e with
  | .comparison c (.name p) right => if right.names.isEmpty then some (p, c, right) else none
  | .comparison c left (.name p) => if left.names.isEmpty then some (p, c.flipped, left) else none
  | _ => none

def isBounded (d : Demand) (p : Place) (comparisons : List Comparison) : Bool :=
  d.conditions.any fun e => (bound? e).any fun (q, c, _) => q = p && comparisons.contains c

def number? (d : Demand) : Option PlacedExpr :=
  (d.conditions.filterMap bound?).findSome? fun (p, c, e) =>
    if p = d.scope.numberPlace && c = .eq then some e else none

def isNullAt (d : Demand) (p : Place) : Bool := d.conditions.contains (.isNull (.name p))

def isFixed (d : Demand) (p : Place) : Bool := d.isBounded p [.eq] || d.isNullAt p

def notNull (d : Demand) (index : Nat) : Bool :=
  d.scope.relation.columns[index]?.any (·.notNull)

def isPointed (d : Demand) : Bool :=
  d.isBounded d.scope.numberPlace [.eq] ||
    d.scope.relation.indexes.any fun index =>
      d.isBounded (.column index) [.eq] || (d.isNullAt (.column index) && !d.notNull index)

/-! ### Sizes -/

def firstNumber (cs : List Char) : Nat :=
  Numeral.digitsValue ((cs.dropWhile fun c => !c.isDigit).takeWhile Char.isDigit)

/-- The size of a column's values, in units of four bytes. -/
def columnSize (c : RelationColumn) : Nat :=
  if c.affinity.isNumeric || c.declaration.isEmpty then 1
  else if mentions c.declaration ["char", "blob("] then
    min 255 (firstNumber c.declaration.toList / 4 + 1)
  else 5

def rowSize (d : Demand) : Estimate :=
  let sizes := d.scope.relation.columns.map columnSize
  .ofNat (4 * (sizes.foldl (· + ·) 0 + if d.scope.relation.key?.isSome then 0 else 1))

def entrySize (d : Demand) (index : Nat) : Estimate :=
  .ofNat (4 * (d.scope.relation.columns[index]?.elim 1 columnSize + 1))

def entryCost (d : Demand) (index : Nat) : Estimate := 1 + 15 * d.entrySize index / d.rowSize

/-! ### Conditions -/

def selectivity (e : PlacedExpr) : Estimate :=
  let isSmall : PlacedExpr → Bool
    | .constant (.int n) => -1 ≤ n && n ≤ 1
    | _ => false
  match e with
  | .comparison .eq (.name _) right => if isSmall right then 10 else 20
  | .comparison .eq left (.name _) => if isSmall left then 10 else 20
  | _ => 0

def found (d : Demand) (rows : Estimate) (met : Nat) : Estimate :=
  let conditions := d.conditions.filter fun e => !e.names.isEmpty
  let reduction := (conditions.map selectivity).foldl max 0
  min (rows - (conditions.length - met : Nat)) (tableRows - reduction)

def leavesOutNull (d : Demand) (p : Place) : Bool :=
  d.conditions.contains (.notNull (.name p)) &&
    match p with
    | .number => false
    | .column index => p ≠ d.scope.numberPlace && !d.notNull index

/-- How many rows are within the bounds of a place, and how many conditions give them. The lower
bound may be that there is a value. -/
def within? (d : Demand) (p : Place) : Option (Estimate × Nat) :=
  match d.isBounded p [.gt, .ge], d.isBounded p [.lt, .le], d.leavesOutNull p with
  | true, true, _ => some (tableRows - 60, 2)
  | false, true, true => some (tableRows - 40, 2)
  | true, false, _ | false, true, false => some (tableRows - 20, 1)
  | false, false, true => some (tableRows - 1, 1)
  | false, false, false => none

/-! ### Ways -/

def byNumber (d : Demand) : Access :=
  match d.within? d.scope.numberPlace with
  | none => ⟨d.scope.numberPlace, tableRows + 16, d.found tableRows 0⟩
  | some (rows, met) =>
    ⟨d.scope.numberPlace, Estimate.plus (Estimate.logarithm tableRows) (rows + 16),
      d.found rows met⟩

/-- Whether an expression has only such places in it that an index has too. -/
def isCovered (d : Demand) (index : Nat) (places : List Place) : Bool :=
  places.all fun p => p = .column index || p = d.scope.numberPlace

def lookupCost (d : Demand) (index : Nat) : Estimate :=
  let spared := d.conditions.takeWhile fun e => d.isCovered index e.names
  tableRows + 16 - spared.foldl (fun n e => n + if selectivity e = 0 then 1 else 20) 0

def helpsOrder (d : Demand) (index : Nat) : Bool :=
  d.order.any fun t => t.value = .name (.column index) || t.value = .name d.scope.numberPlace

/-- All of an index, if it helps with the order or has all that is asked for. -/
def byIndex? (d : Demand) (index : Nat) : Option Access :=
  let isCovering := d.isCovered index d.used
  if d.helpsOrder index || (isCovering && d.isReading && d.entrySize index < d.rowSize) then
    let cost := tableRows + d.entryCost index
    some ⟨.column index, if isCovering then cost else Estimate.plus cost (d.lookupCost index),
      d.found tableRows 0⟩
  else none

def byBounds? (d : Demand) (index : Nat) : Option Access := do
  let (rows, met) ← d.within? (.column index)
  let cost := Estimate.plus (Estimate.logarithm tableRows) (rows + d.entryCost index)
  return ⟨.column index, if d.isCovered index d.used then cost else Estimate.plus cost (rows + 16),
    d.found rows met⟩

def byIndexes (d : Demand) : List Access :=
  d.scope.relation.indexes.flatMap fun index =>
    (d.byIndex? index).toList ++ (d.byBounds? index).toList

/-! ### Order -/

def isOpen (d : Demand) (t : OrderTerm Place) : Bool :=
  match t.value with
  | .name p => !d.isFixed p
  | _ => true

def openOrder (d : Demand) : List (OrderTerm Place) := d.order.filter d.isOpen

/-- Whether rows are read backward: their order begins with the place that they are read by,
descending. -/
def isBackward (d : Demand) (p : Place) : Bool :=
  d.openOrder.head?.any fun t => t.value = .name p && t.descending

def isDistinct (d : Demand) (p : Place) : Bool :=
  match p with
  | .number => true
  | .column index => p = d.scope.numberPlace || d.notNull index

/-- How many terms of the open order rows come in that are read by a place. Rows with the same value
there come by their numbers. -/
def orderedTerms (d : Demand) (p : Place) : Nat :=
  match d.openOrder with
  | [] => 0
  | t :: rest =>
    let isNext (u : OrderTerm Place) : Bool :=
      u.value = .name d.scope.numberPlace && u.descending = t.descending
    if t.value ≠ .name p then 0
    else if d.isDistinct p || rest.head?.any isNext then rest.length + 1
    else 1

def sortedTerms (d : Demand) (p : Place) : Nat :=
  let isSorted (n : Nat) : Bool := (d.order.take n).countP d.isOpen ≤ d.orderedTerms p
  ((List.range (d.order.length + 1)).reverse.find? isSorted).getD 0

def sortCost (d : Demand) (rows : Estimate) (sorted : Nat) : Estimate :=
  let terms := d.order.length
  let part : Estimate := if sorted = 0 then 0 else .ofNat ((terms - sorted) * 100 / terms) - 66
  rows + .ofNat ((d.width + 59) / 30) + part + Estimate.logarithm rows

/-- What ways are compared by: the cost with the sorting of some rows, the rows that are found, and
the cost of finding them, which counts a little less without sorting. -/
def rank (d : Demand) (rows : Estimate) (a : Access) : List Estimate :=
  let sorted := d.sortedTerms a.place
  if sorted < d.order.length then
    [Estimate.plus a.cost (d.sortCost rows sorted) + 3, a.rows, a.cost]
  else [a.cost, a.rows, a.cost - 2]

def cheapest (rank : Access → List Estimate) (first : Access) (rest : List Access) : Access :=
  rest.foldl (fun best a => if rank a < rank best then a else best) first

/-- The place that rows are read by. How many rows are sorted is estimated by the way that is the
cheapest without sorting. -/
def access (d : Demand) : Place :=
  if d.isPointed then d.scope.numberPlace
  else
    let unsorted := cheapest (fun a => [a.cost, a.rows]) d.byNumber d.byIndexes
    (cheapest (d.rank (unsorted.rows + 1)) d.byNumber d.byIndexes).place

def rows (d : Demand) : List Row :=
  let rows := d.scope.relation.rows.reverse
  let p := d.access
  let forward :=
    match p with
    | .number => rows
    | .column index =>
      rows.mergeSort fun a b => (a.valueAt index).compare (b.valueAt index) != .gt
  if d.isBackward p then forward.reverse else forward

end Demand

end QueryMapping.Relational
