import QueryMapping.Relational.Parameter
import QueryMapping.Relational.Parse.Statement
import QueryMapping.Relational.Prepared
import QueryMapping.Text.Blank

/-! A connection to a store, and the texts of statements that it runs. The statements of a text run
one after another, up to the first that fails, and those before it keep their effects. -/

namespace QueryMapping.Relational

structure Connection where
  store : Store
  /-- How many rows were changed by the last statement that changes rows. -/
  changed : Nat
  isReadOnly : Bool
  /-- Whether there is a store at all, and not a file of some other kind. -/
  isStore : Bool
  prepared : PreparedTexts
  isLost : Bool
  /-- Other connections are to the same store, and not each to one of its own. -/
  isShared : Bool
deriving DecidableEq, Repr

structure Request where
  text : String
  /-- The values of parameters; without them all are null. -/
  args? : Option (Array Datum)
deriving DecidableEq, Repr

structure Progress where
  result : ResultSet
  affected : Nat
  taken : Nat
deriving DecidableEq, Repr

namespace ResultSet

def none : ResultSet := ⟨[], []⟩

def append (a b : ResultSet) : ResultSet :=
  if a.rows.isEmpty then b else ⟨a.columns, a.rows ++ b.rows⟩

end ResultSet

namespace Connection

def ofStore (s : Store) : Connection := ⟨s, 0, false, true, [], false, false⟩

def beside (c : Connection) : Connection :=
  { ofStore (if c.isShared then c.store else .empty) with
    isReadOnly := c.isReadOnly, isStore := c.isStore, isShared := c.isShared }

def written {α : Type} (c : Connection) (a : α) : Except SqlError α :=
  if c.isReadOnly then .error .readOnly else .ok a

def changing (c : Connection) (outcome : Except SqlError Change) :
    Except SqlError ResultSet × Connection :=
  match outcome.bind c.written with
  | .ok change => (.ok .none, { c with store := change.store, changed := change.rows })
  | .error e => (.error e, if e.isRuntime then { c with changed := 0 } else c)

def defining (c : Connection) (outcome : Except SqlError Store) :
    Except SqlError ResultSet × Connection :=
  match outcome.bind fun store => if store = c.store then .ok store else c.written store with
  | .ok store => (.ok .none, { c with store })
  | .error e => (.error e, c)

/-- The columns of a selection, which are those that it was first prepared with at this place of a
text if the text is kept. -/
def remember (c : Connection) (place? : Option (String × Nat)) (columns : List ResultColumn) :
    List ResultColumn × Connection :=
  match place? with
  | none => (columns, c)
  | some (text, place) =>
    match c.prepared.columns? text place with
    | some columns => (columns, c)
    | none => (columns, { c with prepared := c.prepared.keep text place columns })

/-- The outcome of a selection. Its columns are known before the values of its parameters. A row
that has more values than there are columns is not read, and the connection is lost. -/
def selecting (c : Connection) (place? : Option (String × Nat))
    (args : Except SqlError (Array Datum)) (selection : Except SqlError Selection) :
    Except SqlError ResultSet × Connection :=
  match selection with
  | .error e => (.error e, c)
  | .ok s =>
    let (columns, c) := c.remember place? s.columns
    match args with
    | .error e => (.error e, c)
    | .ok args =>
      let rows := s.rows args
      if columns.length < s.columns.length && !rows.isEmpty then
        (.ok .none, { c with isLost := true })
      else (.ok ⟨columns, rows⟩, c)

def needsStore : Statement → Bool
  | .select _ none _ _ => false
  | _ => true

def run (c : Connection) (place? : Option (String × Nat)) (args : Except SqlError (Array Datum))
    (s : Statement) : Except SqlError ResultSet × Connection :=
  if needsStore s && !c.isStore then (.error .noDatabase, c)
  else
    match s with
    | .createTable name ifMissing columns definition =>
      c.defining (c.store.createTable name ifMissing columns definition)
    | .dropTable name ifExists => c.defining (c.store.dropTable name ifExists)
    | .insert name columns rows => c.changing (do c.store.insert (← args) name columns rows)
    | .update source changes condition? =>
      c.changing (do c.store.update (← args) source changes condition?)
    | .delete source condition? => c.changing (do c.store.delete (← args) source condition?)
    | .select items source? condition? order =>
      c.selecting place? args (Selection.prepare c.store items source? condition? order)

/-- Runs the statement of some tokens, which is at a place of the request's text. After it, the rows
that the last change of rows has changed are counted, whichever statement made it. -/
def runTokens (c : Connection) (r : Request) (place : Nat) (p : Progress) (tokens : List Token) :
    Except SqlError Progress × Connection :=
  let (tokens, parameters) := Parameters.ofTokens #[] tokens
  match Statement.ofTokens? tokens with
  | none => (.error .malformed, c)
  | some statement =>
    let bound := r.args?.elim (.ok (#[], 0)) fun args => parameters.values args p.taken
    let (outcome, c) :=
      c.run (r.args?.map fun _ => (r.text, place)) (bound.map Prod.fst) statement
    if c.isLost then (.ok p, c)
    else
      (do
        let (_, taken) ← bound
        return ⟨p.result.append (← outcome), p.affected + c.changed, taken⟩, c)

def runFrom (r : Request) (place : Nat) (p : Progress) :
    List (List Token) → Connection → Except SqlError Progress × Connection
  | [], c => (.ok p, c)
  | tokens :: rest, c =>
    match c.runTokens r place p tokens with
    | (.ok p, c) => if c.isLost then (.ok p, c) else runFrom r (place + 1) p rest c
    | (.error e, c) => (.error e, c)

/-- Runs the statements of a text, which may have white space of any kind around it. A text that is
run with values is kept. -/
def runText (c : Connection) (r : Request) : Except SqlError Progress × Connection :=
  if c.isLost then (.error .lostConnection, c)
  else
    let c := if r.args?.isSome then { c with prepared := c.prepared.use r.text } else c
    runFrom r 0 ⟨.none, 0, 0⟩ (statementTokens (Text.trim r.text.toList)) c

end Connection

end QueryMapping.Relational
