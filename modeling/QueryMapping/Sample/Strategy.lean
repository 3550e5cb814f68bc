import QueryMapping.Sample.TypeName
import QueryMapping.Sample.Collaborator
import QueryMapping.Strategy.Method
import QueryMapping.Strategy.Column

/-! Sample strategies: row mappers, extractors, and blueprints of strategies that need
collaborators. -/

namespace QueryMapping.Sample

/-! ### Row mappers -/

def upper : RowMapper String := fun row _ => do
  let s ← (row.get .text 0).mapError .cursor
  return s.map Char.toUpper

def numbered : RowMapper String := fun row n => do
  let s ← (row.get (.optional .text) 0).mapError .cursor
  return toString n ++ ":" ++ s.getD ""

def car : RowMapper Car := fun row _ => do
  let id ← (row.getByName (.optional .int64) "id").mapError .cursor
  let model ← (row.getByName .text "model").mapError .cursor
  return ⟨id, model⟩

def model : RowMapper String := fun row _ => (row.getByName .text "model").mapError .cursor

def failSecond : RowMapper String := fun _ n =>
  if n = 0 then .ok "row 0" else .error (.strategy ("boom at row " ++ toString n))

/-- Reads the first column as a JSON document; what the conversion reports is the strategy's own
failure. -/
def json : RowMapper JsonHolder := fun row _ => do
  let v ← (row.valueAt 0).mapError .cursor
  (jsonConversions.read .json v).mapError fun e => .strategy e.message

/-! ### Extractors -/

def overRows {α β : Type} (m : RowMapper α) (f : List α → β) : Extractor β := fun c =>
  ((m.mapAll c).1.map f, (m.mapAll c).2)

def count : Extractor Int64 := overRows (fun _ _ => .ok ()) fun rows => Int64.ofNat rows.length

/-- The cursor's position before reading, after each row, and after reading past the end. -/
def positions : Extractor (List Int64) := fun c =>
  match RowMapper.mapAll (fun _ n => .ok (c.position + n + 1)) c with
  | (.error e, c') => (.error e, c')
  | (.ok after, c') =>
    let c'' := c'.next.2
    (.ok ((c.position :: after ++ [c''.position]).map Int64.ofNat), c'')

def strings : Extractor (List String) := (RowMapper.firstColumn .text).mapAll

def joined : Extractor String := overRows (RowMapper.firstColumn .text) (",".intercalate ·)

def reversed : Extractor (List String) := overRows (RowMapper.firstColumn .text) List.reverse

def first : Extractor (Option String) := fun c =>
  match c.next with
  | (.error e, c') => (.error (.cursor e), c')
  | (.ok none, c') => (.ok none, c')
  | (.ok (some row), c') => ((row.get (.optional .text) 0).mapError .cursor, c')

def columns : Extractor (List String) := fun c => (.ok (c.columns.map (·.name)), c)

def columnTypes : Extractor (List String) := fun c =>
  (.ok (c.columns.map fun column => column.name ++ " " ++ column.typeName), c)

def unsupported : Extractor String := fun c =>
  let column := c.columns.headD ⟨"", ""⟩
  (.error (.cursor (.unsupportedType column.name column.typeName)), c)

def fixedCars : Extractor (List Car) := fun c => (.ok [⟨some 1, "Extractor Car"⟩], c)

def fail : Extractor String := fun c => (.error (.strategy "boom"), c)

/-! ### Strategies of collaborators -/

def shout (suffix : Suffix) : Extractor String :=
  overRows (RowMapper.firstColumn .text) fun rows => String.join rows ++ suffix.text

def greetRow (greeter : Greeter) : RowMapper String := fun _ n =>
  .ok (greeter.greet ++ " " ++ toString n)

def greetingCars (greeter : Greeter) : Extractor (List Car) := fun c =>
  (.ok [⟨some 1, greeter.greet⟩], c)

def text : OutputType Entity := .base (.scalar .text)

def extracting (t : OutputType Entity) (e : Extractor t.Carrier) : Strategy Entity :=
  ⟨t, .extract e⟩

def mapping (t : OutputType Entity) (m : RowMapper t.Carrier) : Strategy Entity := ⟨t, .mapRows m⟩

abbrev SampleBlueprint := Blueprint Interface Entity

def shoutBlueprint : SampleBlueprint where
  typeName := "Shout"
  build hub := do
    let suffix ← hub.get Interface.suffix
    return extracting text (shout suffix)

def oracleShoutBlueprint : SampleBlueprint where
  typeName := "OracleShout"
  build hub := do
    let suffix ← hub.getScoped "oracle" Interface.suffix
    return extracting text (shout suffix)

def namedShoutBlueprint : SampleBlueprint where
  typeName := "NamedShout"
  build hub := do
    let suffix ← hub.getNamed "suffix" Interface.suffix
    return extracting text (shout suffix)

def carExtractorBlueprint : SampleBlueprint where
  typeName := "CarExtractorBean"
  build hub := do
    let greeter ← hub.get Interface.greeter
    return extracting (.list (.base .car)) (greetingCars greeter)

def greetMapperBlueprint : SampleBlueprint where
  typeName := "GreetMapper"
  build hub := do
    let greeter ← hub.get Interface.greeter
    return mapping text (greetRow greeter)

def blueprints : List SampleBlueprint :=
  [shoutBlueprint, oracleShoutBlueprint, namedShoutBlueprint, carExtractorBlueprint,
    greetMapperBlueprint]

def singleColumn (s : Scalar) : DefaultMapper Entity :=
  ⟨.base (.scalar s), RowMapper.firstColumn s⟩

def rowMappers : Table String (DefaultMapper Entity) :=
  [("upper", ⟨text, upper⟩), ("numbered", ⟨text, numbered⟩), ("car", ⟨.base .car, car⟩),
    ("model", ⟨text, model⟩), ("fail_second", ⟨text, failSecond⟩), ("json", ⟨.base .json, json⟩)]

def extractors : Table String (Strategy Entity) :=
  [("count", extracting (.base (.scalar .int64)) count),
    ("positions", extracting (.list (.base (.scalar .int64))) positions),
    ("strings", extracting text.list strings), ("joined", extracting text joined),
    ("reversed", extracting text.list reversed),
    ("first", extracting (.base (.scalar (.optional .text))) first),
    ("columns", extracting text.list columns), ("column_types", extracting text.list columnTypes),
    ("unsupported", extracting text unsupported),
    ("fixed_cars", extracting (.list (.base .car)) fixedCars), ("fail", extracting text fail),
    ("collect:upper", extracting text.list (RowMapper.mapAll upper)),
    ("collect:car", extracting (.list (.base .car)) (RowMapper.mapAll car))]

def mapperNamed? (name : String) : Option (DefaultMapper Entity) :=
  if "single:".toList.isPrefixOf name.toList then
    (scalarNamed? (String.ofList (name.toList.drop 7))).map singleColumn
  else rowMappers.get? name

def strategyNamed? (name : String) : Option (Strategy Entity) :=
  match mapperNamed? name with
  | some m => some ⟨m.entity, .mapRows m.mapper⟩
  | none => extractors.get? name

def blueprintNamed? (name : String) : Option SampleBlueprint :=
  blueprints.find? (·.typeName = name)

end QueryMapping.Sample
