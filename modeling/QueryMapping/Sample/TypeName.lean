import QueryMapping.Sample.Entity

/-! Reading the names of types. -/

namespace QueryMapping.Sample

def inside? (outer name : String) : Option String :=
  if (outer ++ "<").toList.isPrefixOf name.toList && name.endsWith ">" then
    some (String.ofList ((name.toList.drop (outer.length + 1)).dropLast))
  else none

def plainScalars : List Scalar :=
  [.bool, .int64, .int32, .float, .text, .bytes, .value, .typed]

/-- Each pair of brackets spends fuel. -/
def scalarNamedFrom? : Nat → String → Option Scalar
  | 0, _ => none
  | fuel + 1, name =>
    match inside? "Option" name with
    | some inner => (scalarNamedFrom? fuel inner).map .optional
    | none => plainScalars.find? fun s => scalarName s = name

def scalarNamed? (name : String) : Option Scalar := scalarNamedFrom? (name.length + 1) name

def entityNamed? (name : String) : Option Entity :=
  if name = TypeFamily.name Entity.json then some .json
  else if name = TypeFamily.name Entity.car then some .car
  else (scalarNamed? name).map .scalar

def typeNamedFrom? : Nat → String → Option (OutputType Entity)
  | 0, _ => none
  | fuel + 1, name =>
    match inside? "Vec" name with
    | some inner => (typeNamedFrom? fuel inner).map .list
    | none => (entityNamed? name).map .base

def typeNamed? (name : String) : Option (OutputType Entity) := typeNamedFrom? (name.length + 1) name

end QueryMapping.Sample
