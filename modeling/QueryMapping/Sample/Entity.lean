import QueryMapping.Json.Holder
import QueryMapping.Value.Scalar

/-! A sample family of entity types: the scalars, JSON documents and cars. -/

namespace QueryMapping.Sample

structure Car where
  id : Option Int64
  model : String
deriving DecidableEq, Repr

inductive Entity where
  | scalar (s : Scalar)
  | json
  | car
deriving DecidableEq, Repr

def scalarName : Scalar → String
  | .bool => "bool"
  | .int64 => "i64"
  | .int32 => "i32"
  | .float => "f64"
  | .text => "String"
  | .bytes => "bytes"
  | .value => "Value"
  | .typed => "TypedValue"
  | .optional s => "Option<" ++ scalarName s ++ ">"

@[reducible] def Entity.Carrier : Entity → Type
  | .scalar s => s.Carrier
  | .json => JsonHolder
  | .car => Car

instance : TypeFamily Entity where
  Carrier := Entity.Carrier
  name
    | .scalar s => scalarName s
    | .json => JsonHolder.typeName
    | .car => "Car"

def jsonWriter (columnType : String) : Writer Entity := ⟨.json, JsonHolder.write columnType⟩

def jsonReader : Reader Entity := ⟨.json, JsonHolder.read⟩

def jsonConversions : Conversions Entity :=
  (Conversions.empty.withWriter (jsonWriter "json")).withReader jsonReader

end QueryMapping.Sample
