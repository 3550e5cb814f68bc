import QueryMapping.Value.Basic

/-! What a driver is given for a placeholder of a statement: a value with the type that it is bound
as. -/

namespace QueryMapping

inductive Argument where
  | null
  | bool (b : Bool)
  | int (n : Int64)
  | float (x : Binary64)
  | text (s : String)
  | bytes (bs : List UInt8)
  /-- A JSON document, of the type that keeps its text or of the binary one. -/
  | document (binary : Bool) (content : String)
deriving DecidableEq, Repr

end QueryMapping
