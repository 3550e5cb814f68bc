import QueryMapping.Value.Basic

/-! Typed reading of a column value, and the value that each scalar is written as. A scalar type
accepts the kinds listed in `read`; an optional type reads SQL NULL as absent and everything else as
the type below it does. -/

namespace QueryMapping

structure Mismatch where
  expected : String
  found : String
deriving DecidableEq, Repr

namespace Mismatch

def message (m : Mismatch) : String := "cannot decode " ++ m.found ++ " as " ++ m.expected

end Mismatch

inductive Scalar where
  | bool
  | int64
  | int32
  | float
  | text
  | bytes
  | value
  | typed
  | optional (of : Scalar)
deriving DecidableEq, Repr

namespace Scalar

@[reducible] def Carrier : Scalar → Type
  | .bool => Bool
  | .int64 => Int64
  | .int32 => Int32
  | .float => Binary64
  | .text => String
  | .bytes => List UInt8
  | .value => Value
  | .typed => TypedValue
  | .optional of => Option of.Carrier

def fitsInt32 (n : Int64) : Bool := -2147483648 ≤ n.toInt && n.toInt ≤ 2147483647

def read : (s : Scalar) → Value → Except Mismatch s.Carrier
  | .bool, .bool b => .ok b
  | .bool, .int n => .ok (n != 0)
  | .bool, v => .error ⟨"bool", v.kind⟩
  | .int64, .int n => .ok n
  | .int64, v => .error ⟨"int", v.kind⟩
  | .int32, .int n => if fitsInt32 n then .ok n.toInt32 else .error ⟨"int32", "int64 out of range"⟩
  | .int32, v => .error ⟨"int", v.kind⟩
  | .float, .float x => .ok x
  | .float, v => .error ⟨"float", v.kind⟩
  | .text, .text s => .ok s
  | .text, .typed ⟨_, some s⟩ => .ok s
  | .text, v => .error ⟨"text", v.kind⟩
  | .bytes, .bytes bs => .ok bs
  | .bytes, v => .error ⟨"bytes", v.kind⟩
  | .value, v => .ok v
  | .typed, .typed t => .ok t
  | .typed, v => .error ⟨"typed", v.kind⟩
  | .optional of, v => if v.isNull then .ok none else (read of v).map some

/-- The value a scalar is bound as; an absent optional is SQL NULL. -/
def toValue : (s : Scalar) → s.Carrier → Value
  | .bool, b => .bool b
  | .int64, n => .int n
  | .int32, n => .int n.toInt64
  | .float, x => .float x
  | .text, s => .text s
  | .bytes, bs => .bytes bs
  | .value, v => v
  | .typed, t => .typed t
  | .optional _, none => .null
  | .optional of, some a => toValue of a

end Scalar

end QueryMapping
