import QueryMapping.Json.Tree
import QueryMapping.Json.Valid
import QueryMapping.Conversion

/-! JSON documents kept as their original text, and their converters to and from typed column
values. -/

namespace QueryMapping

/-- What documents are read with: a check of their form that builds nothing, and a reading of
them. -/
structure JsonLibrary (D : Type) where
  isValid : String → Bool
  parse? : String → Option D

def Json.library : JsonLibrary Json.Tree := ⟨Json.isValid, Json.parse?⟩

structure JsonHolder where
  content : String
deriving DecidableEq, Repr

namespace JsonHolder

def parseBy? {D : Type} (l : JsonLibrary D) (holder : JsonHolder) : Option D :=
  l.parse? holder.content

def parse? : JsonHolder → Option Json.Tree := parseBy? Json.library

def typeName : String := "JsonHolder"

def writeBy {D : Type} (l : JsonLibrary D) (columnType : String) (holder : JsonHolder) :
    Except ConversionError Value :=
  if l.isValid holder.content then .ok (.typed ⟨columnType, some holder.content⟩)
  else .error .malformed

def write : String → JsonHolder → Except ConversionError Value := writeBy Json.library

/-- Reads a typed JSON value or plain text; the content is not checked. -/
def read : Value → Except ConversionError JsonHolder
  | .typed t =>
    if t.isJson then
      match t.text with
      | some content => .ok ⟨content⟩
      | none => .error (.incompatible typeName "null")
    else .error (.incompatible typeName "typed")
  | .text content => .ok ⟨content⟩
  | v => .error (.incompatible typeName v.kind)

end JsonHolder

end QueryMapping
