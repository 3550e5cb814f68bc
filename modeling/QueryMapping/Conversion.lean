import QueryMapping.Table
import QueryMapping.TypeFamily
import QueryMapping.Value.Basic

/-! Conversions between domain types and column values: at most one writer and one reader for each
type. -/

namespace QueryMapping

inductive Direction where
  | writing
  | reading
deriving DecidableEq, Repr

inductive ConversionError where
  | notFound (direction : Direction) (typeName : String)
  | incompatible (target found : String)
  | malformed
deriving DecidableEq, Repr

namespace ConversionError

def message : ConversionError → String
  | .notFound .writing typeName => "no writing converter registered for " ++ typeName
  | .notFound .reading typeName => "no reading converter registered for " ++ typeName
  | .incompatible target found => "cannot convert " ++ found ++ " into " ++ target
  | .malformed => "malformed value"

end ConversionError

structure Writer (τ : Type) [TypeFamily τ] where
  source : τ
  write : TypeFamily.Carrier source → Except ConversionError Value

structure Reader (τ : Type) [TypeFamily τ] where
  target : τ
  read : Value → Except ConversionError (TypeFamily.Carrier target)

structure Conversions (τ : Type) [TypeFamily τ] where
  writers : List (Writer τ)
  readers : List (Reader τ)

namespace Conversions

variable {τ : Type} [TypeFamily τ] [DecidableEq τ]

def empty : Conversions τ := ⟨[], []⟩

/-- A later writer for a type takes the place of an earlier one. -/
def withWriter (c : Conversions τ) (w : Writer τ) : Conversions τ :=
  { c with writers := c.writers.filter (·.source ≠ w.source) ++ [w] }

def withReader (c : Conversions τ) (r : Reader τ) : Conversions τ :=
  { c with readers := c.readers.filter (·.target ≠ r.target) ++ [r] }

def hasWriter (c : Conversions τ) (t : τ) : Bool := c.writers.any (·.source = t)

def hasReader (c : Conversions τ) (t : τ) : Bool := c.readers.any (·.target = t)

def writerFor? (t : τ) :
    List (Writer τ) → Option (TypeFamily.Carrier t → Except ConversionError Value)
  | [] => none
  | w :: ws => if h : w.source = t then some (h ▸ w.write) else writerFor? t ws

def readerFor? (t : τ) :
    List (Reader τ) → Option (Value → Except ConversionError (TypeFamily.Carrier t))
  | [] => none
  | r :: rs => if h : r.target = t then some (h ▸ r.read) else readerFor? t rs

def write (c : Conversions τ) (t : τ) (a : TypeFamily.Carrier t) : Except ConversionError Value :=
  match writerFor? t c.writers with
  | some w => w a
  | none => .error (.notFound .writing (TypeFamily.name t))

def read (c : Conversions τ) (t : τ) (v : Value) :
    Except ConversionError (TypeFamily.Carrier t) :=
  match readerFor? t c.readers with
  | some r => r v
  | none => .error (.notFound .reading (TypeFamily.name t))

/-- SQL NULL is read as absent, whether or not there is a reader. -/
def readOptional (c : Conversions τ) (t : τ) (v : Value) :
    Except ConversionError (Option (TypeFamily.Carrier t)) :=
  if v.isNull then .ok none else (c.read t v).map some

def display (c : Conversions τ) : String :=
  let writers := c.writers.map fun w => TypeFamily.name w.source
  let readers := c.readers.map fun r => TypeFamily.name r.target
  "CustomConversions \x7b writers: [" ++ ", ".intercalate writers ++ "], readers: [" ++
    ", ".intercalate readers ++ "] \x7d"

end Conversions

end QueryMapping
