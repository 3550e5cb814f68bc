import QueryMapping.Url.Edit

/-! Data source names fit to be shown. -/

namespace QueryMapping.Dsn

def mask : String := "***"

structure UrlLibrary (U : Type) where
  parse : List Char → Option U
  password? : U → Option (List Char)
  setPassword? : U → List Char → Option U
  write : U → List Char

/-- A data source name with its password masked by the means of a library. A text that is no URL is
masked as a whole if it may hold credentials. -/
def redactBy {U : Type} (l : UrlLibrary U) (dsn : String) : String :=
  match l.parse dsn.toList with
  | some url =>
    match l.password? url with
    | none => dsn
    | some _ =>
      match l.setPassword? url mask.toList with
      | some masked => String.ofList (l.write masked)
      | none => mask
  | none => if dsn.toList.contains '@' then mask else dsn

/-- The URLs that data source names are made of here. No scheme is a special one to them. -/
def urlLibrary : UrlLibrary Url where
  parse cs := (Url.parse cs).toOption
  password? := Url.password?
  setPassword? := Url.setPassword?
  write := Url.write

def redact (dsn : String) : String := redactBy urlLibrary dsn

def redactOptional (dsn : Option String) : String := dsn.elim "none" redact

end QueryMapping.Dsn
