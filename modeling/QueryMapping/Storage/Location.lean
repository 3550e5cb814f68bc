import QueryMapping.Dsn.Basic
import QueryMapping.Url.Decode

/-! What a driver makes of an SQLite data source name: the file to open, or a database in memory,
and how it may be used. -/

namespace QueryMapping

structure OpenOptions where
  file : String
  inMemory : Bool
  readOnly : Bool
  createFile : Bool
  immutable : Bool
  choosesLayer : Bool
deriving DecidableEq, Repr

namespace OpenOptions

/-- A text without the beginnings that it has, however often. -/
def withoutStarts (start cs : List Char) : List Char :=
  if start ≠ [] ∧ start.isPrefixOf cs then withoutStarts start (cs.drop start.length) else cs
termination_by cs.length
decreasing_by
  rename_i h
  obtain ⟨hne, hp⟩ := h
  obtain ⟨t, rfl⟩ := List.isPrefixOf_iff_prefix.1 hp
  have := List.length_pos_iff.2 hne
  simp only [List.drop_left, List.length_append]
  omega

def accessLayers : List String := ["unix", "unix-dotfile", "unix-excl", "unix-none", "memdb"]

def utf8 (s : String) : List UInt8 := s.toList.flatMap String.utf8EncodeChar

def withParameter? (o : OpenOptions) (key value : List UInt8) : Option OpenOptions :=
  if key = utf8 "mode" then
    if value = utf8 "ro" then some { o with readOnly := true }
    else if value = utf8 "rw" then some o
    else if value = utf8 "rwc" then some { o with createFile := true }
    else if value = utf8 "memory" then some { o with inMemory := true }
    else none
  else if key = utf8 "cache" then
    if value = utf8 "private" ∨ value = utf8 "shared" then some o else none
  else if key = utf8 "immutable" then
    if value = utf8 "true" ∨ value = utf8 "1" then some { o with immutable := true }
    else if value = utf8 "false" ∨ value = utf8 "0" then some { o with immutable := false }
    else none
  else if key = utf8 "vfs" then
    if value = utf8 "memdb" then some { o with inMemory := true }
    else if accessLayers.any (utf8 · = value) then some { o with choosesLayer := true }
    else none
  else none

def ofDsn? (dsn : String) : Option OpenOptions := do
  let rest := withoutStarts "sqlite:".toList (withoutStarts "sqlite://".toList dsn.toList)
  let database := rest.takeWhile (· ≠ '?')
  let query := rest.drop (database.length + 1)
  let inMemory := database = ":memory:".toList
  let file ← if inMemory then some "" else Url.decode? database
  (Url.formPairs query).foldlM
    (fun o pair => o.withParameter? (Url.decodeForm pair.1) (Url.decodeForm pair.2))
    ⟨file, inMemory, false, false, false, false⟩

/-! ### File names that are URLs -/

def withoutStart? (start cs : List Char) : Option (List Char) :=
  if start.isPrefixOf cs then some (cs.drop start.length) else none

/-- What a file's URL has after its host, which can only be the local one. -/
def withoutHost? (cs : List Char) : Option (List Char) :=
  match withoutStart? "//".toList cs with
  | none => some cs
  | some rest =>
    let host := rest.takeWhile (· ≠ '/')
    if host.isEmpty || host = "localhost".toList then some (rest.drop host.length) else none

/-- Takes the mode of a file's URL into account, which may only take rights away. -/
def withMode? (o : OpenOptions) (mode : List UInt8) : Option OpenOptions :=
  if mode = utf8 "ro" then some { o with readOnly := true, createFile := false }
  else if mode = utf8 "rw" then if o.readOnly then none else some { o with createFile := false }
  else if mode = utf8 "rwc" then if o.readOnly || !o.createFile then none else some o
  else if mode = utf8 "memory" then some { o with inMemory := true, readOnly := false }
  else none

def isAffirmed (value : List UInt8) : Bool :=
  let digits := value.takeWhile fun b => 48 ≤ b && b ≤ 57
  if digits.isEmpty then
    ["yes", "true", "on"].any fun word =>
      utf8 word = value.map fun b => if 65 ≤ b && b ≤ 90 then b + 32 else b
  else digits.any (· ≠ 48)

/-- Takes a parameter of a file's URL into account. One that is not known is passed over. -/
def withUrlParameter? (o : OpenOptions) (key value : List UInt8) : Option OpenOptions :=
  if key = utf8 "mode" then o.withMode? value
  else if key = utf8 "cache" then
    if value = utf8 "private" ∨ value = utf8 "shared" then some o else none
  else if key = utf8 "vfs" then
    if value = utf8 "memdb" then some { o with inMemory := true }
    else if accessLayers.any (utf8 · = value) then some o
    else none
  else if key = utf8 "immutable" then some { o with immutable := o.immutable || isAffirmed value }
  else some o

/-- A file whose name may be that of a URL, by its path, which ends at the first NUL; absent if it
cannot be opened like that. The name is taken as it is if the driver has settings to pass on with
it. -/
def located? (o : OpenOptions) : Option OpenOptions := do
  guard (!o.file.toList.contains '\x00')
  match if o.immutable || o.choosesLayer then none
    else withoutStart? "file:".toList o.file.toList with
  | none => return o
  | some rest =>
    let rest := (← withoutHost? rest).takeWhile (· ≠ '#')
    let path := rest.takeWhile (· ≠ '?')
    let query := rest.drop (path.length + 1)
    let file := String.ofList ((← Url.decode? path).toList.takeWhile (· ≠ '\x00'))
    (Url.formPairs query).foldlM (fun o (key, value) =>
        o.withUrlParameter? (Url.decodeBytes (key.flatMap String.utf8EncodeChar))
          (Url.decodeBytes (value.flatMap String.utf8EncodeChar)))
      { o with file }

/-- Whether the database is kept in memory, by the driver's settings or by the name of its file. -/
def isTransient (o : OpenOptions) : Bool := o.inMemory || o.file.isEmpty || o.file = ":memory:"

end OpenOptions

end QueryMapping
