import QueryMapping.Table

/-! A tree of directories and files, and the ways in which a path names a place in it. A place is
the list of names on the way to it, from the working directory or, after an empty name, from the
root. -/

namespace QueryMapping

abbrev Place := List String

structure FileTree (α : Type) where
  directories : List Place
  files : Table Place α

namespace FileTree

variable {α : Type}

def empty : FileTree α := ⟨[], []⟩

def origin (path : String) : Place := if path.startsWith "/" then [""] else []

def names (path : String) : List String :=
  (path.splitOn "/").filter fun name => !name.isEmpty && name != "."

/-- The directory above a place. Nothing is above the root. -/
def above (place : Place) : Place :=
  if place = [""] then place
  else if place.all (· == "..") then place ++ [".."]
  else place.dropLast

def isDirectory (t : FileTree α) (place : Place) : Bool :=
  place = [""] || place.all (· == "..") || t.directories.contains place

/-- Names taken one after another, each two dots undoing the name before them. -/
def lexicalPlace (path : String) : Place :=
  (names path).foldl (fun here name => if name = ".." then above here else here ++ [name])
    (origin path)

def enter? (t : FileTree α) (here : Place) (name : String) : Option Place :=
  if name = ".." then some (above here)
  else if t.isDirectory (here ++ [name]) then some (here ++ [name])
  else none

/-- What a file holds. Every directory on the way to it has to be there. -/
def read? (t : FileTree α) (path : String) : Option α :=
  if path.endsWith "/" then none
  else
    match (names path).getLast? with
    | none => none
    | some name => do
      let directory ← (names path).dropLast.foldlM t.enter? (origin path)
      t.files.get? (directory ++ [name])

def write (t : FileTree α) (place : Place) (a : α) : FileTree α :=
  { t with files := t.files.set place a }

def longestName : Nat := 255

def isUsable (name : String) : Bool :=
  name.utf8ByteSize ≤ longestName && !name.toList.contains '\x00'

/-- Makes the directories of a path that are missing; absent if a file is in the way. -/
def makeDirectories? (t : FileTree α) (path : List String) (here : Place) :
    Option (FileTree α) :=
  match path with
  | [] => some t
  | ".." :: rest => makeDirectories? t rest (above here)
  | name :: rest =>
    let place := here ++ [name]
    if t.files.contains place || !isUsable name then none
    else if t.isDirectory place then makeDirectories? t rest place
    else makeDirectories? { t with directories := t.directories ++ [place] } rest place

def makeParents? (t : FileTree α) (path : String) : Option (FileTree α) :=
  t.makeDirectories? (names path).dropLast (origin path)

/-- Writes files into the working directory, and makes the directories that they are in. -/
def ofFiles (files : List (String × α)) : FileTree α :=
  files.foldl (fun t file =>
    ((t.makeParents? file.1).getD t).write (lexicalPlace file.1) file.2) empty

end FileTree

end QueryMapping
