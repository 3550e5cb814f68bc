import QueryMapping.Url.Encode

/-! Paths made of segments. Dot segments are resolved as a path is read. -/

namespace QueryMapping.Url.Path

def isSingleDot (segment : List Char) : Bool :=
  segment == ['.'] || segment.map Char.toLower == ['%', '2', 'e']

def isDoubleDot (segment : List Char) : Bool :=
  segment == ['.', '.'] || segment.map Char.toLower == ['%', '2', 'e', '.'] ||
    segment.map Char.toLower == ['.', '%', '2', 'e'] ||
    segment.map Char.toLower == ['%', '2', 'e', '%', '2', 'e']

/-- A letter with a colon or a bar names a drive, which the directory above does not leave. -/
def isDrive : List Char → Bool
  | letter :: mark :: rest =>
    letter.isAlpha && (mark == ':' || mark == '|') && (rest.isEmpty || rest.head? == some '\\')
  | _ => false

/-- The segments, last one first, without the last of them unless it names a drive. -/
def parent : List (List Char) → List (List Char)
  | [] => []
  | segment :: above => if isDrive segment then segment :: above else above

/-- Resolves segments against those already resolved, the last of which comes first. -/
def resolveFrom (done : List (List Char)) : List (List Char) → List (List Char)
  | [] => done.reverse
  | [last] =>
    if isDoubleDot last then ([] :: parent done).reverse
    else if isSingleDot last then ([] :: done).reverse
    else (last :: done).reverse
  | segment :: rest =>
    if isDoubleDot segment then resolveFrom (parent done) rest
    else if isSingleDot segment then resolveFrom done rest
    else resolveFrom (segment :: done) rest

def ofText (cs : List Char) : List Char :=
  '/' :: ['/'].intercalate (resolveFrom [] ((cs.splitOn '/').map (encode inPathSet)))

end QueryMapping.Url.Path
