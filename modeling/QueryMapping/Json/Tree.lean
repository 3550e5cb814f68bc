import QueryMapping.Json.Number

/-! JSON documents as trees. Reading one is stricter than checking its form: containers nest at most
127 deep, surrogates come in pairs, and numbers are finite. A document may hold another one as text,
in an object whose first member has a key kept for this; the object stands for that document. -/

namespace QueryMapping.Json

inductive Tree where
  | null
  | bool (b : Bool)
  | number (n : Number)
  | string (s : String)
  | array (items : List Tree)
  | object (members : List (String × Tree))
deriving Repr

namespace Tree

mutual

def depth : Tree → Nat
  | .array items => 1 + depthOfItems items
  | .object members => 1 + depthOfMembers members
  | _ => 0

def depthOfItems : List Tree → Nat
  | [] => 0
  | t :: ts => max t.depth (depthOfItems ts)

def depthOfMembers : List (String × Tree) → Nat
  | [] => 0
  | (_, t) :: ts => max t.depth (depthOfMembers ts)

end

/-- Keys are ordered by code point; of two members with one key the later stays. -/
def insertMember (key : String) (t : Tree) : List (String × Tree) → List (String × Tree)
  | [] => [(key, t)]
  | (k, u) :: rest =>
    if key = k then (key, t) :: rest
    else if key < k then (key, t) :: (k, u) :: rest
    else (k, u) :: insertMember key t rest

end Tree

/-- The text of a string's parts; absent if a surrogate is not part of a pair. -/
def decodeParts? : List StringPart → Option (List Char)
  | [] => some []
  | .char c :: rest => (decodeParts? rest).map (c :: ·)
  | .unit n :: rest =>
    if 0xDC00 ≤ n && n ≤ 0xDFFF then none
    else if n < 0xD800 || 0xDBFF < n then (decodeParts? rest).map (Char.ofNat n :: ·)
    else
      match rest with
      | .unit m :: rest =>
        if 0xDC00 ≤ m && m ≤ 0xDFFF then
          (decodeParts? rest).map (Char.ofNat (0x10000 + (n - 0xD800) * 0x400 + (m - 0xDC00)) :: ·)
        else none
      | _ => none

def decodeString? (parts : List StringPart) : Option String :=
  (decodeParts? parts).map String.ofList

/-- The key of a document held as text; it has this meaning in an object's first member only. -/
def embeddingKey : String := "$serde_json::private::RawValue"

inductive Frame where
  | array (items : List Tree)
  | object (members : List (String × Tree))
  | member (members : List (String × Tree)) (key : String)
  /-- An object that stands for a document, before the document's text. -/
  | embedding
  /-- An object that stands for a document; it has no further members. -/
  | embedded (document : Tree)

inductive Awaiting where
  | value
  | element
  | member
  | key
  | colon
  | separator
  | done (t : Tree)

structure Building where
  frames : List Frame
  next : Awaiting

namespace Building

def start : Building := ⟨[], .value⟩

def maxDepth : Nat := 127

def deliver? (frames : List Frame) (t : Tree) : Option Building :=
  match frames with
  | [] => some ⟨[], .done t⟩
  | .array items :: outer => some ⟨.array (t :: items) :: outer, .separator⟩
  | .member members key :: outer =>
    some ⟨.object (Tree.insertMember key t members) :: outer, .separator⟩
  | _ => none

def open? (frames : List Frame) (frame : Frame) (next : Awaiting) : Option Building :=
  if frames.length < maxDepth then some ⟨frame :: frames, next⟩ else none

def close? : List Frame → Option Building
  | .array items :: outer => deliver? outer (.array items.reverse)
  | .object members :: outer => deliver? outer (.object members)
  | .embedded document :: outer => deliver? outer document
  | _ => none

/-- A string is a value, or the text of a document, which `read` reads. -/
def string? (read : String → Option Tree) (frames : List Frame) (s : String) : Option Building :=
  match frames with
  | .embedding :: outer => (read s).map fun document => ⟨.embedded document :: outer, .separator⟩
  | _ => deliver? frames (.string s)

def value? (read : String → Option Tree) (frames : List Frame) : Token → Option Building
  | .openArray => open? frames (.array []) .element
  | .openObject => open? frames (.object []) .member
  | .null => deliver? frames .null
  | .bool b => deliver? frames (.bool b)
  | .number n => n.value?.bind fun v => deliver? frames (.number v)
  | .string parts => (decodeString? parts).bind fun s => string? read frames s
  | _ => none

def key? : List Frame → Token → Option Building
  | .object members :: outer, .string parts =>
    (decodeString? parts).map fun s => ⟨.member members s :: outer, .colon⟩
  | _, _ => none

def firstKey? (frames : List Frame) (t : Token) : Option Building :=
  (key? frames t).map fun b =>
    match b.frames with
    | .member _ key :: outer =>
      if key = embeddingKey then { b with frames := .embedding :: outer } else b
    | _ => b

def step? (read : String → Option Tree) (b : Building) (t : Token) : Option Building :=
  match b.next with
  | .value => value? read b.frames t
  | .element => if t = .closeArray then close? b.frames else value? read b.frames t
  | .member => if t = .closeObject then close? b.frames else firstKey? b.frames t
  | .key => key? b.frames t
  | .colon => if t = .colon then some { b with next := .value } else none
  | .separator =>
    match b.frames, t with
    | .array _ :: _, .comma => some { b with next := .value }
    | .array _ :: _, .closeArray => close? b.frames
    | .object _ :: _, .comma => some { b with next := .key }
    | .object _ :: _, .closeObject => close? b.frames
    | .embedded _ :: _, .closeObject => close? b.frames
    | _, _ => none
  | .done _ => none

def result? (b : Building) : Option Tree :=
  match b.next with
  | .done t => some t
  | _ => none

end Building

/-- The document that a text holds, with fewer than `fuel` texts one within another inside it. -/
def parseWithin? : (fuel : Nat) → (text : String) → Option Tree
  | 0, _ => none
  | fuel + 1, text => do
    let ts ← tokens? text.toList
    let b ← ts.foldlM (Building.step? (parseWithin? fuel)) Building.start
    b.result?

/-- The document that a text holds. A text within it is shorter than it is, so that the fuel is
enough. -/
def parse? (text : String) : Option Tree := parseWithin? (text.length + 1) text

end QueryMapping.Json
