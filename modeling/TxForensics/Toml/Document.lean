import TxForensics.Toml.Scalar

/-!
# TOML documents

A TOML text is a sequence of lines, each of which is blank, gives a value to a key, or opens a
table or an element of an array of tables. `Toml.parse` accepts exactly the texts that follow the
grammar of version 1.1 and define nothing twice, and yields the table at the top.

A key with dots creates the tables on its way, and so does a header. Which of the two gave rise to
a table decides what may still be added to it (`TableOrigin`): a header opens a table once, dotted
keys add only to tables that no header has opened, and no header opens what they have added to.
-/

namespace TxForensics

namespace Toml

inductive TableOrigin where
  /-- A header opened it. -/
  | opened
  /-- It lies on the way of a header. -/
  | passed
  /-- A dotted key created it or has added to it. -/
  | dotted
deriving DecidableEq, Repr

inductive Node where
  | leaf (v : TomlValue)
  | table (origin : TableOrigin) (members : List (String × Node))
  /-- An array of tables, the last one first. -/
  | tables (elements : List (List (String × Node)))

abbrev Members := List (String × Node)

/-- Puts a node in the place of the one with its key, or at the end. -/
def put (key : String) (node : Node) : Members → Members
  | [] => [(key, node)]
  | (k, n) :: rest => if k = key then (key, node) :: rest else (k, n) :: put key node rest

/-- Changes the table at the end of a path of keys, creating the tables on the way. Dotted keys do
not pass tables that a header opened, and the table they lead to counts as dotted. -/
def updateAt (origin : TableOrigin) (isDotted : Bool)
    (f : TableOrigin → Members → Option Members) : List String → Members → Option Members
  | [], members => f origin members
  | key :: path, members => do
    match members.lookup key with
    | none =>
      let created : TableOrigin := if isDotted then .dotted else .passed
      let table ← updateAt created isDotted f path []
      return put key (.table created table) members
    | some (.leaf _) => none
    | some (.table origin table) =>
      guard !(isDotted && origin = .opened)
      let table ← updateAt origin isDotted f path table
      let reached : TableOrigin := if isDotted && path.isEmpty then .dotted else origin
      return put key (.table reached table) members
    | some (.tables []) => none
    | some (.tables (last :: before)) =>
      let last ← updateAt .opened isDotted f path last
      return put key (.tables (last :: before)) members

/-- Adds a value to the table in which its key is written. Where the key has dots, the table that
gets the value must not be one that a header opened. -/
def addValue (path : List String) (key : String) (value : TomlValue) (members : Members) :
    Option Members :=
  updateAt .opened true (fun origin members => do
    guard (path.isEmpty || origin ≠ .opened)
    guard (members.lookup key).isNone
    return members ++ [(key, .leaf value)]) path members

/-- Opens the table `key`, once. -/
def openTable (key : String) (members : Members) : Option Members :=
  match members.lookup key with
  | none => some (members ++ [(key, .table .opened [])])
  | some (.table .passed table) => some (put key (.table .opened table) members)
  | some _ => none

def openElement (key : String) (members : Members) : Option Members :=
  match members.lookup key with
  | none => some (members ++ [(key, .tables [[]])])
  | some (.tables elements) => some (put key (.tables ([] :: elements)) members)
  | some _ => none

mutual

def Node.value : Node → TomlValue
  | .leaf v => v
  | .table _ members => .table (membersValue members)
  | .tables elements => .array (elementsValue elements).reverse

def membersValue : List (String × Node) → List (String × TomlValue)
  | [] => []
  | (key, node) :: rest => (key, node.value) :: membersValue rest

def elementsValue : List (List (String × Node)) → List TomlValue
  | [] => []
  | members :: rest => .table (membersValue members) :: elementsValue rest

end

/-! ### Keys -/

def isKeyChar (c : Char) : Bool := c.isAlphanum || c == '_' || c == '-'

def readKey? (cs : List Char) : Option (String × List Char) :=
  match cs with
  | '"' :: rest => (readBasic? (rest.length + 1) rest).map fun (key, rest) => (.ofList key, rest)
  | '\x27' :: rest => (readLiteral? rest).map fun (key, rest) => (.ofList key, rest)
  | cs =>
    let key := cs.takeWhile isKeyChar
    if key.isEmpty then none else some (.ofList key, cs.dropWhile isKeyChar)

/-- Reads a key with its dots, and the blank characters around them. -/
def readPath? : Nat → List Char → Option (List String × List Char)
  | 0, _ => none
  | fuel + 1, cs => do
    let (key, rest) ← readKey? (cs.dropWhile isSpace)
    match rest.dropWhile isSpace with
    | '.' :: rest =>
      let (path, rest) ← readPath? fuel rest
      return (key :: path, rest)
    | rest => return ([key], rest)

/-- How many parts a key may have, and how deep values may be nested. -/
def depthLimit : Nat := 80

/-- Reads a key as its way and its last part. -/
def readKeyPath? (cs : List Char) : Option ((List String × String) × List Char) := do
  let (path, rest) ← readPath? depthLimit cs
  let key ← path.getLast?
  return ((path.dropLast, key), rest)

/-! ### Values -/

def skipComment (cs : List Char) : List Char :=
  match cs with
  | '#' :: cs => cs.dropWhile isContent
  | cs => cs

def skipLines : Nat → List Char → List Char
  | 0, cs => cs
  | fuel + 1, cs =>
    let cs := skipComment (cs.dropWhile isSpace)
    match afterNewline? cs with
    | some rest => skipLines fuel rest
    | none => cs

/-- What follows blank characters, comments and line ends in an array or an inline table. -/
def skipAll (cs : List Char) : List Char := skipLines (cs.length + 1) cs

mutual

/-- Reads a value in which others may be nested `depth` levels deep. -/
def readValue? : Nat → Nat → List Char → Option (TomlValue × List Char)
  | 0, _, _ => none
  | fuel + 1, depth, cs =>
    match cs with
    | '[' :: rest => do
      guard (0 < depth)
      let (items, rest) ← readItems? fuel (depth - 1) rest
      return (.array items, rest)
    | '{' :: rest => do
      guard (0 < depth)
      let (members, rest) ← readMembers? fuel (depth - 1) [] rest
      return (.table (membersValue members), rest)
    | '"' :: _ => (readString? cs).map fun (s, rest) => (.text (.ofList s), rest)
    | '\x27' :: _ => (readString? cs).map fun (s, rest) => (.text (.ofList s), rest)
    | cs => readWord? cs

def readItems? : Nat → Nat → List Char → Option (List TomlValue × List Char)
  | 0, _, _ => none
  | fuel + 1, depth, cs =>
    match skipAll cs with
    | ']' :: rest => some ([], rest)
    | cs => do
      let (item, rest) ← readValue? fuel depth cs
      match skipAll rest with
      | ']' :: rest => return ([item], rest)
      | ',' :: rest =>
        let (items, rest) ← readItems? fuel depth rest
        return (item :: items, rest)
      | _ => none

def readMembers? : Nat → Nat → Members → List Char → Option (Members × List Char)
  | 0, _, _, _ => none
  | fuel + 1, depth, members, cs =>
    match skipAll cs with
    | '}' :: rest => some (members, rest)
    | cs => do
      let ((path, key), rest) ← readKeyPath? cs
      let rest ← expect? '=' (skipAll rest)
      let (value, rest) ← readValue? fuel depth (skipAll rest)
      let members ← addValue path key value members
      match skipAll rest with
      | '}' :: rest => return (members, rest)
      | ',' :: rest => readMembers? fuel depth members rest
      | _ => none

end

/-! ### Lines -/

/-- A document up to some line: its table, and the header under which the next line stands. -/
structure Progress where
  members : Members := []
  header : List String := []

def afterLine? (cs : List Char) : Option (List Char) :=
  match skipComment (cs.dropWhile isSpace) with
  | [] => some []
  | cs => afterNewline? cs

def readHeader? (isElement : Bool) (p : Progress) (cs : List Char) :
    Option (Progress × List Char) := do
  let ((path, key), rest) ← readKeyPath? cs
  let rest ← expect? ']' rest
  let rest ← if isElement then expect? ']' rest else some rest
  let addTo (_ : TableOrigin) (members : Members) : Option Members :=
    if isElement then openElement key members else openTable key members
  let members ← updateAt .opened false addTo path p.members
  return (⟨members, path ++ [key]⟩, rest)

def readKeyValue? (p : Progress) (cs : List Char) : Option (Progress × List Char) := do
  let ((path, key), rest) ← readKeyPath? cs
  let rest ← expect? '=' rest
  let (value, rest) ← readValue? (rest.length + 1) depthLimit (rest.dropWhile isSpace)
  let addTo (_ : TableOrigin) (members : Members) : Option Members :=
    addValue path key value members
  let members ← updateAt .opened false addTo p.header p.members
  return (⟨members, p.header⟩, rest)

def readLine? (p : Progress) (cs : List Char) : Option (Progress × List Char) :=
  match cs with
  | '[' :: '[' :: rest => readHeader? true p rest
  | '[' :: rest => readHeader? false p rest
  | cs => readKeyValue? p cs

/-- Reads lines, each of which takes a character at least. -/
def readDocument? : Nat → Progress → List Char → Option Members
  | 0, p, cs => if cs.isEmpty then some p.members else none
  | fuel + 1, p, cs =>
    match cs.dropWhile isSpace with
    | [] => some p.members
    | c :: rest =>
      match afterLine? (c :: rest) with
      | some rest => readDocument? fuel p rest
      | none => do
        let (p, rest) ← readLine? p (c :: rest)
        readDocument? fuel p (← afterLine? rest)

/-- The table of a text, if it is TOML. A byte order mark in front does not count. -/
def parse (text : String) : Option (List (String × TomlValue)) :=
  let cs := text.toList
  let cs := if cs.head? = some (.ofNat 0xFEFF) then cs.drop 1 else cs
  (readDocument? (cs.length + 1) {} cs).map membersValue

end Toml

end TxForensics
