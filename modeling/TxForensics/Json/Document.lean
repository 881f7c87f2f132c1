import TxForensics.Json.Token
import TxForensics.SortedMap

/-!
# JSON documents, read as far as they go

A JSON text as a tree that may break off: where the text is not JSON or ends too early, the arrays
and objects that are open at that place end in the error. A consumer that walks a document in the
order of its text meets the mistakes of the text and its own complaints in that order, and the
parts that it skips do not concern it.

`Document.tree` is the consumer that wants everything: it accepts nothing that breaks off or is
nested too deeply, and lists the members of objects by their keys, the last one of each key.
-/

namespace TxForensics

mutual

inductive Document where
  | null
  | bool (b : Bool)
  | number (n : JsonNumber)
  | text (s : String)
  | array (items : DocumentItems)
  | object (members : DocumentMembers)
  /-- A value that cannot be used. -/
  | unreadable (e : JsonReadError)

inductive DocumentItems where
  | nil
  | cons (item : Document) (rest : DocumentItems)
  /-- The text breaks off. -/
  | stop (e : JsonReadError)

inductive DocumentMembers where
  | nil
  | cons (key : Except JsonReadError String) (value : Document) (rest : DocumentMembers)
  /-- The text breaks off. -/
  | stop (e : JsonReadError)

end

namespace Document

instance : Inhabited Document := ⟨null⟩

/-! ### Documents of tokens -/

/-- A part of a document, with the tokens behind it or the error in which the text breaks off. -/
structure Parsed (α : Type) where
  value : α
  rest : Except JsonReadError (List JsonToken)

/-- The part at which the text breaks off. -/
def Parsed.broken (value : α) (e : JsonReadError) : Parsed α := ⟨value, .error e⟩

/-- A part in which the text breaks off in the same way for every reader. -/
def Parsed.unreadable (e : JsonReadError) : Parsed Document := .broken (.unreadable e) e

mutual

def parseValue : Nat → List JsonToken → Parsed Document
  | 0, _ => .unreadable .malformed
  | _, [] => .unreadable .endOfText
  | fuel + 1, token :: rest =>
    match token with
    | .null => ⟨.null, .ok rest⟩
    | .bool b => ⟨.bool b, .ok rest⟩
    | .number (some n) => ⟨.number n, .ok rest⟩
    | .number none => ⟨.unreadable .malformed, .ok rest⟩
    | .text (some s) => ⟨.text s, .ok rest⟩
    | .text none => ⟨.unreadable .malformed, .ok rest⟩
    | .brokenText b => .broken (.unreadable b.used) b.skipped
    | .broken b => .broken (.unreadable b.used) b.skipped
    | .openBracket =>
      match rest with
      -- nothing has been read of the array, so the text ends in it and not in an item
      | [] => .broken (.array (.stop .endOfText)) .endOfText
      | .closeBracket :: rest => ⟨.array .nil, .ok rest⟩
      | rest =>
        let items := parseItems fuel rest
        ⟨.array items.value, items.rest⟩
    | .openBrace =>
      match rest with
      | .closeBrace :: rest => ⟨.object .nil, .ok rest⟩
      | rest =>
        let members := parseMembers fuel rest
        ⟨.object members.value, members.rest⟩
    | .closeBracket => .unreadable .malformed
    | .closeBrace => .unreadable .malformed
    | .comma => .unreadable .malformed
    | .colon => .unreadable .malformed

def parseItems : Nat → List JsonToken → Parsed DocumentItems
  | 0, _ => .broken (.stop .malformed) .malformed
  | fuel + 1, tokens =>
    let item := parseValue fuel tokens
    match item.rest with
    | .error e => .broken (.cons item.value (.stop e)) e
    | .ok [] => .broken (.cons item.value (.stop .endOfText)) .endOfText
    | .ok (.closeBracket :: rest) => ⟨.cons item.value .nil, .ok rest⟩
    | .ok (.comma :: rest) =>
      let items := parseItems fuel rest
      ⟨.cons item.value items.value, items.rest⟩
    | .ok (_ :: _) => .broken (.cons item.value (.stop .malformed)) .malformed

def parseMembers : Nat → List JsonToken → Parsed DocumentMembers
  | 0, _ => .broken (.stop .malformed) .malformed
  | _, [] => .broken (.stop .endOfText) .endOfText
  | fuel + 1, .text s :: rest =>
    let key : Except JsonReadError String :=
      match s with
      | some s => .ok s
      | none => .error .malformed
    match rest with
    | .colon :: rest =>
      let value := parseValue fuel rest
      match value.rest with
      | .error e => .broken (.cons key value.value (.stop e)) e
      | .ok [] => .broken (.cons key value.value (.stop .endOfText)) .endOfText
      | .ok (.closeBrace :: rest) => ⟨.cons key value.value .nil, .ok rest⟩
      | .ok (.comma :: rest) =>
        let members := parseMembers fuel rest
        ⟨.cons key value.value members.value, members.rest⟩
      | .ok (_ :: _) => .broken (.cons key value.value (.stop .malformed)) .malformed
    | [] => .broken (.cons key (.unreadable .endOfText) (.stop .endOfText)) .endOfText
    | _ :: _ => .broken (.cons key (.unreadable .malformed) (.stop .malformed)) .malformed
  | _, .brokenText b :: _ =>
    .broken (.cons (.error b.used) (.unreadable b.used) (.stop b.skipped)) b.skipped
  | _, _ :: _ => .broken (.stop .malformed) .malformed

end

/-- A whole text: its value, and whether nothing follows it. -/
structure Whole where
  root : Document
  ends : Bool

/-- Reads a whole text. Of two calls inside one another at least one takes a token, so twice the
number of tokens bounds the depth of the calls. -/
def ofTokens (tokens : List JsonToken) : Whole :=
  let root := parseValue (2 * tokens.length + 1) tokens
  match root.rest with
  | .ok [] => ⟨root.value, true⟩
  | _ => ⟨root.value, false⟩

def ofText (s : String) : Whole := ofTokens (JsonToken.tokenize s.toList)

/-! ### Documents and trees -/

mutual

def ofJson : Json → Document
  | .null => .null
  | .bool b => .bool b
  | .number n => .number n
  | .text s => .text s
  | .array items => .array (itemsOfJson items)
  | .object ms => .object (membersOfJson ms)

def itemsOfJson : List Json → DocumentItems
  | [] => .nil
  | j :: js => .cons (ofJson j) (itemsOfJson js)

def membersOfJson : List (String × Json) → DocumentMembers
  | [] => .nil
  | (k, j) :: ms => .cons (.ok k) (ofJson j) (membersOfJson ms)

end

mutual

/-- The tree of a document in which arrays and objects may be nested `depth` levels deep. -/
def tree (depth : Nat) : Document → Except JsonReadError Json
  | .null => .ok .null
  | .bool b => .ok (.bool b)
  | .number n => .ok (.number n)
  | .text s => .ok (.text s)
  | .unreadable e => .error e
  | .array items =>
    if depth = 0 then .error .malformed else (treeItems (depth - 1) items).map .array
  | .object members =>
    if depth = 0 then .error .malformed else (treeMembers (depth - 1) [] members).map .object

def treeItems (depth : Nat) : DocumentItems → Except JsonReadError (List Json)
  | .nil => .ok []
  | .stop e => .error e
  | .cons item rest =>
    match tree depth item with
    | .error e => .error e
    | .ok j =>
      match treeItems depth rest with
      | .error e => .error e
      | .ok js => .ok (j :: js)

def treeMembers (depth : Nat) (before : List (String × Json)) :
    DocumentMembers → Except JsonReadError (List (String × Json))
  | .nil => .ok before
  | .stop e => .error e
  | .cons key value rest =>
    match key with
    | .error e => .error e
    | .ok k =>
      match tree depth value with
      | .error e => .error e
      | .ok j => treeMembers depth (insertByKey k j before) rest

end

end Document

namespace Json

/-- How deep arrays and objects of a text may be nested in a tree. -/
def depthLimit : Nat := 127

def parse (s : String) : Except JsonReadError Json :=
  let whole := Document.ofText s
  match whole.root.tree depthLimit with
  | .error e => .error e
  | .ok j => if whole.ends then .ok j else .error .malformed

end Json

end TxForensics
