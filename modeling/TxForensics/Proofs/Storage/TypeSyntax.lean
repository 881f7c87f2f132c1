import TxForensics.Proofs.Source.Declaration
import TxForensics.Proofs.Storage.Packing

/-!
# Two spellings of a type

A compiler writes the type of a state variable in two ways: as an identifier, such as
`t_struct(Point)10_storage`, and as a label, such as `struct Point`. `SolidityType` is the syntax
behind both, and `shown` is how a reader expects a word of the type to be shown; both spellings show
it that way (`renderStorageValue_of_spelling`).

Names may end like a location, as in `struct user_storage`, and `ValueType.bareType` cuts such an
ending off a name as well. But no ending has a bracket or a blank in it, so the word in front of one
is kept, whatever stands behind it (`withoutLocation_append`), and that word alone decides:

    declared ──trim, strip──▶ word, bracket or blank, what is kept ──▶ valueType ──render──▶ shown
-/

namespace TxForensics

/-! ## Names -/

/-- A name: letters, digits, underscores and dollar signs, with no digit in front. -/
structure Identifier where
  text : String
  starts : text.toList.head?.any Declaration.isNameStart
  continues : ∀ c ∈ text.toList, Declaration.isNameChar c

theorem isBlank_of_isNameChar {c : Char} (h : Declaration.isNameChar c) :
    Text.isBlank c = false := by
  rcases (Bool.or_eq_true _ _).mp h with hstart | hdigit
  · exact Declaration.not_isBlank_of_isNameStart hstart
  · exact Text.Numeral.isBlank_of_isDigit hdigit

namespace Identifier

variable (name : Identifier) (scope : List Identifier)

def qualified : List Identifier → String
  | [] => name.text
  | outer :: scope => outer.text ++ "." ++ qualified scope

theorem text_ne_nil : name.text.toList ≠ [] := by
  intro h
  have hstarts := name.starts
  rw [h] at hstarts
  cases hstarts

theorem qualified_ne_nil : (name.qualified scope).toList ≠ [] := by
  cases scope with
  | nil => exact name.text_ne_nil
  | cons outer scope => simp [qualified]

/-- A qualified name has the characters of names in it, and dots. -/
theorem mem_qualified {c : Char} (h : c ∈ (name.qualified scope).toList) :
    Declaration.isNameChar c ∨ c = '.' := by
  induction scope with
  | nil => exact .inl (name.continues c h)
  | cons outer scope ih =>
    simp only [qualified, String.toList_append, List.mem_append] at h
    rcases h with (h | h) | h
    · exact .inl (outer.continues c h)
    · exact .inr (by simpa using h)
    · exact ih h

theorem isBlank_of_mem_qualified {c : Char} (h : c ∈ (name.qualified scope).toList) :
    Text.isBlank c = false := by
  rcases name.mem_qualified scope h with h | rfl
  · exact isBlank_of_isNameChar h
  · decide

theorem not_bracket_mem_qualified : ']' ∉ (name.qualified scope).toList := by
  intro h
  exact absurd (name.mem_qualified scope h) (by decide)

end Identifier

/-! ## Types -/

inductive Location where
  | storage
  | storagePointer
  | memory
  | calldata

def Location.ending : Location → String
  | storage => "_storage"
  | storagePointer => "_storage_ptr"
  | memory => "_memory_ptr"
  | calldata => "_calldata_ptr"

/-- The types of state variables. Contracts, enumerations and structures are numbered besides being
named, and enumerations and structures may be declared inside of other things. -/
inductive SolidityType where
  /-- Unsigned integers, addresses, fixed bytes and truth values. -/
  | field (type : FieldType)
  /-- Signed integers of so many bytes. -/
  | int (size : Nat) (fits : 0 < size ∧ size ≤ wordSize)
  | addressPayable
  | string
  | bytes
  | contract (name : Identifier) (id : Nat)
  | enumeration (scope : List Identifier) (name : Identifier) (id : Nat)
  | struct (scope : List Identifier) (name : Identifier) (id : Nat)
  | mapping (key value : SolidityType)
  | array (element : SolidityType) (length : Nat)
  | dynamicArray (element : SolidityType)

namespace SolidityType

open Text.Numeral (decimal)

def bracketed (word inner behind : String) : String := "t_" ++ word ++ "(" ++ inner ++ ")" ++ behind

/-- The identifier of a type, at a location if it is held by reference. The keys of a mapping are in
memory, its values in storage. -/
def identifier : SolidityType → Location → String
  | field type, _ => "t_" ++ type.label
  | int size _, _ => "t_" ++ ("int" ++ decimal (8 * size))
  | addressPayable, _ => "t_address_payable"
  | string, place => "t_string" ++ place.ending
  | bytes, place => "t_bytes" ++ place.ending
  | contract name id, _ => bracketed "contract" name.text (decimal id)
  | enumeration _ name id, _ => bracketed "enum" name.text (decimal id)
  | struct _ name id, place => bracketed "struct" name.text (decimal id ++ place.ending)
  | mapping key value, _ =>
    bracketed "mapping" (key.identifier .memory ++ "," ++ value.identifier .storage) ""
  | array element length, place =>
    bracketed "array" (element.identifier place) (decimal length ++ place.ending)
  | dynamicArray element, place =>
    bracketed "array" (element.identifier place) ("dyn" ++ place.ending)

def titled (word name : String) : String := word ++ " " ++ name

/-- The type as a source file writes it. -/
def label : SolidityType → String
  | field type => type.label
  | int size _ => "int" ++ decimal (8 * size)
  | addressPayable => "address payable"
  | string => "string"
  | bytes => "bytes"
  | contract name _ => titled "contract" name.text
  | enumeration scope name _ => titled "enum" (name.qualified scope)
  | struct scope name _ => titled "struct" (name.qualified scope)
  | mapping key value => "mapping(" ++ key.label ++ " => " ++ value.label ++ ")"
  | array element length => element.label ++ "[" ++ decimal length ++ "]"
  | dynamicArray element => element.label ++ "[]"

/-- How a reader expects a word to be shown: integers and enumerations in decimal, addresses and
contracts by their 20 bytes, strings by what is in the slot of them, and by the whole word what has
no form of its own. -/
def shown (w : Word) : SolidityType → String
  | field type => type.shown w.toNat
  | int _ _ | enumeration _ _ _ => decimal w.toNat
  | addressPayable | contract _ _ => Hex.prefixed (bigEndian 20 w.toNat)
  | string => ValueType.showString (ValueType.shortString? w)
  | bytes | struct _ _ _ | mapping _ _ | array _ _ | dynamicArray _ =>
    Hex.prefixed (bigEndian wordSize w.toNat)

/-- What the type means for showing a value, declared by one of its spellings. -/
def valueType (declared : String) : SolidityType → ValueType
  | field type => type.valueType
  | int size _ => .int (8 * size)
  | addressPayable | contract _ _ => .address
  | string => .string
  | bytes => .bytes
  | enumeration _ _ _ => .uint 8
  | struct _ _ _ | mapping _ _ | array _ _ | dynamicArray _ => .other declared

theorem render_valueType (t : SolidityType) (w : Word) (declared : String) :
    ValueType.render w (t.valueType declared) = t.shown w := by
  have hhex : w.hex = Hex.prefixed (bigEndian wordSize w.toNat) := by
    rw [Word.hex, w.bytes_eq_bigEndian]
  cases t with
  | field type => exact type.render_valueType w
  | int | enumeration => rfl
  | addressPayable | contract =>
    show Hex.prefixed (w.lastBytes 20) = Hex.prefixed (bigEndian 20 w.toNat)
    rw [w.lastBytes_eq_bigEndian (by decide)]
  | string => exact ValueType.renderString_eq w
  | bytes | struct | mapping | array | dynamicArray => exact hhex

end SolidityType

/-! ## Bare types -/

namespace ValueType

variable {declared : String} {cs rest : List Char}

/-- A text that begins with another character does not have the word in front. -/
theorem after?_eq_none {word : String} (hword : word.toList.head?.isSome)
    (hcs : cs.head? ≠ word.toList.head?) : Text.after? word cs = none := by
  rw [Option.eq_none_iff_forall_ne_some]
  intro rest hrest
  apply hcs
  rw [Text.after?_eq_some_iff.mp hrest, List.head?_append, Option.or_of_isSome hword]

def withoutLocation (cs : List Char) : List Char :=
  (locationEndings.findSome? (Text.before? · cs)).getD cs

/-- No location ends with a bracket, so nothing is taken off behind one. -/
theorem withoutLocation_of_getLast? (h : cs.getLast? = some ']') : withoutLocation cs = cs := by
  have hnone : locationEndings.findSome? (Text.before? · cs) = none := by
    rw [List.findSome?_eq_none_iff]
    intro ending hending
    rw [Option.eq_none_iff_forall_ne_some]
    intro front hfront
    have hall : ∀ ending ∈ locationEndings,
        ending.toList.getLast?.isSome ∧ ']' ∉ ending.toList := by decide
    obtain ⟨hsome, hnot⟩ := hall ending hending
    rw [Text.before?_eq_some_iff.mp hfront, List.getLast?_append, Option.or_of_isSome hsome] at h
    exact hnot (List.mem_of_getLast? h)
  rw [withoutLocation, hnone]
  rfl

/-- What is taken off the end has neither brackets nor blanks in it. -/
theorem withoutLocation_append {sep : Char} (hsep : sep = '(' ∨ sep = ' ') (front : List Char) :
    ∃ kept, withoutLocation (front ++ sep :: rest) = front ++ sep :: kept ∧ kept <+: rest := by
  unfold withoutLocation
  cases h : locationEndings.findSome? (Text.before? · (front ++ sep :: rest)) with
  | none => exact ⟨rest, rfl, List.prefix_rfl⟩
  | some kept =>
    obtain ⟨ending, hending, hbefore⟩ := List.exists_of_findSome?_eq_some h
    have hnot : sep ∉ ending.toList := by
      have hall : ∀ ending ∈ locationEndings, '(' ∉ ending.toList ∧ ' ' ∉ ending.toList := by
        decide
      rcases hsep with rfl | rfl
      · exact (hall ending hending).1
      · exact (hall ending hending).2
    -- the ending is taken off behind the separator, since it does not have it inside
    rcases List.append_eq_append_iff.mp (Text.before?_eq_some_iff.mp hbefore) with
      ⟨middle, rfl, hmiddle⟩ | ⟨middle, -, htail⟩
    · cases middle with
      | nil =>
        rw [List.nil_append] at hmiddle
        exact absurd (hmiddle ▸ List.mem_cons_self) hnot
      | cons c middle =>
        obtain ⟨rfl, rfl⟩ := List.cons.inj hmiddle
        exact ⟨middle, rfl, List.prefix_append _ _⟩
    · exact absurd (htail ▸ List.mem_append_right middle List.mem_cons_self) hnot

/-- The text begins neither with a blank character nor with the mark of an identifier. -/
def beginsWord (cs : List Char) : Bool := cs.head?.any fun c => !Text.isBlank c && c != 't'

theorem beginsWord_append {front : List Char} (h : beginsWord front) (rest : List Char) :
    beginsWord (front ++ rest) := by
  cases front with
  | nil => cases h
  | cons c front => exact h

def endsWord (cs : List Char) : Bool := cs.getLast?.any fun c => !Text.isBlank c

theorem endsWord_append {back : List Char} (h : endsWord back) (front : List Char) :
    endsWord (front ++ back) := by
  cases hlast : back.getLast? with
  | none =>
    rw [endsWord, hlast] at h
    cases h
  | some c =>
    rw [endsWord, List.getLast?_append, hlast, Option.some_or, ← hlast]
    exact h

theorem endsWord_of_forall (hne : cs ≠ []) (h : ∀ c ∈ cs, Text.isBlank c = false) :
    endsWord cs := by
  cases hlast : cs.getLast? with
  | none => exact absurd (List.getLast?_eq_none_iff.mp hlast) hne
  | some c => simp [endsWord, hlast, h c (List.mem_of_getLast? hlast)]

/-- Nothing is trimmed off a text whose ends are not blank. -/
theorem trim_of_ends {c : Char} (hhead : cs.head? = some c) (hc : Text.isBlank c = false)
    (hends : endsWord cs) : Text.trim cs = cs := by
  apply Text.trim_eq_self_of_ends
  · intro d hd
    rw [hhead] at hd
    obtain rfl := Option.some.inj hd
    exact hc
  · intro d hd
    rw [endsWord, hd] at hends
    simpa using hends

/-- Without the mark of an identifier the type is the text without its location. -/
theorem bareType_of_beginsWord (h : beginsWord declared.toList) (hends : endsWord declared.toList) :
    bareType declared = withoutLocation declared.toList := by
  cases hhead : declared.toList.head? with
  | none =>
    rw [beginsWord, hhead] at h
    cases h
  | some c =>
    obtain ⟨hblank, hmark⟩ : Text.isBlank c = false ∧ c ≠ 't' := by
      rw [beginsWord, hhead] at h
      simpa using h
    have hafter : Text.after? "t_" declared.toList = none := by
      apply after?_eq_none (by decide)
      rw [hhead]
      exact fun heq => hmark (Option.some.inj heq)
    rw [bareType, trim_of_ends hhead hblank hends, hafter]
    rfl

/-- With the mark it is what stands behind the mark, without its location. -/
theorem bareType_of_mark (h : declared.toList = "t_".toList ++ cs)
    (hends : endsWord declared.toList) : bareType declared = withoutLocation cs := by
  have hhead : declared.toList.head? = some 't' := by
    rw [h]
    rfl
  rw [bareType, trim_of_ends hhead (by decide) hends, Text.after?_eq_some_iff.mpr h]
  rfl

/-- The mark of an identifier says nothing about the type. -/
theorem parse_mark {t : ValueType} (hbegins : beginsWord declared.toList)
    (hends : endsWord declared.toList) (h : parse declared = t) (hother : t ≠ .other declared) :
    parse ("t_" ++ declared) = t := by
  have htext : ("t_" ++ declared).toList = "t_".toList ++ declared.toList := String.toList_append ..
  have hbare : bareType ("t_" ++ declared) = bareType declared := by
    rw [bareType_of_beginsWord hbegins hends]
    exact bareType_of_mark htext (htext ▸ endsWord_append hends _)
  -- both spellings have the same bare type, which decides unless it is of no known kind
  unfold parse at h ⊢
  rw [hbare]
  dsimp only at h ⊢
  split at h
  · exact absurd h.symm hother
  · next hsimple =>
    rw [if_neg hsimple]
    cases hfound : (named? (bareType declared) <|> sized? (bareType declared)) with
    | none =>
      rw [hfound] at h
      exact absurd h.symm hother
    | some found =>
      rw [hfound] at h
      exact h

/-! ## Words in front -/

def typeWords : List String := ["contract", "enum", "struct", "mapping", "array"]

/-- A spelling that begins with a word, behind the mark of an identifier or not. The word ends at a
bracket or a blank. -/
structure BeginsWith (word : String) (rest : List Char) (declared : String) : Prop where
  known : word ∈ typeWords
  text : ∃ sep, (sep = '(' ∨ sep = ' ') ∧
    (declared.toList = word.toList ++ sep :: rest ∨
      declared.toList = "t_".toList ++ (word.toList ++ sep :: rest))
  ends : endsWord declared.toList

variable {word : String}

/-- The bare type has the word in front, and behind it a part of what was there. -/
theorem BeginsWith.exists_bareType (h : BeginsWith word rest declared) :
    ∃ tail, bareType declared = word.toList ++ tail ∧
      ∀ c ∈ tail, (c = '(' ∨ c = ' ') ∨ c ∈ rest := by
  obtain ⟨sep, hsep, htext⟩ := h.text
  have hbare : bareType declared = withoutLocation (word.toList ++ sep :: rest) := by
    rcases htext with htext | htext
    · have hall : ∀ word ∈ typeWords, beginsWord word.toList := by decide
      have hbegins : beginsWord declared.toList := by
        rw [htext]
        exact beginsWord_append (hall word h.known) _
      rw [bareType_of_beginsWord hbegins h.ends, htext]
    · exact bareType_of_mark htext h.ends
  obtain ⟨kept, hkept, hbegin⟩ := withoutLocation_append hsep word.toList
  refine ⟨sep :: kept, hbare.trans hkept, ?_⟩
  intro c hc
  rcases List.mem_cons.mp hc with rfl | hc
  · exact .inl hsep
  · exact .inr (hbegin.mem hc)

/-! ## Composite types -/

theorem parse_of_isComposite (h : isComposite (bareType declared) = true) :
    parse declared = .other declared := if_pos h

/-- Structures, mappings and arrays have no form of their own. -/
theorem BeginsWith.parse_composite (h : BeginsWith word rest declared)
    (hword : word ∈ ["array", "mapping", "struct"]) : parse declared = .other declared := by
  obtain ⟨tail, hbare, -⟩ := h.exists_bareType
  have hafter : (Text.after? word (bareType declared)).isSome := by
    rw [hbare, Text.after?_eq_some_iff.mpr rfl]
    rfl
  apply parse_of_isComposite
  rw [isComposite, Bool.or_eq_true, List.any_eq_true]
  exact .inr ⟨word, hword, hafter⟩

/-- Whatever stands in front, a bracket at the end makes an array. -/
theorem parse_of_bracket (hbegins : beginsWord declared.toList)
    (hlast : declared.toList.getLast? = some ']') : parse declared = .other declared := by
  have hends : endsWord declared.toList := by
    rw [endsWord, hlast]
    decide
  apply parse_of_isComposite
  rw [bareType_of_beginsWord hbegins hends, withoutLocation_of_getLast? hlast, isComposite, hlast]
  rfl

/-! ## Named types -/

/-- Neither a word in front nor a bracket at the end makes the type composite. -/
theorem isComposite_eq_false (hhead : cs.head? ∉ [some 'a', some 'm', some 's'])
    (hlast : ']' ∉ cs) : isComposite cs = false := by
  rw [isComposite, Bool.or_eq_false_iff, beq_eq_false_iff_ne, List.any_eq_false]
  constructor
  · exact fun h => hlast (List.mem_of_getLast? h)
  · intro word hword
    have hall : ∀ word ∈ ["array", "mapping", "struct"], word.toList.head?.isSome ∧
        word.toList.head? ∈ [some 'a', some 'm', some 's'] := by
      decide
    obtain ⟨hsome, hmem⟩ := hall word hword
    rw [after?_eq_none hsome fun heq => hhead (heq ▸ hmem)]
    decide

/-- Contracts and enumerations are known by their word. -/
theorem BeginsWith.parse_named {t : ValueType} (h : BeginsWith word rest declared)
    (hword : word ∈ ["contract", "enum"]) (hrest : ']' ∉ rest)
    (hnamed : ∀ tail, named? (word.toList ++ tail) = some t) : parse declared = t := by
  obtain ⟨tail, hbare, htail⟩ := h.exists_bareType
  have hall : ∀ word ∈ ["contract", "enum"], ']' ∉ word.toList ∧ word.toList.head?.isSome ∧
      word.toList.head? ∉ [some 'a', some 'm', some 's'] := by
    decide
  obtain ⟨hnot, hsome, hother⟩ := hall word hword
  have hhead : (bareType declared).head? ∉ [some 'a', some 'm', some 's'] := by
    rwa [hbare, List.head?_append, Option.or_of_isSome hsome]
  have hlast : ']' ∉ bareType declared := by
    rw [hbare, List.mem_append]
    rintro (hmem | hmem)
    · exact hnot hmem
    · exact (htail _ hmem).elim (by decide) hrest
  rw [parse, isComposite_eq_false hhead hlast, hbare, hnamed]
  rfl

theorem named?_contract (tail : List Char) :
    named? ("contract".toList ++ tail) = some .address := by
  simp [named?, Text.after?]

theorem named?_enum (tail : List Char) : named? ("enum".toList ++ tail) = some (.uint 8) := by
  simp [named?, Text.after?]

end ValueType

/-! ## Spellings -/

namespace SolidityType

open Text.Numeral (decimal)
open ValueType (BeginsWith typeWords beginsWord beginsWord_append endsWord endsWord_append
  endsWord_of_forall)

theorem isDigit_of_mem_decimal {n : Nat} {c : Char} (h : c ∈ (decimal n).toList) :
    c.isDigit = true := by
  rw [decimal, String.toList_ofList] at h
  exact Nat.isDigit_of_mem_toDigits (by decide) (by decide) h

theorem endsWord_decimal (n : Nat) : endsWord (decimal n).toList := by
  rw [decimal, String.toList_ofList]
  apply endsWord_of_forall Nat.toDigits_ne_nil
  intro c hc
  exact Text.Numeral.isBlank_of_isDigit (Nat.isDigit_of_mem_toDigits (by decide) (by decide) hc)

theorem endsWord_ending (place : Location) : endsWord place.ending.toList := by
  cases place <;> decide

theorem parse_int : ∀ size ≤ wordSize, 0 < size →
    ValueType.parse ("int" ++ decimal (8 * size)) = .int (8 * size) := by
  decide +kernel

theorem beginsWord_fieldLabel (type : FieldType) : beginsWord type.label.toList := by
  cases type with
  | uint bytes fits =>
    rw [FieldType.label, String.toList_append]
    exact beginsWord_append (by decide) _
  | fixedBytes count fits =>
    rw [FieldType.label, String.toList_append]
    exact beginsWord_append (by decide) _
  | address | bool => decide

/-- Every label begins with a word, and no word begins like the mark of identifiers. -/
theorem beginsWord_label (t : SolidityType) : beginsWord t.label.toList := by
  induction t with
  | field type => exact beginsWord_fieldLabel type
  | addressPayable | string | bytes => decide
  | int =>
    rw [label, String.toList_append]
    exact beginsWord_append (by decide) _
  | contract | enumeration | struct =>
    simp only [label, titled, String.toList_append, List.append_assoc]
    exact beginsWord_append (by decide) _
  | mapping key value =>
    simp only [label, String.toList_append, List.append_assoc]
    exact beginsWord_append (by decide) _
  | array element length ih | dynamicArray element ih =>
    simp only [label, String.toList_append, List.append_assoc]
    exact beginsWord_append ih _

theorem endsWord_fieldLabel (type : FieldType) : endsWord type.label.toList := by
  cases type with
  | uint bytes fits =>
    rw [FieldType.label, String.toList_append]
    exact endsWord_append (endsWord_decimal _) _
  | fixedBytes count fits =>
    rw [FieldType.label, String.toList_append]
    exact endsWord_append (endsWord_decimal _) _
  | address | bool => decide

/-- An identifier with brackets begins with its word. -/
theorem beginsWith_bracketed {word behind : String} (inner : String) (hword : word ∈ typeWords)
    (hbehind : endsWord (")" ++ behind).toList) :
    BeginsWith word (inner.toList ++ (")" ++ behind).toList) (bracketed word inner behind) := by
  have htext : (bracketed word inner behind).toList =
      "t_".toList ++ (word.toList ++ '(' :: (inner.toList ++ (")" ++ behind).toList)) := by
    simp [bracketed]
  refine ⟨hword, ⟨'(', .inl rfl, .inr htext⟩, ?_⟩
  rw [htext, ← List.cons_append, ← List.append_assoc, ← List.append_assoc]
  exact endsWord_append hbehind _

/-- So does the label of a type that is named. -/
theorem beginsWith_titled {word : String} (name : Identifier) (scope : List Identifier)
    (hword : word ∈ typeWords) :
    BeginsWith word (name.qualified scope).toList (titled word (name.qualified scope)) := by
  have hends : endsWord (name.qualified scope).toList :=
    endsWord_of_forall (name.qualified_ne_nil scope) fun _ => name.isBlank_of_mem_qualified scope
  refine ⟨hword, ⟨' ', .inr rfl, .inl (by simp [titled])⟩, ?_⟩
  rw [titled, String.toList_append]
  exact endsWord_append hends _

/-- What stands between the brackets and behind them has no bracket of an array in it. -/
theorem not_bracket_mem (name : Identifier) (id : Nat) :
    ']' ∉ name.text.toList ++ (")" ++ decimal id).toList := by
  intro h
  rw [String.toList_append, List.mem_append, List.mem_append] at h
  rcases h with h | h | h
  · exact name.not_bracket_mem_qualified [] h
  · exact absurd h (by decide)
  · exact absurd (isDigit_of_mem_decimal h) (by decide)

/-- An identifier is read as the type that it identifies. -/
theorem parse_identifier (t : SolidityType) (place : Location) :
    ValueType.parse (t.identifier place) = t.valueType (t.identifier place) := by
  have hid (id : Nat) : endsWord (")" ++ decimal id).toList := by
    rw [String.toList_append]
    exact endsWord_append (endsWord_decimal id) _
  have hplace (front : String) : endsWord (")" ++ (front ++ place.ending)).toList := by
    rw [String.toList_append, String.toList_append, ← List.append_assoc]
    exact endsWord_append (endsWord_ending place) _
  -- fields and integers have finitely many names; the other types are known by the word in front
  cases t with
  | field type =>
    refine ValueType.parse_mark (beginsWord_label (.field type)) (endsWord_fieldLabel type)
      type.parse_label ?_
    cases type <;> exact ValueType.noConfusion
  | int size fits =>
    have hends : endsWord ("int" ++ decimal (8 * size)).toList := by
      rw [String.toList_append]
      exact endsWord_append (endsWord_decimal _) _
    exact ValueType.parse_mark (beginsWord_label (.int size fits)) hends
      (parse_int size fits.2 fits.1) ValueType.noConfusion
  | addressPayable => exact (by decide +kernel : ValueType.parse "t_address_payable" = .address)
  | string => cases place <;> decide +kernel
  | bytes => cases place <;> decide +kernel
  | contract name id =>
    exact (beginsWith_bracketed name.text (by decide) (hid id)).parse_named (by decide)
      (not_bracket_mem name id) ValueType.named?_contract
  | enumeration scope name id =>
    exact (beginsWith_bracketed name.text (by decide) (hid id)).parse_named (by decide)
      (not_bracket_mem name id) ValueType.named?_enum
  | struct | array | dynamicArray =>
    exact (beginsWith_bracketed _ (by decide) (hplace _)).parse_composite (by decide)
  | mapping key value =>
    exact (beginsWith_bracketed _ (by decide) (by decide)).parse_composite (by decide)

/-- A label is read as the type that it names. -/
theorem parse_label (t : SolidityType) : ValueType.parse t.label = t.valueType t.label := by
  cases t with
  | field type => exact type.parse_label
  | int size fits => exact parse_int size fits.2 fits.1
  | addressPayable | string | bytes => decide +kernel
  | contract name id =>
    exact (beginsWith_titled name [] (by decide)).parse_named (by decide)
      (name.not_bracket_mem_qualified []) ValueType.named?_contract
  | enumeration scope name id =>
    exact (beginsWith_titled name scope (by decide)).parse_named (by decide)
      (name.not_bracket_mem_qualified scope) ValueType.named?_enum
  | struct scope name id =>
    exact (beginsWith_titled name scope (by decide)).parse_composite (by decide)
  | mapping key value =>
    have h : BeginsWith "mapping"
        (key.label.toList ++ (" => ".toList ++ (value.label ++ ")").toList))
        (label (.mapping key value)) := by
      refine ⟨by decide, ⟨'(', .inl rfl, .inl (by simp [label])⟩, ?_⟩
      rw [label, String.toList_append]
      exact endsWord_append (by decide) _
    exact h.parse_composite (by decide)
  | array | dynamicArray =>
    refine ValueType.parse_of_bracket (beginsWord_label _) ?_
    rw [label, String.toList_append, List.getLast?_append]
    rfl

variable (t : SolidityType) (w : Word)

theorem renderStorageValue_identifier (place : Location) :
    renderStorageValue w (t.identifier place) = t.shown w := by
  rw [renderStorageValue, parse_identifier, render_valueType]

/-- A word is shown as its type says if the type is declared by its label. -/
theorem renderStorageValue_label : renderStorageValue w t.label = t.shown w := by
  rw [renderStorageValue, parse_label, render_valueType]

/-- **Two spellings of a type.** A word is shown alike whether its type is declared by its
identifier, at whatever location, or by its label, and it is shown as a reader expects. -/
theorem renderStorageValue_of_spelling :
    (∀ place, renderStorageValue w (t.identifier place) = t.shown w) ∧
      renderStorageValue w t.label = t.shown w :=
  ⟨t.renderStorageValue_identifier w, t.renderStorageValue_label w⟩

/-- Cut off here is the end of a name, and the word in front tells a contract all the same. -/
example : ValueType.bareType "contract token_storage" = "contract token".toList ∧
    ValueType.parse "contract token_storage" = .address := by
  decide +kernel

end SolidityType

/-- A layout declares the type of a variable by the label if it describes the type, and by the
identifier otherwise. The variable is shown as one of that type in either case. -/
theorem StorageLayout.textIn_of_type {l : StorageLayout} {v : StateVariable} {t : SolidityType}
    {place : Location} (hid : v.typeId = t.identifier place)
    (hlabel : ∀ info, l.typeInfo? v = some info → info.label = t.label) (w : Word) :
    l.textIn v w = t.shown (l.contentOf v w) := by
  rw [textIn, typeName]
  cases hinfo : l.typeInfo? v with
  | none =>
    rw [Option.map_none, Option.getD_none, hid]
    exact t.renderStorageValue_identifier _ place
  | some info =>
    rw [Option.map_some, Option.getD_some, hlabel info hinfo]
    exact t.renderStorageValue_label _

end TxForensics
