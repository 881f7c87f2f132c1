import TxForensics.Proofs.Storage.Slice
import TxForensics.Proofs.Text.Numeral
import TxForensics.Proofs.Text.Utf8

/-!
# Which changes of a variable show

`VariableChange.differs` compares what is shown of the old and of the new content, so a change shows
if the type shows the two contents differently. Numerals and whole words always do. The other types
show a part of the content only (`Hides`): of a string its bytes, which a long one does not have in
its slot, of a truth value whether it is zero, of addresses and fixed bytes the lowest bytes. So a
variable whose type shows all bytes that it occupies hides no change (`differs_of_occupiedSize_le`),
but all headers of long strings are shown alike.

    differs ↔ the words differ in the range of the variable ∧ the type does not hide it
-/

namespace TxForensics

namespace ValueType

/-! ## Strings -/

/-- The bytes of the string with the slot word `w`; none if they are not in the slot. -/
def shortString? (w : Word) : Option Bytes :=
  let tag := (w.byte 0).toNat
  if w.isZero then some []
  else if tag = 0 ∨ tag % 2 = 1 ∨ tag > 2 * (wordSize - 1) then none
  else some (w.firstBytes (tag / 2))

def showString : Option Bytes → String
  | none => longString
  | some content =>
    match Text.Utf8.decode? content with
    | some cs => "\"" ++ .ofList cs ++ "\""
    | none => Hex.prefixed content

/-- A string variable is shown as the string that its slot holds. -/
theorem renderString_eq (w : Word) : renderString w = showString (shortString? w) := by
  unfold renderString shortString?
  dsimp only
  split
  · simp [showString, Text.Utf8.decode?, Text.Utf8.pieces]
  · split <;> rfl

theorem toList_showString_none : (showString none).toList = 's' :: "tring (long)".toList := by
  decide +kernel

theorem toList_showString_text {content : Bytes} {cs : List Char}
    (h : Text.Utf8.decode? content = some cs) :
    (showString (some content)).toList = '"' :: (cs ++ ['"']) := by
  simp [showString, h]

theorem toList_showString_bytes {content : Bytes} (h : Text.Utf8.decode? content = none) :
    (showString (some content)).toList = '0' :: 'x' :: Hex.encode content := by
  simp [showString, h, Hex.prefixed]

/-- A string of the slot is shown like no other and unlike a long one: the first character tells
the form, and within a form the bytes can be read back. -/
theorem showString_inj {s s' : Option Bytes} : showString s = showString s' ↔ s = s' := by
  constructor
  · intro h
    have hlist := congrArg String.toList h
    -- two forms differ in the first character, so only equal forms are left to be read back
    cases s with
    | none =>
      cases s' with
      | none => rfl
      | some content' =>
        rw [toList_showString_none] at hlist
        cases hdecode' : Text.Utf8.decode? content' with
        | some cs' => simp [toList_showString_text hdecode'] at hlist
        | none => simp [toList_showString_bytes hdecode'] at hlist
    | some content =>
      cases s' with
      | none =>
        rw [toList_showString_none] at hlist
        cases hdecode : Text.Utf8.decode? content with
        | some cs => simp [toList_showString_text hdecode] at hlist
        | none => simp [toList_showString_bytes hdecode] at hlist
      | some content' =>
        cases hdecode : Text.Utf8.decode? content with
        | some cs =>
          rw [toList_showString_text hdecode] at hlist
          cases hdecode' : Text.Utf8.decode? content' with
          | some cs' =>
            simp only [toList_showString_text hdecode', List.cons.injEq, true_and,
              List.append_cancel_right_eq] at hlist
            rw [Text.Utf8.decode?_injective hdecode (hlist ▸ hdecode')]
          | none => simp [toList_showString_bytes hdecode'] at hlist
        | none =>
          cases hdecode' : Text.Utf8.decode? content' with
          | some cs' =>
            simp [toList_showString_bytes hdecode, toList_showString_text hdecode'] at hlist
          | none =>
            simp only [showString, hdecode, hdecode'] at h
            rw [Hex.prefixed_inj.mp h]
  · rintro rfl
    rfl

/-- Two words are shown as the same string exactly when they hold the same one, or both none. -/
theorem renderString_eq_iff {v w : Word} :
    renderString v = renderString w ↔ shortString? v = shortString? w := by
  rw [renderString_eq, renderString_eq, showString_inj]

/-! ## All types -/

/-- Whether a type shows nothing of the difference between two contents. -/
def Hides (v w : Word) : ValueType → Prop
  | string => shortString? v = shortString? w
  | bool => v.isZero = false ∧ w.isZero = false
  | address => ∀ place < 20, v.byte place = w.byte place
  | fixedBytes count => ∀ place < count, v.byte place = w.byte place
  | uint _ | int _ | bytes | other _ => False

theorem renderBool_eq_iff {v w : Word} : render v bool = render w bool ↔ v.isZero = w.isZero := by
  rw [render, render]
  cases v.isZero with
  | false =>
    cases w.isZero with
    | false => simp
    | true => simp
  | true =>
    cases w.isZero with
    | false => simp
    | true => simp

/-- Truth values are shown alike exactly when both are zero, so the same, or neither is. -/
theorem isZero_eq_iff {v w : Word} :
    v.isZero = w.isZero ↔ v = w ∨ v.isZero = false ∧ w.isZero = false := by
  constructor
  · intro h
    cases hw : w.isZero with
    | false => exact .inr ⟨h.trans hw, rfl⟩
    | true =>
      have hv := h.trans hw
      simp only [Word.isZero, beq_iff_eq] at hv hw
      exact .inl (Word.ext (hv.trans hw.symm))
  · rintro (rfl | ⟨hv, hw⟩)
    · rfl
    · rw [hv, hw]

/-- Two words are shown alike exactly when they are the same or their difference is hidden. -/
theorem render_eq_iff {v w : Word} {t : ValueType} :
    render v t = render w t ↔ v = w ∨ t.Hides v w := by
  -- for a type that shows a part of the content, `Hides` holds of equal words already
  cases t with
  | string =>
    rw [render, render, renderString_eq_iff, Hides]
    exact (or_iff_right_of_imp fun h => h ▸ rfl).symm
  | bool => rw [renderBool_eq_iff, isZero_eq_iff, Hides]
  | address =>
    rw [render, render, Hex.prefixed_inj, Word.lastBytes_eq_iff, Hides]
    exact (or_iff_right_of_imp fun h _ _ => h ▸ rfl).symm
  | fixedBytes count =>
    rw [render, render, Hex.prefixed_inj, Word.lastBytes_eq_iff, Hides]
    exact (or_iff_right_of_imp fun h _ _ => h ▸ rfl).symm
  | uint bits =>
    rw [render, render, Text.Numeral.decimal_inj, ← Word.ext_iff, Hides, or_false]
  | int bits =>
    rw [render, render, Text.Numeral.decimal_inj, ← Word.ext_iff, Hides, or_false]
  | bytes => rw [render, render, Word.hex_inj, Hides, or_false]
  | other declared => rw [render, render, Word.hex_inj, Hides, or_false]

/-- How many of the lowest bytes of a content a type shows one by one. -/
def shownBytes : ValueType → Nat
  | string | bool => 0
  | address => 20
  | fixedBytes count => count
  | uint _ | int _ | bytes | other _ => wordSize

/-- A type hides nothing of a content that it shows in full. -/
theorem slice_eq_of_hides {v w : Word} {t : ValueType} {offset size : Nat} (hsize : size ≤ wordSize)
    (hshown : size ≤ t.shownBytes) (h : t.Hides (v.slice offset size) (w.slice offset size)) :
    v.slice offset size = w.slice offset size := by
  -- what is hidden agrees in the bytes that the type shows one by one
  have hbytes : ∀ place < t.shownBytes,
      (v.slice offset size).byte place = (w.slice offset size).byte place := by
    cases t with
    | string | bool => exact fun _ hplace => absurd hplace (Nat.not_lt_zero _)
    | address | fixedBytes => exact h
    | uint | int | bytes | other => exact h.elim
  refine Word.ext_byte fun place _ => ?_
  by_cases hplace : place < size
  · exact hbytes place (by omega)
  · rw [Word.byte_slice hsize, Word.byte_slice hsize, if_neg hplace, if_neg hplace]

end ValueType

/-! ## The variables of a change -/

namespace StorageLayout

/-- A variable ends inside its slot. -/
theorem occupiedSize_le_rest (l : StorageLayout) (v : StateVariable) :
    l.occupiedSize v ≤ wordSize - v.offset.toNat := by
  unfold occupiedSize
  dsimp only
  split
  · exact Nat.min_le_right _ _
  · exact Nat.le_refl _

/-- A variable has at most as many bytes as a word. -/
theorem occupiedSize_le (l : StorageLayout) (v : StateVariable) : l.occupiedSize v ≤ wordSize :=
  Nat.le_trans (l.occupiedSize_le_rest v) (Nat.sub_le _ _)

def contentOf (l : StorageLayout) (v : StateVariable) (w : Word) : Word :=
  w.slice v.offset.toNat (l.occupiedSize v)

/-- The contents of a variable are the same exactly when the words agree in its range. -/
theorem contentOf_eq_iff {l : StorageLayout} {v : StateVariable} {w w' : Word} :
    l.contentOf v w = l.contentOf v w' ↔
      ∀ place, v.offset.toNat ≤ place → place < v.offset.toNat + l.occupiedSize v →
        w.byte place = w'.byte place :=
  Word.slice_eq_iff (l.occupiedSize_le v)

/-- A type that shows all bytes of a variable hides no difference of its contents. -/
theorem contentOf_eq_of_hides {l : StorageLayout} {v : StateVariable} {w w' : Word} {t : ValueType}
    (hsize : l.occupiedSize v ≤ t.shownBytes) (h : t.Hides (l.contentOf v w) (l.contentOf v w')) :
    l.contentOf v w = l.contentOf v w' :=
  ValueType.slice_eq_of_hides (l.occupiedSize_le v) hsize h

/-- A variable differs if its contents do and its type does not hide how. -/
theorem differs_annotateVariable {l : StorageLayout} {change : SlotChange} {v : StateVariable} :
    (l.annotateVariable change v).differs = true ↔
      l.contentOf v change.before ≠ l.contentOf v change.after ∧
        ¬ (ValueType.parse (l.typeName v)).Hides
          (l.contentOf v change.before) (l.contentOf v change.after) := by
  simp only [annotateVariable, renderStorageValue, VariableChange.differs]
  rw [bne_iff_ne, Ne, ValueType.render_eq_iff, not_or, contentOf, contentOf]

/-- Every change of a variable shows whose type shows all bytes that it occupies. -/
theorem differs_of_occupiedSize_le {l : StorageLayout} {change : SlotChange} {v : StateVariable}
    {place : Nat} (hsize : l.occupiedSize v ≤ (ValueType.parse (l.typeName v)).shownBytes)
    (hle : v.offset.toNat ≤ place) (hlt : place < v.offset.toNat + l.occupiedSize v)
    (hbyte : change.before.byte place ≠ change.after.byte place) :
    (l.annotateVariable change v).differs = true := by
  have hcontent : l.contentOf v change.before ≠ l.contentOf v change.after :=
    fun h => hbyte (contentOf_eq_iff.mp h place hle hlt)
  rw [differs_annotateVariable]
  exact ⟨hcontent, mt (contentOf_eq_of_hides hsize) hcontent⟩

/-- **Which changes of a variable show.** The variables that come with a change are those of its
slot. One of them differs exactly when the words differ in a byte that the variable occupies and
the type of the variable does not hide it. -/
theorem variableChange_differs_iff {l : StorageLayout} {change : SlotChange} {i : Nat}
    {shown : VariableChange} (hshown : (l.annotate change).variableChanges[i]? = some shown) :
    ∃ v, (l.variablesIn change.slot.toNat)[i]? = some v ∧ shown.label = v.label ∧
      (shown.differs = true ↔
        (∃ place, v.offset.toNat ≤ place ∧ place < v.offset.toNat + l.occupiedSize v ∧
          change.before.byte place ≠ change.after.byte place) ∧
        ¬ (ValueType.parse (l.typeName v)).Hides
          (l.contentOf v change.before) (l.contentOf v change.after)) := by
  simp only [annotate, List.getElem?_map, Option.map_eq_some_iff] at hshown
  obtain ⟨v, hv, rfl⟩ := hshown
  refine ⟨v, hv, rfl, ?_⟩
  rw [differs_annotateVariable, Ne, contentOf_eq_iff]
  simp only [Classical.not_forall, exists_prop]

def packedLayout : StorageLayout :=
  { stateVariables :=
      [{ label := "open", slot := "0", typeId := "t_bool" },
        { label := "count", offset := 1, slot := "0", typeId := "t_uint8" }]
    types := (SortedMap.empty.insert "t_bool" { label := "bool", numberOfBytes := "1" }).insert
      "t_uint8" { label := "uint8", numberOfBytes := "1" } }

/-- A write to the second of two variables shows, so it is in the range of that variable. -/
theorem variableChange_differs_packed :
    (packedLayout.annotate ⟨.zero, .ofNat 0x0101, .ofNat 0x0201, 0⟩).variableChanges[1]? =
        some ⟨"count", "uint8", "1", "2"⟩ ∧
      ∃ v, (packedLayout.variablesIn 0)[1]? = some v ∧ "count" = v.label ∧
        ∃ place, v.offset.toNat ≤ place ∧
          place < v.offset.toNat + packedLayout.occupiedSize v ∧
          (Word.ofNat 0x0101).byte place ≠ (Word.ofNat 0x0201).byte place := by
  have hshown :
      (packedLayout.annotate ⟨.zero, .ofNat 0x0101, .ofNat 0x0201, 0⟩).variableChanges[1]? =
        some ⟨"count", "uint8", "1", "2"⟩ := by
    decide +kernel
  obtain ⟨v, hv, hlabel, hdiffers⟩ := variableChange_differs_iff hshown
  exact ⟨hshown, v, hv, hlabel, (hdiffers.mp (by decide)).1⟩

def longStringLayout : StorageLayout :=
  { stateVariables := [{ label := "name", slot := "0", typeId := "t_string_storage" }]
    types := SortedMap.empty.insert "t_string_storage"
      { encoding := "bytes", label := "string", numberOfBytes := "32" } }

/-- A change of a variable need not show: a long string of 40 bytes that becomes one of 50 has
another length in its slot, and is shown as before. -/
theorem longString_change_hidden :
    ¬ ∀ (l : StorageLayout) (change : SlotChange) (i : Nat) (shown : VariableChange)
        (v : StateVariable), (l.annotate change).variableChanges[i]? = some shown →
        (l.variablesIn change.slot.toNat)[i]? = some v →
        (∃ place, v.offset.toNat ≤ place ∧ place < v.offset.toNat + l.occupiedSize v ∧
          change.before.byte place ≠ change.after.byte place) →
        shown.differs = true := by
  intro h
  have hshown :
      (longStringLayout.annotate ⟨.zero, .ofNat 0x51, .ofNat 0x65, 0⟩).variableChanges[0]? =
        some ⟨"name", "string", "string (long)", "string (long)"⟩ := by
    decide +kernel
  have hv : (longStringLayout.variablesIn 0)[0]? =
      some { label := "name", slot := "0", typeId := "t_string_storage" } := by
    decide +kernel
  -- the lowest byte is 2 · 40 + 1 before and 2 · 50 + 1 after
  have hbyte : (Word.ofNat 0x51).byte 0 ≠ (Word.ofNat 0x65).byte 0 := by decide +kernel
  have hdiffers := h _ _ _ _ _ hshown hv ⟨0, by decide, by decide +kernel, hbyte⟩
  exact absurd hdiffers (by decide +kernel)

end StorageLayout

end TxForensics
