import TxForensics.Proofs.Storage.Visibility

/-!
# Variables that share a slot

A slot holds several variables when their ranges lie side by side: the word is the sum of the
contents, each moved up to the offset of its variable (`packedNumber`). No carry crosses from one
range into another, so in the range of a field the sum has the bytes of that field alone
(`byteAt_packedNumber_of_covers`), and cutting the range out of the word gives the content back:

    contents ──packedWord──▶ word ──contentOf──▶ content ──render──▶ text
-/

namespace TxForensics

/-! ## Bytes of numbers -/

/-- The byte of a number at a place, counted from the least significant end. -/
def byteAt (n place : Nat) : Nat := n / 256 ^ place % 256

/-- The bytes of a number behind the lowest are those of the rest. -/
theorem byteAt_succ (n place : Nat) : byteAt n (place + 1) = byteAt (n / 256) place := by
  rw [byteAt, byteAt, Nat.div_div_eq_div_mul, Nat.pow_succ, Nat.mul_comm]

theorem byteAt_eq_zero_of_lt {n size place : Nat} (hn : n < 256 ^ size) (hplace : size ≤ place) :
    byteAt n place = 0 := by
  have hpow : 256 ^ size ≤ 256 ^ place := Nat.pow_le_pow_right (by decide) hplace
  rw [byteAt, Nat.div_eq_of_lt (Nat.lt_of_lt_of_le hn hpow)]

/-- Numbers with the same bytes are the same. -/
theorem eq_of_byteAt {m n : Nat} (h : ∀ place, byteAt m place = byteAt n place) : m = n := by
  -- on the sum, which is smaller without the lowest bytes
  induction hsum : m + n using Nat.strongRecOn generalizing m n with
  | ind sum ih =>
    have hlow : m % 256 = n % 256 := by simpa [byteAt] using h 0
    by_cases hzero : sum = 0
    · omega
    · have hhigh : m / 256 = n / 256 := by
        apply ih (m / 256 + n / 256) (by omega) _ rfl
        intro place
        rw [← byteAt_succ, ← byteAt_succ]
        exact h (place + 1)
      omega

theorem byteAt_zero (place : Nat) : byteAt 0 place = 0 := by
  rw [byteAt, Nat.zero_div]

/-- A part that is cut out of a number has its bytes, and zeros behind them. -/
theorem byteAt_div_mod (n offset size place : Nat) :
    byteAt (n / 256 ^ offset % 256 ^ size) place =
      if place < size then byteAt n (offset + place) else 0 := by
  split
  · next hlt =>
    rw [byteAt, Word.mod_div_mod hlt, Nat.div_div_eq_div_mul, ← Nat.pow_add, byteAt]
  · next hle =>
    exact byteAt_eq_zero_of_lt (Nat.mod_lt _ (Nat.pow_pos (by decide))) (by omega)

/-- A number without bytes from a place on is below the weight of that place. -/
theorem lt_of_byteAt {n size : Nat} (h : ∀ place, size ≤ place → byteAt n place = 0) :
    n < 256 ^ size := by
  -- cutting the number off at that place leaves all of its bytes
  have hmod : n % 256 ^ size = n := by
    apply eq_of_byteAt
    intro place
    have hcut := byteAt_div_mod n 0 size place
    rw [Nat.pow_zero, Nat.div_one, Nat.zero_add] at hcut
    rw [hcut]
    split
    · rfl
    · next hle => exact (h place (by omega)).symm
  rw [← hmod]
  exact Nat.mod_lt _ (Nat.pow_pos (by decide))

/-- Numbers that have no byte in common add byte by byte, without carries. -/
theorem byteAt_add {m n : Nat} (h : ∀ place, byteAt m place = 0 ∨ byteAt n place = 0)
    (place : Nat) : byteAt (m + n) place = byteAt m place + byteAt n place := by
  have hlow : m % 256 = 0 ∨ n % 256 = 0 := by simpa [byteAt] using h 0
  -- the lowest bytes do not carry, so the rest of the sum is the sum of the rests
  induction place generalizing m n with
  | zero =>
    simp only [byteAt, Nat.pow_zero, Nat.div_one]
    omega
  | succ place ih =>
    have hhigh : (m + n) / 256 = m / 256 + n / 256 := by omega
    have hrest : ∀ place, byteAt (m / 256) place = 0 ∨ byteAt (n / 256) place = 0 := by
      intro place
      rw [← byteAt_succ, ← byteAt_succ]
      exact h (place + 1)
    rw [byteAt_succ, byteAt_succ, byteAt_succ, hhigh]
    exact ih hrest (by simpa [byteAt] using hrest 0)

/-- Moving a number up moves its bytes up and puts zeros below. -/
theorem byteAt_mul_pow (n offset place : Nat) :
    byteAt (n * 256 ^ offset) place = if offset ≤ place then byteAt n (place - offset) else 0 := by
  -- one byte at a time; the lowest one of what is moved up is zero
  induction offset generalizing place with
  | zero => simp
  | succ offset ih =>
    have hshift : n * 256 ^ (offset + 1) = n * 256 ^ offset * 256 := by
      rw [Nat.pow_succ, Nat.mul_assoc]
    cases place with
    | zero =>
      rw [hshift, byteAt, if_neg (by omega), Nat.pow_zero, Nat.div_one, Nat.mul_mod_left]
    | succ place =>
      rw [byteAt_succ, hshift, Nat.mul_div_cancel _ (by decide), ih]
      simp only [Nat.add_le_add_iff_right, Nat.add_sub_add_right]

/-- The lowest `count` bytes of a number, most significant first. -/
def bigEndian : Nat → Nat → Bytes
  | 0, _ => []
  | count + 1, n => bigEndian count (n / 256) ++ [(n % 256).toUInt8]

/-- The bytes are those at the places, the lowest place last. -/
theorem bigEndian_eq (count n : Nat) :
    bigEndian count n = (List.range count).reverse.map fun place => (byteAt n place).toUInt8 := by
  induction count generalizing n with
  | zero => rfl
  | succ count ih =>
    have hnext : ∀ place, byteAt (n / 256) place = byteAt n (place + 1) :=
      fun place => (byteAt_succ n place).symm
    rw [bigEndian, ih, List.range_succ_eq_map, List.reverse_cons, List.map_append,
      ← List.map_reverse, List.map_map]
    simp only [hnext]
    simp [byteAt, Function.comp_def]

theorem Word.byte_eq_byteAt (w : Word) (place : Nat) :
    w.byte place = (byteAt w.toNat place).toUInt8 := by
  rw [← UInt8.toNat_inj, Word.toNat_byte, byteAt]
  simp

theorem Word.lastBytes_eq_bigEndian (w : Word) {count : Nat} (h : count ≤ wordSize) :
    w.lastBytes count = bigEndian count w.toNat := by
  rw [Word.lastBytes_eq, Nat.min_eq_left h, bigEndian_eq]
  exact List.map_congr_left fun place _ => w.byte_eq_byteAt place

theorem Word.bytes_eq_bigEndian (w : Word) : w.bytes = bigEndian wordSize w.toNat :=
  w.lastBytes_eq_bigEndian (Nat.le_refl wordSize)

/-! ## Fields -/

/-- The types whose variables may share a slot: unsigned integers of so many bytes, addresses, so
many fixed bytes, and truth values. -/
inductive FieldType where
  | uint (bytes : Nat) (fits : 0 < bytes ∧ bytes ≤ wordSize)
  | address
  | fixedBytes (count : Nat) (fits : 0 < count ∧ count ≤ wordSize)
  | bool

namespace FieldType

def label : FieldType → String
  | uint bytes _ => "uint" ++ Text.Numeral.decimal (8 * bytes)
  | address => "address"
  | fixedBytes count _ => "bytes" ++ Text.Numeral.decimal count
  | bool => "bool"

def size : FieldType → Nat
  | uint bytes _ => bytes
  | address => 20
  | fixedBytes count _ => count
  | bool => 1

/-- How a reader expects a content to be written. -/
def shown (n : Nat) : FieldType → String
  | uint _ _ => Text.Numeral.decimal n
  | address => Hex.prefixed (bigEndian 20 n)
  | fixedBytes count _ => Hex.prefixed (bigEndian count n)
  | bool => if n = 0 then "false" else "true"

def valueType : FieldType → ValueType
  | uint bytes _ => .uint (8 * bytes)
  | address => .address
  | fixedBytes count _ => .fixedBytes count
  | bool => .bool

theorem size_le (t : FieldType) : t.size ≤ wordSize := by
  cases t with
  | uint bytes fits => exact fits.2
  | address => decide
  | fixedBytes count fits => exact fits.2
  | bool => decide

theorem size_pos (t : FieldType) : 0 < t.size := by
  cases t with
  | uint bytes fits => exact fits.1
  | address => decide
  | fixedBytes count fits => exact fits.1
  | bool => decide

theorem parse_uint : ∀ bytes ≤ wordSize, 0 < bytes →
    ValueType.parse ("uint" ++ Text.Numeral.decimal (8 * bytes)) = .uint (8 * bytes) := by
  decide +kernel

theorem parse_fixedBytes : ∀ count ≤ wordSize, 0 < count →
    ValueType.parse ("bytes" ++ Text.Numeral.decimal count) = .fixedBytes count := by
  decide +kernel

/-- The name of a type is read as the type. -/
theorem parse_label (t : FieldType) : ValueType.parse t.label = t.valueType := by
  cases t with
  | uint bytes fits => exact parse_uint bytes fits.2 fits.1
  | address => decide +kernel
  | fixedBytes count fits => exact parse_fixedBytes count fits.2 fits.1
  | bool => decide +kernel

/-- A word that holds just the content is shown as the content. -/
theorem render_valueType (t : FieldType) (w : Word) :
    ValueType.render w t.valueType = t.shown w.toNat := by
  cases t with
  | uint bytes fits => rfl
  | address =>
    show Hex.prefixed (w.lastBytes 20) = Hex.prefixed (bigEndian 20 w.toNat)
    rw [w.lastBytes_eq_bigEndian (by decide)]
  | fixedBytes count fits =>
    show Hex.prefixed (w.lastBytes count) = Hex.prefixed (bigEndian count w.toNat)
    rw [w.lastBytes_eq_bigEndian fits.2]
  | bool =>
    show (if w.isZero then "false" else "true") = if w.toNat = 0 then "false" else "true"
    simp only [Word.isZero, beq_iff_eq]

end FieldType

structure PackedField where
  var : StateVariable
  type : FieldType
  content : Nat
  fits : content < 256 ^ type.size

namespace PackedField

def offset (f : PackedField) : Nat := f.var.offset.toNat

def weight (f : PackedField) : Nat := f.content * 256 ^ f.offset

def shown (f : PackedField) : String := f.type.shown f.content

def Covers (f : PackedField) (place : Nat) : Prop :=
  f.offset ≤ place ∧ place < f.offset + f.type.size

def Apart (f g : PackedField) : Prop :=
  f.offset + f.type.size ≤ g.offset ∨ g.offset + g.type.size ≤ f.offset

instance : DecidableRel Apart := fun f g =>
  inferInstanceAs
    (Decidable (f.offset + f.type.size ≤ g.offset ∨ g.offset + g.type.size ≤ f.offset))

theorem byteAt_weight_of_covers {f : PackedField} {place : Nat} (h : f.Covers place) :
    byteAt f.weight place = byteAt f.content (place - f.offset) := by
  rw [weight, byteAt_mul_pow, if_pos h.1]

/-- Outside of its range a field adds nothing. -/
theorem byteAt_weight_eq_zero {f : PackedField} {place : Nat} (h : ¬ f.Covers place) :
    byteAt f.weight place = 0 := by
  rw [weight, byteAt_mul_pow]
  split
  · next hle =>
    have hbehind : ¬ place < f.offset + f.type.size := fun hlt => h ⟨hle, hlt⟩
    exact byteAt_eq_zero_of_lt f.fits (by omega)
  · rfl

theorem Apart.not_covers {f g : PackedField} {place : Nat} (h : f.Apart g) (hf : f.Covers place) :
    ¬ g.Covers place := by
  intro hg
  obtain ⟨hfle, hflt⟩ := hf
  obtain ⟨hgle, hglt⟩ := hg
  rcases h with h | h
  · omega
  · omega

end PackedField

/-! ## Packed words -/

def packedNumber : List PackedField → Nat
  | [] => 0
  | f :: fields => f.weight + packedNumber fields

def packedWord (fields : List PackedField) : Word := .ofNat (packedNumber fields)

section Packed

variable {f : PackedField} {fields : List PackedField} {place : Nat}

/-- A field in front of fields that have bytes in their own ranges only is added without carries. -/
theorem byteAt_packedNumber_cons (hf : ∀ g ∈ fields, f.Apart g)
    (hzero : ∀ place, (∀ g ∈ fields, ¬ g.Covers place) → byteAt (packedNumber fields) place = 0)
    (place : Nat) :
    byteAt (packedNumber (f :: fields)) place =
      byteAt f.weight place + byteAt (packedNumber fields) place := by
  rw [packedNumber]
  apply byteAt_add
  intro q
  by_cases hq : f.Covers q
  · exact .inr (hzero q fun g hg => (hf g hg).not_covers hq)
  · exact .inl (PackedField.byteAt_weight_eq_zero hq)

/-- Outside of all ranges the packed number has zeros. -/
theorem byteAt_packedNumber_eq_zero (hapart : fields.Pairwise PackedField.Apart)
    (h : ∀ f ∈ fields, ¬ f.Covers place) : byteAt (packedNumber fields) place = 0 := by
  induction fields generalizing place with
  | nil => exact byteAt_zero place
  | cons f fields ih =>
    obtain ⟨hf, hfields⟩ := List.pairwise_cons.mp hapart
    have hrest : byteAt (packedNumber fields) place = 0 :=
      ih hfields fun g hg => h g (List.mem_cons_of_mem f hg)
    rw [byteAt_packedNumber_cons hf fun q hq => ih hfields hq, hrest,
      PackedField.byteAt_weight_eq_zero (h f List.mem_cons_self)]

/-- In the range of a field the packed number has the bytes of its content. -/
theorem byteAt_packedNumber_of_covers (hapart : fields.Pairwise PackedField.Apart)
    (hf : f ∈ fields) (h : f.Covers place) :
    byteAt (packedNumber fields) place = byteAt f.content (place - f.offset) := by
  induction fields with
  | nil => cases hf
  | cons g fields ih =>
    obtain ⟨hg, hfields⟩ := List.pairwise_cons.mp hapart
    rw [byteAt_packedNumber_cons hg fun q hq => byteAt_packedNumber_eq_zero hfields hq]
    -- the field itself has the byte, or a field behind the first one does
    rcases List.mem_cons.mp hf with rfl | hmem
    · have hrest : byteAt (packedNumber fields) place = 0 :=
        byteAt_packedNumber_eq_zero hfields fun g' hg' => (hg g' hg').not_covers h
      rw [hrest, PackedField.byteAt_weight_of_covers h, Nat.add_zero]
    · have hfirst : byteAt g.weight place = 0 :=
        PackedField.byteAt_weight_eq_zero fun hcovers => (hg f hmem).not_covers hcovers h
      rw [hfirst, ih hfields hmem, Nat.zero_add]

/-- Fields that end inside the slot fit into a word. -/
theorem packedNumber_lt (hapart : fields.Pairwise PackedField.Apart)
    (hinside : ∀ f ∈ fields, f.offset + f.type.size ≤ wordSize) :
    packedNumber fields < 2 ^ 256 := by
  rw [← Word.weight_wordSize]
  apply lt_of_byteAt
  intro place hplace
  apply byteAt_packedNumber_eq_zero hapart
  intro f hf hcovers
  have hend := hinside f hf
  obtain ⟨-, hlt⟩ := hcovers
  omega

end Packed

namespace StorageLayout

/-- The fields are the variables of a slot, each of the type and the size that the layout gives it,
and no two of them have a byte in common. -/
structure Packs (l : StorageLayout) (slot : Nat) (fields : List PackedField) : Prop where
  vars : fields.map PackedField.var = l.variablesIn slot
  label : ∀ f ∈ fields, l.typeName f.var = f.type.label
  size : ∀ f ∈ fields, l.occupiedSize f.var = f.type.size
  apart : fields.Pairwise PackedField.Apart

instance (l : StorageLayout) (slot : Nat) (fields : List PackedField) :
    Decidable (l.Packs slot fields) :=
  decidable_of_iff
    (fields.map PackedField.var = l.variablesIn slot ∧
      (∀ f ∈ fields, l.typeName f.var = f.type.label) ∧
      (∀ f ∈ fields, l.occupiedSize f.var = f.type.size) ∧ fields.Pairwise PackedField.Apart)
    ⟨fun ⟨vars, label, size, apart⟩ => ⟨vars, label, size, apart⟩,
      fun ⟨vars, label, size, apart⟩ => ⟨vars, label, size, apart⟩⟩

variable {l : StorageLayout} {slot : Nat} {fields : List PackedField} {f : PackedField}

/-- The fields of a slot end inside it. -/
theorem Packs.inside (h : l.Packs slot fields) :
    ∀ f ∈ fields, f.offset + f.type.size ≤ wordSize := by
  intro f hf
  have hpos := f.type.size_pos
  have hrest : l.occupiedSize f.var ≤ wordSize - f.offset := l.occupiedSize_le_rest f.var
  rw [h.size f hf] at hrest
  omega

theorem Packs.toNat_packedWord (h : l.Packs slot fields) :
    (packedWord fields).toNat = packedNumber fields :=
  Nat.mod_eq_of_lt (packedNumber_lt h.apart h.inside)

/-- **Packing round trip**: cutting the range of a field out of the packed word gives its content
back. -/
theorem Packs.toNat_contentOf (h : l.Packs slot fields) (hf : f ∈ fields) :
    (l.contentOf f.var (packedWord fields)).toNat = f.content := by
  rw [contentOf, h.size f hf, Word.toNat_slice f.type.size_le, h.toNat_packedWord]
  apply eq_of_byteAt
  intro place
  rw [byteAt_div_mod]
  split
  · next hlt =>
    have hcovers : f.Covers (f.offset + place) := ⟨Nat.le_add_right _ _, by omega⟩
    have hbyte := byteAt_packedNumber_of_covers h.apart hf hcovers
    rwa [Nat.add_sub_cancel_left] at hbyte
  · next hle => exact (byteAt_eq_zero_of_lt f.fits (by omega)).symm

/-! ## What a change shows -/

def textIn (l : StorageLayout) (v : StateVariable) (w : Word) : String :=
  renderStorageValue (l.contentOf v w) (l.typeName v)

theorem annotateVariable_eq (l : StorageLayout) (change : SlotChange) (v : StateVariable) :
    l.annotateVariable change v =
      ⟨v.label, l.typeName v, l.textIn v change.before, l.textIn v change.after⟩ := by
  simp only [annotateVariable, textIn, contentOf]

theorem getElem?_annotate (change : SlotChange) {i : Nat} {v : StateVariable}
    (hv : (l.variablesIn change.slot.toNat)[i]? = some v) :
    (l.annotate change).variableChanges[i]? =
      some ⟨v.label, l.typeName v, l.textIn v change.before, l.textIn v change.after⟩ := by
  rw [annotate, List.getElem?_map, hv, Option.map_some, annotateVariable_eq]

/-- Words that agree in the range of a variable show it alike. -/
theorem textIn_congr {v : StateVariable} {w w' : Word}
    (h : ∀ place, v.offset.toNat ≤ place → place < v.offset.toNat + l.occupiedSize v →
      w.byte place = w'.byte place) :
    l.textIn v w = l.textIn v w' := by
  rw [textIn, textIn, contentOf_eq_iff.mpr h]

/-- So the field is shown as its content. -/
theorem Packs.textIn (h : l.Packs slot fields) (hf : f ∈ fields) :
    l.textIn f.var (packedWord fields) = f.shown := by
  rw [StorageLayout.textIn, renderStorageValue, h.label f hf, FieldType.parse_label,
    FieldType.render_valueType, h.toNat_contentOf hf, PackedField.shown]

theorem Packs.map_textIn (h : l.Packs slot fields) :
    (l.variablesIn slot).map (l.textIn · (packedWord fields)) = fields.map PackedField.shown := by
  rw [← h.vars, List.map_map]
  apply List.map_congr_left
  intro f hf
  rw [Function.comp_apply, h.textIn hf]

/-- **A variable is shown by its own bytes.** Of the old and of the new word, only the bytes in the
range of a variable count for what is shown of it; and a word that packs contents into the ranges of
its variables, whatever these contents are, is shown as just these contents. -/
theorem annotate_of_ranges (l : StorageLayout) :
    (∀ (change change' : SlotChange) (i : Nat) (shown shown' : VariableChange) (v : StateVariable),
      change.slot = change'.slot →
      (l.variablesIn change.slot.toNat)[i]? = some v →
      (l.annotate change).variableChanges[i]? = some shown →
      (l.annotate change').variableChanges[i]? = some shown' →
      ((∀ place, v.offset.toNat ≤ place → place < v.offset.toNat + l.occupiedSize v →
        change.before.byte place = change'.before.byte place) → shown.before = shown'.before) ∧
      ((∀ place, v.offset.toNat ≤ place → place < v.offset.toNat + l.occupiedSize v →
        change.after.byte place = change'.after.byte place) → shown.after = shown'.after)) ∧
    (∀ (change : SlotChange) (fields : List PackedField), l.Packs change.slot.toNat fields →
      (packedWord fields).toNat = packedNumber fields ∧
      (change.before = packedWord fields →
        (l.annotate change).variableChanges.map VariableChange.before =
          fields.map PackedField.shown) ∧
      (change.after = packedWord fields →
        (l.annotate change).variableChanges.map VariableChange.after =
          fields.map PackedField.shown)) := by
  refine ⟨?_, ?_⟩
  · intro change change' i shown shown' v hslot hv hshown hshown'
    have hv' : (l.variablesIn change'.slot.toNat)[i]? = some v := hslot ▸ hv
    rw [getElem?_annotate change hv, Option.some.injEq] at hshown
    rw [getElem?_annotate change' hv', Option.some.injEq] at hshown'
    subst hshown hshown'
    dsimp only
    exact ⟨textIn_congr, textIn_congr⟩
  · intro change fields h
    refine ⟨h.toNat_packedWord, ?_, ?_⟩
    · intro hbefore
      rw [annotate, List.map_map, ← h.map_textIn, ← hbefore]
      exact List.map_congr_left fun v _ => by rw [Function.comp_apply, annotateVariable_eq]
    · intro hafter
      rw [annotate, List.map_map, ← h.map_textIn, ← hafter]
      exact List.map_congr_left fun v _ => by rw [Function.comp_apply, annotateVariable_eq]

def fullSlotLayout : StorageLayout :=
  { stateVariables :=
      [{ label := "owner", slot := "0", typeId := "t_address" },
        { label := "count", offset := 20, slot := "0", typeId := "t_uint64" },
        { label := "open", offset := 28, slot := "0", typeId := "t_bool" },
        { label := "tag", offset := 29, slot := "0x0", typeId := "t_bytes3" }]
    types := (((SortedMap.empty.insert
      "t_address" { label := "address", numberOfBytes := "20" }).insert
      "t_uint64" { label := "uint64", numberOfBytes := "8" }).insert
      "t_bool" { label := "bool", numberOfBytes := "1" }).insert
      "t_bytes3" { label := "bytes3", numberOfBytes := "3" } }

def fullSlotFields (owner count : Nat) (howner : owner < 256 ^ 20) (hcount : count < 256 ^ 8) :
    List PackedField :=
  [⟨{ label := "owner", slot := "0", typeId := "t_address" }, .address, owner, howner⟩,
    ⟨{ label := "count", offset := 20, slot := "0", typeId := "t_uint64" },
      .uint 8 (by decide), count, hcount⟩,
    ⟨{ label := "open", offset := 28, slot := "0", typeId := "t_bool" }, .bool, 1, by decide⟩,
    ⟨{ label := "tag", offset := 29, slot := "0x0", typeId := "t_bytes3" },
      .fixedBytes 3 (by decide), 0xab, by decide⟩]

/-- All four contents come back, and of two words that differ in the count only, the owner is shown
alike. -/
theorem annotate_of_ranges_fullSlot :
    let fields := fullSlotFields 0xd8da 0xffffffffffffffff (by decide) (by decide)
    let fields' := fullSlotFields 0xd8da 7 (by decide) (by decide)
    let change : SlotChange := ⟨.zero, packedWord fields, .zero, 0⟩
    let change' : SlotChange := ⟨.zero, packedWord fields', .zero, 0⟩
    fullSlotLayout.Packs 0 fields ∧
      (fullSlotLayout.annotate change).variableChanges.map VariableChange.before =
        ["0x000000000000000000000000000000000000d8da", "18446744073709551615", "true",
          "0x0000ab"] ∧
      ∃ shown shown', (fullSlotLayout.annotate change).variableChanges[0]? = some shown ∧
        (fullSlotLayout.annotate change').variableChanges[0]? = some shown' ∧
        shown.before = shown'.before := by
  intro fields fields' change change'
  have hpacks : fullSlotLayout.Packs 0 fields := by decide +kernel
  obtain ⟨hrange, hpacked⟩ := annotate_of_ranges fullSlotLayout
  obtain ⟨-, hbefore, -⟩ := hpacked change fields hpacks
  refine ⟨hpacks, ?_, ?_⟩
  · rw [hbefore rfl]
    decide +kernel
  · have howner : (fullSlotLayout.variablesIn 0)[0]? =
        some { label := "owner", slot := "0", typeId := "t_address" } := by
      decide +kernel
    have hsize : fullSlotLayout.occupiedSize
        { label := "owner", slot := "0", typeId := "t_address" } = 20 := by
      decide +kernel
    -- the count stands behind the 20 bytes of the owner
    have hbytes : ∀ place < 20,
        (packedWord fields).byte place = (packedWord fields').byte place := by
      decide +kernel
    have hshown := getElem?_annotate change howner
    have hshown' := getElem?_annotate change' howner
    refine ⟨_, _, hshown, hshown', ?_⟩
    apply (hrange change change' 0 _ _ _ rfl howner hshown hshown').1
    intro place _ hlt
    rw [hsize] at hlt
    exact hbytes place (by simpa using hlt)

end StorageLayout

end TxForensics
