import TxForensics.Proofs.Analysis.RoundTrip
import TxForensics.Proofs.Json.Hole
import TxForensics.Proofs.Text.WrittenNumeral

/-!
# Quantities of a trace

The gas of a trace and of its steps is a number, or a text in decimal or behind `0x` in hexadecimal.
A value that spells a number below `2 ^ 64` is read as that number, wherever in the tree of a trace
it stands, and makes no other difference than the number itself:

    Trace.ofJson (p.fill v) = (Trace.ofJson (p.fill (.nat 0))).map (p.assign n)

A text that spells none of these numbers refuses the whole trace. So no quantity is cut, wrapped
around or left out on its way into a trace (`quantities_read_exactly`).
-/

namespace TxForensics

/-! ## What spells a quantity -/

/-- Whether a value spells the number `n`: it is the number, or a text of one of its numerals, in
decimal or behind `0x` in hexadecimal. -/
inductive SpellsQuantity (n : Nat) : Json → Prop
  | number : SpellsQuantity n (.nat n)
  | decimal {s : String} (h : Text.Numeral.Spells 10 n s.toList) : SpellsQuantity n (.text s)
  | hexadecimal {s : String} {ds : List Char} (hs : s.toList = '0' :: 'x' :: ds)
      (h : Text.Numeral.Spells 16 n ds) : SpellsQuantity n (.text s)

/-- Whether a text has the form of a quantity: digits, or `0x` and hexadecimal digits, with a plus
sign in front of the digits or not. -/
def HasQuantityForm (s : String) : Prop :=
  Text.Numeral.HasForm (fun c => c.isDigit = true) s.toList ∨
    ∃ ds, s.toList = '0' :: 'x' :: ds ∧ Text.Numeral.HasForm Hex.IsDigit ds

/-- A text spells a quantity just when it has the form of one. -/
theorem exists_spellsQuantity_iff {s : String} :
    (∃ n, SpellsQuantity n (.text s)) ↔ HasQuantityForm s := by
  have hdecimal : (∃ n, Text.Numeral.Spells 10 n s.toList) ↔
      Text.Numeral.HasForm (fun c => c.isDigit = true) s.toList :=
    Text.Numeral.exists_spells_iff (by decide) (by decide) fun c => Text.Numeral.isDigit_iff
  have hhex (ds : List Char) :
      (∃ n, Text.Numeral.Spells 16 n ds) ↔ Text.Numeral.HasForm Hex.IsDigit ds :=
    Text.Numeral.exists_spells_iff (by decide) (by decide) fun c => Hex.isDigit_iff
  constructor
  · rintro ⟨n, hn⟩
    cases hn with
    | decimal h => exact .inl (hdecimal.mp ⟨n, h⟩)
    | hexadecimal hs h => exact .inr ⟨_, hs, (hhex _).mp ⟨n, h⟩⟩
  · rintro (h | ⟨ds, hs, h⟩)
    · obtain ⟨n, hn⟩ := hdecimal.mpr h
      exact ⟨n, .decimal hn⟩
    · obtain ⟨n, hn⟩ := (hhex ds).mpr h
      exact ⟨n, .hexadecimal hs hn⟩

/-- A numeral in decimal has no mark in it. -/
theorem not_spells_mark {n : Nat} (ds : List Char) :
    ¬ Text.Numeral.Spells 10 n ('0' :: 'x' :: ds) := by
  rintro (h | ⟨ds', hplus, -⟩)
  · have hx := h.isSome_digit? (by decide) (by decide) 'x' (by simp)
    cases hx
  · cases hplus

/-- A text spells one number at most. -/
theorem SpellsQuantity.unique {m n : Nat} {s : String} (hm : SpellsQuantity m (.text s))
    (hn : SpellsQuantity n (.text s)) : m = n := by
  -- a text with the mark of a hexadecimal numeral is no decimal one
  cases hm with
  | decimal hm =>
    cases hn with
    | decimal hn => exact hm.unique (by decide) (by decide) hn
    | hexadecimal hs _ => exact absurd (hs ▸ hm) (not_spells_mark _)
  | hexadecimal hs hm =>
    cases hn with
    | decimal hn => exact absurd (hs ▸ hn) (not_spells_mark _)
    | hexadecimal hs' hn =>
      obtain rfl : _ = _ := (List.cons.inj (List.cons.inj (hs.symm.trans hs')).2).2
      exact hm.unique (by decide) (by decide) hn

theorem SpellsQuantity.ne_null {n : Nat} {v : Json} (h : SpellsQuantity n v) : v ≠ .null := by
  rintro rfl
  cases h

namespace Document

/-- The number that a text denotes is the one it spells, and below `2 ^ 64`. -/
theorem quantityOfText_eq_ok_iff {s : String} {n : Nat} :
    quantityOfText s = .ok n ↔ SpellsQuantity n (.text s) ∧ n < 2 ^ 64 := by
  have hread (radix : Nat) (ds : List Char) (hlow : 1 < radix) (hhigh : radix ≤ 16) :
      Text.Numeral.readBelow radix (2 ^ 64) ds = .ok n ↔
        Text.Numeral.Spells radix n ds ∧ n < 2 ^ 64 := by
    rw [Text.Numeral.readBelow_eq_ok_iff (by decide), Text.Numeral.unsigned?_eq_some_iff hlow hhigh]
  -- the mark tells which of the two numerals is read
  unfold quantityOfText
  split
  next ds hs =>
    rw [hread 16 ds (by decide) (by decide)]
    apply and_congr_left'
    refine ⟨.hexadecimal hs, ?_⟩
    intro h
    cases h with
    | decimal h => exact absurd (hs ▸ h) (not_spells_mark ds)
    | hexadecimal hs' h =>
      obtain rfl : ds = _ := by simpa using hs.symm.trans hs'
      exact h
  next ds hs =>
    rw [hread 10 s.toList (by decide) (by decide)]
    apply and_congr_left'
    refine ⟨.decimal, ?_⟩
    intro h
    cases h with
    | decimal h => exact h
    | hexadecimal hs' h => exact absurd hs' (hs _)

/-- A value that spells a number below `2 ^ 64` is read as that number. -/
theorem quantity_of_spells {n : Nat} {v : Json} (h : SpellsQuantity n v) (hn : n < 2 ^ 64) :
    quantity (.ofJson v) = .ok n.toUInt64 := by
  have htext {s : String} (hs : SpellsQuantity n (.text s)) :
      quantity (.ofJson (.text s)) = .ok n.toUInt64 := by
    rw [ofJson, quantity, quantityOfText_eq_ok_iff.mpr ⟨hs, hn⟩]
  cases h with
  | number =>
    show quantity (.number (.integer n)) = _
    rw [quantity, if_pos (by omega), Int.toNat_natCast]
  | decimal h => exact htext (.decimal h)
  | hexadecimal hs h => exact htext (.hexadecimal hs h)

/-- A text that spells no number below `2 ^ 64` is refused. -/
theorem quantity_of_not_spells {s : String}
    (h : ∀ n, SpellsQuantity n (.text s) → 2 ^ 64 ≤ n) :
    ∃ e, quantity (.ofJson (.text s)) = .error e := by
  rw [ofJson, quantity]
  cases hread : quantityOfText s with
  | error cause => exact ⟨_, rfl⟩
  | ok n =>
    obtain ⟨hspells, hlt⟩ := quantityOfText_eq_ok_iff.mp hread
    exact absurd (h n hspells) (Nat.not_le_of_lt hlt)

/-- Where a value may be null, one that is read is read as before. -/
theorem optional_eq_map {read : Document → Except JsonShapeError α} {j : Json} (hj : j ≠ .null) :
    optional read (.ofJson j) = (read (.ofJson j)).map some := by
  cases j with
  | null => exact absurd rfl hj
  | _ => rfl

end Document

/-! ## Where quantities stand -/

theorem StepLog.hasField_gas :
    shape.HasField "gas" Document.quantity
      fun change log => { log with gas := change log.gas } := by
  constructor <;> simp [shape, RecordField.mandatory, RecordField.defaulted]

theorem StepLog.hasField_gasCost :
    shape.HasField "gasCost" (Document.optional Document.quantity)
      fun change log => { log with gasCost := change log.gasCost } := by
  constructor <;> simp [shape, RecordField.mandatory, RecordField.defaulted]

theorem Trace.hasField_logs :
    shape.HasField "structLogs" (Document.list StepLog.shape.read)
      fun change t => { t with logs := change t.logs } := by
  constructor <;> simp [shape, RecordField.defaulted]

theorem Trace.hasField_gas :
    shape.HasField "gas" (Document.optional Document.quantity)
      fun change t => { t with gas := change t.gas } := by
  constructor <;> simp [shape, RecordField.defaulted]

/-- The tree of a trace with a hole for one of its steps. -/
structure StepHole where
  logs : RecordHole Trace.shape "structLogs"
  /-- The steps before the hole. -/
  before : List Json
  after : List Json

def StepHole.fill (hole : StepHole) (step : Json) : Json :=
  hole.logs.fill (.array (hole.before ++ step :: hole.after))

/-- The tree of a trace with a hole for a quantity: the gas of the trace, or the gas or the cost of
one of its steps. -/
inductive QuantityHole where
  | total (hole : RecordHole Trace.shape "gas")
  | gas (step : StepHole) (hole : RecordHole StepLog.shape "gas")
  | cost (step : StepHole) (hole : RecordHole StepLog.shape "gasCost")

namespace QuantityHole

def fill : QuantityHole → Json → Json
  | total hole, v => hole.fill v
  | gas step hole, v => step.fill (hole.fill v)
  | cost step hole, v => step.fill (hole.fill v)

/-- The trace with a number for the quantity in the hole. -/
def assign : QuantityHole → UInt64 → Trace → Trace
  | total _, n, t => { t with gas := some n }
  | gas step _, n, t =>
    { t with logs := t.logs.modify step.before.length fun log => { log with gas := n } }
  | cost step _, n, t =>
    { t with logs := t.logs.modify step.before.length fun log => { log with gasCost := some n } }

end QuantityHole

/-- A step is read through the list of steps that it stands in. -/
theorem StepHole.readsThrough (hole : StepHole) :
    ReadsThrough (fun j => Trace.ofJson (hole.fill j)) (fun j => StepLog.shape.read (.ofJson j))
      fun change t => { t with logs := t.logs.modify hole.before.length change } :=
  ((Trace.hasField_logs.readsThrough hole.logs).comp fun j =>
    .array (hole.before ++ j :: hole.after)).trans
      (Document.list_readsThrough StepLog.shape.read hole.before hole.after)

/-- A field of a step is read through. -/
theorem StepHole.field_readsThrough (step : StepHole) {name : String}
    {read : Document → Except JsonShapeError α} {lift : (α → α) → StepLog → StepLog}
    (h : StepLog.shape.HasField name read lift) (hole : RecordHole StepLog.shape name) :
    ReadsThrough (fun v => Trace.ofJson (step.fill (hole.fill v))) (fun v => read (.ofJson v))
      fun change t => { t with logs := t.logs.modify step.before.length (lift change) } :=
  (step.readsThrough.comp hole.fill).trans (h.readsThrough hole)

namespace QuantityHole

variable {v v' : Json} {n n' : UInt64}

/-- Quantities that are read make no other difference than their numbers. -/
theorem ofJson_fill (p : QuantityHole) (hv : Document.quantity (.ofJson v) = .ok n)
    (hv' : Document.quantity (.ofJson v') = .ok n') :
    Trace.ofJson (p.fill v') = (Trace.ofJson (p.fill v)).map (p.assign n') := by
  have hoptional {v : Json} {n : UInt64} (hv : Document.quantity (.ofJson v) = .ok n) :
      Document.optional Document.quantity (.ofJson v) = .ok (some n) := by
    have hne : v ≠ .null := by
      rintro rfl
      cases hv
    rw [Document.optional_eq_map hne, hv]
    rfl
  cases p with
  | total hole =>
    exact (Trace.hasField_gas.readsThrough hole).eq_map (hoptional hv) (hoptional hv')
  | gas step hole =>
    exact (step.field_readsThrough StepLog.hasField_gas hole).eq_map hv hv'
  | cost step hole =>
    exact (step.field_readsThrough StepLog.hasField_gasCost hole).eq_map (hoptional hv)
      (hoptional hv')

/-- A quantity that is refused refuses the trace. -/
theorem exists_error (p : QuantityHole) (hne : v ≠ .null) {e : JsonShapeError}
    (hv : Document.quantity (.ofJson v) = .error e) : ∃ e, Trace.ofJson (p.fill v) = .error e := by
  have hoptional : Document.optional Document.quantity (.ofJson v) = .error e := by
    rw [Document.optional_eq_map hne, hv]
    rfl
  cases p with
  | total hole => exact (Trace.hasField_gas.readsThrough hole).exists_error hoptional
  | gas step hole =>
    exact (step.field_readsThrough StepLog.hasField_gas hole).exists_error hv
  | cost step hole =>
    exact (step.field_readsThrough StepLog.hasField_gasCost hole).exists_error hoptional

end QuantityHole

/-! ## Traces in any spelling -/

/-- A number comes back from every value that spells it. -/
theorem Restores.spelled {depth : Nat} {n : UInt64} {v : Json} (h : SpellsQuantity n.toNat v) :
    Restores depth Document.quantity v n := by
  have hread := Document.quantity_of_spells h n.toNat_lt
  rw [Nat.toUInt64_eq, UInt64.ofNat_toNat] at hread
  have hn : n.toNat < 2 ^ 64 := n.toNat_lt
  cases h with
  | number => exact ⟨.integer (by omega), hread, hread⟩
  | decimal => exact ⟨.text, hread, hread⟩
  | hexadecimal => exact ⟨.text, hread, hread⟩

/-- **Quantities are read exactly or refused.** Wherever the gas of a trace, or the gas or the cost
of a step, stands in the tree of a trace, a value that spells a number below `2 ^ 64` is read as
that number, and the rest of the tree is read as it would be with 0 in that place. Every trace comes
back with its quantities in any spelling, from the tree and from its text. A text that spells a
greater number, or has not the form of a quantity, refuses the whole trace. -/
theorem quantities_read_exactly :
    (∀ (p : QuantityHole) (v : Json) (n : Nat), SpellsQuantity n v → n < 2 ^ 64 →
      Trace.ofJson (p.fill v) = (Trace.ofJson (p.fill (.nat 0))).map (p.assign n.toUInt64)) ∧
    (∀ (t : Trace) (spell : UInt64 → Json), (∀ n, SpellsQuantity n.toNat (spell n)) →
      Trace.shape.ComesBack (t.toJsonIn spell) t) ∧
    ∀ (p : QuantityHole) (s : String),
      (∃ n, 2 ^ 64 ≤ n ∧ SpellsQuantity n (.text s)) ∨ ¬ HasQuantityForm s →
      ∃ e, Trace.ofJson (p.fill (.text s)) = .error e := by
  refine ⟨?_, ?_, ?_⟩
  · intro p v n hv hn
    have hzero : Document.quantity (.ofJson (.nat 0)) = .ok 0 :=
      Document.quantity_of_spells .number (by decide)
    exact p.ofJson_fill hzero (Document.quantity_of_spells hv hn)
  · intro t spell hspell
    have h : Restores Json.depthLimit Trace.shape.read (t.toJsonIn spell) t :=
      t.restores_in (fun n => .spelled (hspell n)) fun n => (hspell n).ne_null
    exact h.comesBack
  · intro p s hs
    have hlarge : ∀ n, SpellsQuantity n (.text s) → 2 ^ 64 ≤ n := by
      intro n hn
      obtain ⟨m, hm, hspells⟩ | hform := hs
      · exact hn.unique hspells ▸ hm
      · exact absurd (exists_spellsQuantity_iff.mp ⟨n, hn⟩) hform
    obtain ⟨e, he⟩ := Document.quantity_of_not_spells hlarge
    exact p.exists_error (by simp) he

def secondGas : QuantityHole :=
  .gas
    { logs := .member [("failed", .bool true)] []
      before := [.array [.nat 0, .text "PUSH1", .text "9", .null, .array [], .null, .nat 1]]
      after := [] }
    (.member [("depth", .nat 1), ("op", .text "SLOAD")] [("pc", .nat 2)])

theorem quantities_read_exactly_second_step :
    Trace.ofJson (secondGas.fill (.text "0x00fF")) =
      .ok { logs := [{ op := "PUSH1", gas := 9, depth := 1 },
              { pc := 2, op := "SLOAD", gas := 255, depth := 1 }]
            failed := some true } ∧
    Trace.shape.ComesBack (revertedTrace.toJsonIn fun n => .text (Text.Numeral.decimal n.toNat))
      revertedTrace ∧
    (∃ e, Trace.ofJson (secondGas.fill (.text "0x10000000000000000")) = .error e) ∧
    ∃ e, Trace.ofJson (secondGas.fill (.text "0X1f")) = .error e := by
  obtain ⟨hread, hback, hrefused⟩ := quantities_read_exactly
  refine ⟨?_, ?_, ?_, ?_⟩
  · rw [hread secondGas _ 255 (.hexadecimal rfl (.inl ⟨2, ['f', 'F'], rfl, rfl⟩)) (by decide)]
    decide
  · apply hback
    intro n
    apply SpellsQuantity.decimal
    rw [Text.Numeral.decimal, String.toList_ofList]
    exact Text.Numeral.spells_toDigits (by decide) (by decide) n.toNat
  · apply hrefused
    exact .inl ⟨2 ^ 64, Nat.le_refl _, .hexadecimal rfl (.inl ⟨0, _, rfl, rfl⟩)⟩
  · apply hrefused
    apply Or.inr
    rintro (⟨ds, rfl | hds, -, hdigits⟩ | ⟨ds, hds, -⟩)
    · exact absurd (hdigits 'X' (by decide)) (by decide)
    · cases hds
    · cases hds

end TxForensics
