import TxForensics.Analysis.Load
import TxForensics.Proofs.Json.Restoring
import TxForensics.Proofs.Text.Utf8
import TxForensics.Settings.Json

/-!
# What is written comes back

Traces, storage layouts, artifacts and settings are read back as the values that were written: from
the tree, from its printed text, and from the tree that the text is parsed as, whose members are
sorted. A trace also comes back from a file of its text, and from a file with an answer whose
`result` it is; its quantities may be spelled in any way that comes back (`Trace.restores_in`).

The fields of a shape and the members that are written for it are two lists, and each `restores`
below goes through both in step. A member that is written under another name, in another form or not
at all where it must be leaves no term for its place.
-/

namespace TxForensics

/-! ## The shapes -/

theorem StepLog.shape_orderless : StepLog.shape.Orderless := by
  constructor <;> simp [shape, RecordField.mandatory, RecordField.defaulted]

theorem Trace.shape_orderless : Trace.shape.Orderless := by
  constructor <;> simp [shape, RecordField.defaulted]

theorem TypeInfo.shape_orderless : TypeInfo.shape.Orderless := by
  constructor <;> simp [shape, RecordField.mandatory, RecordField.defaulted]

theorem StateVariable.shape_orderless : StateVariable.shape.Orderless := by
  constructor <;> simp [shape, RecordField.mandatory, RecordField.defaulted]

theorem StorageLayout.shape_orderless : StorageLayout.shape.Orderless := by
  constructor <;> simp [shape, RecordField.defaulted]

theorem RuntimeCode.shape_orderless : RuntimeCode.shape.Orderless := by
  constructor <;> simp [shape, RecordField.defaulted]

theorem Artifact.shape_orderless : Artifact.shape.Orderless := by
  constructor <;> simp [shape, RecordField.defaulted]

theorem Settings.shape_orderless : Settings.shape.Orderless := by
  constructor <;> simp [shape, RecordField.defaulted]

/-! ## Traces -/

/-- The written form of a step log with its quantities in a spelling. -/
def StepLog.toJsonIn (spell : UInt64 → Json) (log : StepLog) : Json :=
  .ofMembers [
    Json.member "pc" (.nat log.pc.toNat),
    Json.member "op" (.text log.op),
    Json.member "gas" (spell log.gas),
    Json.member? "gasCost" spell log.gasCost,
    Json.member "stack" (.array (log.stack.map .text)),
    Json.member? "memory" (fun words => .array (words.map .text)) log.memory,
    Json.member "depth" (.nat log.depth.toNat)]

def Trace.toJsonIn (spell : UInt64 → Json) (t : Trace) : Json :=
  .ofMembers [
    Json.member "structLogs" (.array (t.logs.map (StepLog.toJsonIn spell))),
    Json.member? "returnValue" .text t.returnValue,
    Json.member? "revertReason" .text t.revertReason,
    Json.member? "failed" .bool t.failed,
    Json.member? "gas" spell t.gas]

/-- Traces are written with their quantities in numbers. -/
theorem Trace.toJsonIn_nat (t : Trace) : t.toJsonIn (fun n => .nat n.toNat) = t.toJson := rfl

section

variable {spell : UInt64 → Json}
  (hspell : ∀ {depth : Nat} (n : UInt64), Restores depth Document.quantity (spell n) n)
  (hnull : ∀ n, spell n ≠ .null)
include hspell hnull

/-- A step log comes back in any spelling of its quantities that comes back. -/
theorem StepLog.restores_in {depth : Nat} (log : StepLog) :
    Restores (depth + 2) shape.read (log.toJsonIn spell) log :=
  RecordShape.restores shape_orderless <|
    .mandatory (.uint32 log.pc) <|
    .mandatory (.string log.op) <|
    .mandatory (hspell log.gas) <|
    .optional hspell hnull rfl <|
    .defaulted (.list .string) <|
    .optional (fun _ => .list .string) (by simp) rfl <|
    .mandatory (.uint32 log.depth)
    .nil

theorem Trace.recovers_in (depth : Nat) (t : Trace) :
    ∃ members, t.toJsonIn spell = .ofMembers members ∧
      Recovers (depth + 3) shape.fields members shape.blank t :=
  ⟨_, rfl,
    .defaulted (.list (StepLog.restores_in hspell hnull)) <|
    .optional .string (by simp) rfl <|
    .optional .string (by simp) rfl <|
    .optional .boolean (by simp) rfl <|
    .optional hspell hnull rfl
    .nil⟩

theorem Trace.restores_in {depth : Nat} (t : Trace) :
    Restores (depth + 4) shape.read (t.toJsonIn spell) t := by
  obtain ⟨members, hjson, h⟩ := t.recovers_in hspell hnull depth
  exact hjson ▸ RecordShape.restores shape_orderless h

end

theorem Trace.recovers (depth : Nat) (t : Trace) : ∃ members, t.toJson = .ofMembers members ∧
    Recovers (depth + 3) shape.fields members shape.blank t := by
  rw [← t.toJsonIn_nat]
  exact t.recovers_in .quantity (by simp [Json.nat]) depth

theorem Trace.restores {depth : Nat} (t : Trace) :
    Restores (depth + 4) shape.read t.toJson t := by
  rw [← t.toJsonIn_nat]
  exact t.restores_in .quantity (by simp [Json.nat])

/-! ## Artifacts and settings -/

theorem TypeInfo.restores {depth : Nat} (t : TypeInfo) :
    Restores (depth + 1) shape.read t.toJson t :=
  RecordShape.restores shape_orderless <|
    .defaulted (.string t.encoding) <|
    .mandatory (.string t.label) <|
    .mandatory (.string t.numberOfBytes) <|
    .optional .string (by simp) rfl <|
    .optional .string (by simp) rfl
    .nil

theorem StateVariable.restores {depth : Nat} (v : StateVariable) :
    Restores (depth + 1) shape.read v.toJson v :=
  RecordShape.restores shape_orderless <|
    .defaulted (.uint64 v.astId) <|
    .defaulted (.string v.contract) <|
    .mandatory (.string v.label) <|
    .defaulted (.uint32 v.offset) <|
    .mandatory (.string v.slot) <|
    .mandatory (.string v.typeId)
    .nil

theorem StorageLayout.restores {depth : Nat} (l : StorageLayout) :
    Restores (depth + 3) shape.read l.toJson l :=
  RecordShape.restores shape_orderless <|
    .defaulted (.list StateVariable.restores) <|
    .defaulted (.optional (.map TypeInfo.restores) (by simp))
    .nil

theorem RuntimeCode.restores {depth : Nat} (b : RuntimeCode) :
    Restores (depth + 1) shape.read b.toJson b :=
  RecordShape.restores shape_orderless <|
    .defaulted (.string b.object) <|
    .optional .string (by simp) rfl
    .nil

theorem Artifact.restores {depth : Nat} (a : Artifact) :
    Restores (depth + 4) shape.read a.toJson a :=
  RecordShape.restores shape_orderless <|
    .optional StorageLayout.restores (by simp [StorageLayout.toJson, Json.ofMembers]) rfl <|
    .optional RuntimeCode.restores (by simp [RuntimeCode.toJson, Json.ofMembers]) rfl
    .nil

theorem Settings.restores {depth : Nat} (s : Settings) :
    Restores (depth + 1) shape.read s.toJson s :=
  RecordShape.restores shape_orderless <|
    .defaulted (.wordSized s.lookback) <|
    .defaulted (.wordSized s.tolerance) <|
    .defaulted (.boolean s.withFunction) <|
    .defaulted (.string s.genericReason)
    .nil

/-! ## Texts and files -/

/-- Whether the value `x` of the shape `s` comes back from its written form `j`. -/
structure RecordShape.ComesBack (s : RecordShape ρ) (j : Json) (x : ρ) : Prop where
  /-- From the tree itself. -/
  tree : s.read (.ofJson j) = .ok x
  /-- From the printed text, of which nothing is left over. -/
  text : s.read (Document.ofText j.print).root = .ok x ∧ (Document.ofText j.print).ends = true
  /-- From the tree that the printed text is parsed as. -/
  parsed : ∃ tree, Json.parse j.print = .ok tree ∧ s.read (.ofJson tree) = .ok x

/-- What is restored at the depth of a whole text comes back in all three ways. -/
theorem Restores.comesBack {s : RecordShape ρ} {j : Json} {x : ρ}
    (h : Restores Json.depthLimit s.read j x) : s.ComesBack j x where
  tree := h.written
  text := by
    rw [Json.ofText_print h.lossless]
    exact ⟨h.written, rfl⟩
  parsed := ⟨j.sorted, Json.parse_print h.lossless, h.sorted⟩

namespace Contents

def ofText (s : String) : Contents := some (Text.Utf8.encode s.toList)

theorem text_ofText (s : String) : (ofText s).text = .ok s := by
  rw [ofText, text, Text.Utf8.decode?_encode]
  exact congrArg Except.ok String.ofList_toList

/-- The trace in a file is that of the tree in its text, taken out of an answer if it is in one. -/
theorem trace_of_parse {file : Contents} {s : String} {j : Json} {t : Trace}
    (htext : file.text = .ok s) (hparse : Json.parse s = .ok j)
    (hread : Trace.ofJson (Trace.unwrap j) = .ok t) : file.trace = .ok t := by
  rw [trace, htext]
  show ((Json.parse s).mapError _ >>= _) = _
  rw [hparse]
  show (Trace.ofJson (Trace.unwrap j)).mapError _ = _
  rw [hread]
  rfl

end Contents

/-- No trace is written as an answer that wraps another. -/
theorem Trace.unwrap_sorted (t : Trace) : Trace.unwrap t.toJson.sorted = t.toJson.sorted := by
  obtain ⟨members, hjson, h⟩ := recovers 0 t
  -- a member is taken for the trace only under this name, which no field has
  have hname : "result" ∉ shape.fields.map RecordField.name := by
    simp [shape, RecordField.defaulted]
  rw [hjson, Json.ofMembers, Json.sorted, unwrap,
    RecordShape.lookup_sorted_eq_none shape_orderless h hname]
  rfl

/-- **What is written comes back.** Traces, storage layouts, artifacts and settings are read back
from their written form. A trace comes back from a file of its text too, and from every file whose
text is an object with the tree of that text as its `result`, whatever else the object holds and
however it is laid out. -/
theorem written_values_come_back :
    (∀ t : Trace, Trace.shape.ComesBack t.toJson t ∧
      (Contents.ofText t.toJson.print).trace = .ok t ∧
      ∀ (file : Contents) (s : String) (members : List (String × Json)) (tree : Json),
        file.text = .ok s → Json.parse s = .ok (.object members) →
        members.lookup "result" = some tree → Json.parse t.toJson.print = .ok tree →
        file.trace = .ok t) ∧
    (∀ l : StorageLayout, StorageLayout.shape.ComesBack l.toJson l) ∧
    (∀ a : Artifact, Artifact.shape.ComesBack a.toJson a) ∧
    ∀ s : Settings, Settings.shape.ComesBack s.toJson s := by
  refine ⟨fun t => ?_, fun l => (StorageLayout.restores l).comesBack,
    fun a => (Artifact.restores a).comesBack, fun s => (Settings.restores s).comesBack⟩
  have ht : Restores Json.depthLimit Trace.shape.read t.toJson t := t.restores
  have hparse := Json.parse_print ht.lossless
  refine ⟨ht.comesBack, ?_, ?_⟩
  · exact Contents.trace_of_parse (Contents.text_ofText _) hparse (t.unwrap_sorted.symm ▸ ht.sorted)
  · intro file s members tree htext hobject hresult htree
    -- the text determines the tree, so the `result` is the sorted tree of the trace
    have heq : tree = t.toJson.sorted := Except.ok.inj (htree.symm.trans hparse)
    refine Contents.trace_of_parse htext hobject ?_
    rw [Trace.unwrap, hresult, heq]
    exact ht.sorted

def revertedTrace : Trace where
  logs := [{ pc := 4, op := "REVERT", gas := 90, stack := ["0x0", "0x0"], depth := 1 }]
  failed := some true

theorem written_values_come_back_answer :
    (Contents.ofText (Json.object [("jsonrpc", .text "2.0"), ("id", .nat 1),
      ("result", revertedTrace.toJson)]).print).trace = .ok revertedTrace := by
  have ht : Restores 126 Trace.shape.read revertedTrace.toJson revertedTrace :=
    revertedTrace.restores
  have hanswer : (Json.object [("jsonrpc", .text "2.0"), ("id", .nat 1),
      ("result", revertedTrace.toJson)]).Lossless Json.depthLimit :=
    .object (by simp) <| List.forall_mem_cons.2 ⟨.text, List.forall_mem_cons.2
      ⟨.integer (by decide), List.forall_mem_cons.2 ⟨ht.lossless, by simp⟩⟩⟩
  exact (written_values_come_back.1 revertedTrace).2.2 _ _ _ _ (Contents.text_ofText _)
    (Json.parse_print hanswer) rfl (Json.parse_print revertedTrace.restores.lossless)

end TxForensics
