import Mathlib.Algebra.BigOperators.Group.List.Basic
import Mathlib.Algebra.GroupWithZero.Nat
import TxForensics.Proofs.Text.Hex
import TxForensics.Proofs.Trace.Acceptance

/-!
# Where the words of a memory stand

The memory of a step holds the bytes of its words, one word behind the other. A tracer writes 64
digits for each, and then the word `k` is found at the byte `32 * k`, as an offset of the machine
says. The check asks for pairs of digits only, though, and a word with fewer of them is not filled
up as a word of the stack is:

    words    "00…1f"    "2a"    "00…07"
    bytes    0 … 31     32      33 … 64

So a word stands where the words before it end (`wordOffset`), and these are the multiples of 32
exactly when every word has 64 digits (`memory_aligned_iff`).
-/

namespace TxForensics

/-- The number of bytes that a memory word takes up: one for two digits behind its mark. -/
def wordWidth (word : String) : Nat := (Hex.stripMark word.toList).length / 2

/-- The number of bytes that the words before the word `k` take up. -/
def wordOffset (words : List String) (k : Nat) : Nat := ((words.map wordWidth).take k).sum

/-- The words of a memory stand at the multiples of the word size, and there is nothing else. -/
def WordAligned (memory : Bytes) (words : List String) : Prop :=
  memory.length = wordSize * words.length ∧
    ∀ k word, words[k]? = some word →
      Hex.Denotes ["0x", "0X"] word.toList ((memory.drop (wordSize * k)).take wordSize)

variable {words : List String} {parts : List Bytes}

/-! ## Words one behind the other -/

/-- A word takes up as many bytes as it denotes. -/
theorem wordWidth_of_denotes {word : String} {part : Bytes}
    (h : Hex.Denotes ["0x", "0X"] word.toList part) : wordWidth word = part.length := by
  rw [wordWidth, h.length_stripMark]
  omega

def WordsDenote (words : List String) (parts : List Bytes) : Prop :=
  List.Forall₂ (fun word => Hex.Denotes ["0x", "0X"] word.toList) words parts

theorem WordsDenote.map_wordWidth (h : WordsDenote words parts) :
    words.map wordWidth = parts.map List.length := by
  rw [WordsDenote] at h
  induction h with
  | nil => rfl
  | cons hword _ ih => rw [List.map_cons, List.map_cons, wordWidth_of_denotes hword, ih]

/-- The memory has the bytes of all words. -/
theorem WordsDenote.length_flatten (h : WordsDenote words parts) :
    parts.flatten.length = wordOffset words words.length := by
  have hall : (words.map wordWidth).take words.length = words.map wordWidth :=
    List.take_of_length_le (Nat.le_of_eq (List.length_map wordWidth))
  rw [wordOffset, hall, h.map_wordWidth, List.length_flatten]

/-- A word stands behind the words before it. -/
theorem WordsDenote.slice (h : WordsDenote words parts) {k : Nat} {word : String}
    (hword : words[k]? = some word) :
    Hex.Denotes ["0x", "0X"] word.toList
      ((parts.flatten.drop (wordOffset words k)).take (wordWidth word)) := by
  obtain ⟨hk, rfl⟩ := List.getElem?_eq_some_iff.mp hword
  have hk' : k < parts.length := h.length_eq ▸ hk
  have hdenotes : Hex.Denotes ["0x", "0X"] words[k].toList parts[k] := h.get hk hk'
  have hrest : parts.drop k = parts[k] :: parts.drop (k + 1) := List.drop_eq_getElem_cons hk'
  rw [wordOffset, h.map_wordWidth, List.drop_sum_flatten, hrest, List.flatten_cons,
    wordWidth_of_denotes hdenotes, List.take_left]
  exact hdenotes

theorem WordsDenote.length_stripMark (h : WordsDenote words parts) {word : String}
    (hmem : word ∈ words) :
    (Hex.stripMark word.toList).length = 2 * wordWidth word := by
  obtain ⟨k, hword⟩ := List.mem_iff_getElem?.mp hmem
  have hdenotes := h.slice hword
  have hwidth := wordWidth_of_denotes hdenotes
  rw [hdenotes.length_stripMark, ← hwidth]

/-! ## Words of full width -/

/-- Words of one width stand at its multiples. -/
theorem wordOffset_of_width {size : Nat} (h : ∀ word ∈ words, wordWidth word = size) {k : Nat}
    (hk : k ≤ words.length) : wordOffset words k = size * k := by
  have hwidths : words.map wordWidth = List.replicate words.length size :=
    List.map_eq_replicate_iff.mpr h
  rw [wordOffset, hwidths, List.take_replicate, Nat.min_eq_left hk, List.sum_replicate_nat,
    Nat.mul_comm]

/-- Words stand at the multiples of the word size just when each of them has that size. -/
theorem WordsDenote.aligned_iff (h : WordsDenote words parts) :
    WordAligned parts.flatten words ↔ ∀ word ∈ words, wordWidth word = wordSize := by
  constructor
  · rintro ⟨hlength, haligned⟩ word hmem
    obtain ⟨k, hword⟩ := List.mem_iff_getElem?.mp hmem
    obtain ⟨hk, -⟩ := List.getElem?_eq_some_iff.mp hword
    -- the word has all its bytes, since there are as many behind it as words of full width have
    have hroom : wordSize * (k + 1) ≤ wordSize * words.length := Nat.mul_le_mul_left _ hk
    rw [wordWidth_of_denotes (haligned k word hword), List.length_take, List.length_drop, hlength]
    rw [Nat.mul_add] at hroom
    omega
  · intro hwidth
    refine ⟨?_, ?_⟩
    · rw [h.length_flatten, wordOffset_of_width hwidth (Nat.le_refl _)]
    · intro k word hword
      obtain ⟨hk, -⟩ := List.getElem?_eq_some_iff.mp hword
      have hslice := h.slice hword
      rwa [wordOffset_of_width hwidth (Nat.le_of_lt hk),
        hwidth word (List.mem_of_getElem? hword)] at hslice

/-! ## The memory of a step -/

/-- What there is to reading a memory. -/
theorem memoryBytes_eq_ok {log : StepLog} {position : Nat} {memory : Option Bytes}
    (h : log.memoryBytes position = .ok memory) :
    (log.memory = none ∧ memory = none) ∨
      ∃ words parts, log.memory = some words ∧ WordsDenote words parts ∧
        memory = some parts.flatten := by
  rw [StepLog.memoryBytes] at h
  cases hwords : log.memory with
  | none =>
    obtain rfl : none = memory := by simpa [hwords] using h
    exact .inl ⟨rfl, rfl⟩
  | some words =>
    rw [hwords] at h
    dsimp only at h
    cases hcheck : checkAll (fun word => Hex.decode word.toList) 0 words with
    | error e => simp [hcheck] at h
    | ok parts =>
      obtain rfl : some parts.flatten = memory := by simpa [hcheck] using h
      have hmap := map_checkAll hcheck
      rw [← List.forall₂_eq_eq_eq, List.forall₂_map_left_iff, List.forall₂_map_right_iff] at hmap
      exact .inr ⟨words, parts, rfl, hmap.imp fun _ _ => Hex.decode_eq_ok_iff.mp, rfl⟩

/-- **Where the words of a memory stand.** A step of an accepted trace has a memory just when its
log has one. Every word stands there behind the words before it, with as many bytes as it has pairs
of digits, and nothing else does. The words stand at the multiples of 32, so that an offset of the
machine leads to its byte, exactly when each of them has 64 digits. -/
theorem memory_aligned_iff {logs : List StepLog} {steps : List Step}
    (h : checkSteps logs = .ok steps) {i : Nat} {log : StepLog} {step : Step}
    (hlog : logs[i]? = some log) (hstep : steps[i]? = some step) :
    (step.memory.isSome ↔ log.memory.isSome) ∧
      ∀ words memory, log.memory = some words → step.memory = some memory →
        memory.length = wordOffset words words.length ∧
        (∀ k word, words[k]? = some word →
          Hex.Denotes ["0x", "0X"] word.toList
            ((memory.drop (wordOffset words k)).take (wordWidth word))) ∧
        (WordAligned memory words ↔
          ∀ word ∈ words, (Hex.stripMark word.toList).length = 2 * wordSize) := by
  have hrun : checkFrom 0 ((none : Option StepLog).map StepLog.gas) logs = .ok steps := h
  obtain ⟨stack, memory, -, hmemory, rfl⟩ := checked_of_checkFrom hrun hlog hstep
  obtain ⟨hnone, rfl⟩ | ⟨words, parts, hsome, hparts, rfl⟩ := memoryBytes_eq_ok hmemory
  · refine ⟨by rw [hnone]; rfl, ?_⟩
    intro words memory hwords
    rw [hnone] at hwords
    cases hwords
  · refine ⟨by rw [hsome]; exact iff_of_true rfl rfl, ?_⟩
    intro words' memory hwords hmem
    obtain rfl : words = words' := Option.some.inj (hsome.symm.trans hwords)
    obtain rfl : parts.flatten = memory := Option.some.inj hmem
    refine ⟨hparts.length_flatten, fun k word hword => hparts.slice hword, ?_⟩
    rw [hparts.aligned_iff]
    refine forall₂_congr fun word hmem => ?_
    rw [hparts.length_stripMark hmem]
    omega

def withFullWords : StepLog :=
  { op := "MSTORE", memory := some
      ["0x0000000000000000000000000000000000000000000000000000000000000000",
        "0000000000000000000000000000000000000000000000000000000000000080"] }

theorem memory_aligned_full_words :
    ∃ steps step words memory, checkSteps [withFullWords] = .ok steps ∧ steps[0]? = some step ∧
      withFullWords.memory = some words ∧ step.memory = some memory ∧ words.length = 2 ∧
      WordAligned memory words := by
  obtain ⟨steps, h⟩ : ∃ steps, checkSteps [withFullWords] = .ok steps := ⟨_, rfl⟩
  have hlength : steps.length = 1 := length_checkSteps h
  obtain ⟨step, hstep⟩ : ∃ step, steps[0]? = some step :=
    ⟨_, List.getElem?_eq_getElem (by omega)⟩
  obtain ⟨hrecorded, hmemory⟩ := memory_aligned_iff h rfl hstep
  obtain ⟨memory, hmem⟩ := Option.isSome_iff_exists.mp (hrecorded.mpr rfl)
  obtain ⟨-, -, haligned⟩ := hmemory _ memory rfl hmem
  exact ⟨steps, step, _, memory, h, hstep, rfl, hmem, rfl, haligned.mpr (by decide +kernel)⟩

/-- A word of two digits takes up one byte, so the memory is not made of whole words. -/
theorem short_word_accepted :
    ¬ ∀ (logs : List StepLog) (steps : List Step), checkSteps logs = .ok steps →
      ∀ (i : Nat) (log : StepLog) (step : Step), logs[i]? = some log → steps[i]? = some step →
        ∀ words memory, log.memory = some words → step.memory = some memory →
          WordAligned memory words := by
  intro h
  have haligned := h [{ memory := some ["01"] }] _ rfl 0 _ _ rfl rfl ["01"] [1] rfl rfl
  exact absurd haligned.1 (by decide)

end TxForensics
