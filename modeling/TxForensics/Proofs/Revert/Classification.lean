import TxForensics.Proofs.Revert.Payload
import TxForensics.Proofs.Text.Trim

/-!
# Which cause a failure has

A failure is classified by its payload, and by the words of the node where the payload holds
nothing known:

    the payload                                  with words     without
    a panic of one byte                          the panic      the panic
    a wider panic                                its bytes      its bytes
    an error                                     its text       its text
    another selector, whatever follows           the words      its bytes
    a known selector and no arguments for it     the words      the generic message
    less than a selector                         the words      the generic message

What a payload holds is said by where its parts stand (`HoldsPanic`, `HoldsError`), not by how it is
read. `Classified` is the table, and a failure is classified by the one row that it has
(`ofPayload_precedence`).
-/

namespace TxForensics

namespace Payload

/-! ## What a payload holds -/

/-- The payload is a panic with a code; what follows the code does not count. -/
def HoldsPanic (payload : Bytes) (code : Nat) : Prop :=
  ∃ arguments, payload = panicSelector ++ arguments ∧ NumberAt arguments 0 code

/-- The payload is an error with a message. -/
def HoldsError (payload : Bytes) (message : String) : Prop :=
  ∃ arguments, payload = errorSelector ++ arguments ∧ TextIn arguments message

def Known (payload : Bytes) : Prop :=
  (∃ code, HoldsPanic payload code) ∨ ∃ message, HoldsError payload message

/-- The payload has a selector of another kind. -/
def Custom (payload : Bytes) : Prop :=
  selectorSize ≤ payload.length ∧ ¬ panicSelector <+: payload ∧ ¬ errorSelector <+: payload

variable {payload : Bytes}

/-! ## Selectors -/

/-- What stands behind a selector is what is left when it is taken off. -/
theorem exists_arguments_iff {selector : Bytes} {P : Bytes → Prop}
    (size : selector.length = selectorSize) :
    (∃ arguments, payload = selector ++ arguments ∧ P arguments) ↔
      payload.take selectorSize = selector ∧ P (payload.drop selectorSize) := by
  constructor
  · rintro ⟨arguments, rfl, h⟩
    rw [List.take_left' size, List.drop_left' size]
    exact ⟨rfl, h⟩
  · rintro ⟨hselector, h⟩
    refine ⟨_, ?_, h⟩
    rw [← hselector, List.take_append_drop]

theorem holdsPanic_iff {code : Nat} : HoldsPanic payload code ↔
    payload.take selectorSize = panicSelector ∧
      panicCode? (payload.drop selectorSize) = some code := by
  rw [HoldsPanic, exists_arguments_iff rfl, panicCode?, wordAt?_eq_some_iff]

/-- The word behind the selector of a panic is its code, whatever follows. -/
theorem holdsPanic_append (w : Word) (rest : Bytes) :
    HoldsPanic (panicSelector ++ (w.bytes ++ rest)) w.toNat :=
  ⟨_, rfl, numberAt_append [] rest w rfl⟩

theorem holdsError_iff {message : String} : HoldsError payload message ↔
    payload.take selectorSize = errorSelector ∧
      errorText? (payload.drop selectorSize) = some message := by
  rw [HoldsError, exists_arguments_iff rfl, errorText?_eq_some_iff]

theorem custom_iff : Custom payload ↔ selectorSize ≤ payload.length ∧
    payload.take selectorSize ≠ panicSelector ∧ payload.take selectorSize ≠ errorSelector := by
  have hprefix (selector : Bytes) (size : selector.length = selectorSize) :
      selector <+: payload ↔ payload.take selectorSize = selector := by
    rw [List.prefix_iff_eq_take, size, eq_comm]
  rw [Custom, hprefix panicSelector rfl, hprefix errorSelector rfl]

end Payload

namespace RevertCause

open Payload

variable {payload : Bytes} {plainReason : Option String} {generic : String}

/-! ## The plain reason -/

/-- A plain reason was given, and there are words in it. -/
def PlainWords (plainReason : Option String) (words : String) : Prop :=
  ∃ text, plainReason = some text ∧ (∃ c ∈ text.toList, Text.isBlank c = false) ∧
    words = Text.trimmed text

theorem trimmed_ne_empty_iff {text : String} :
    Text.trimmed text ≠ "" ↔ ∃ c ∈ text.toList, Text.isBlank c = false := by
  rw [Text.trimmed, Ne, ← String.toList_inj, String.toList_ofList, String.toList_empty,
    Text.trim_eq_nil_iff]
  simp

/-- Words of the node count once they are trimmed, if anything is left of them. -/
theorem plain?_eq_some_iff {words : String} :
    plain? plainReason = some words ↔ PlainWords plainReason words := by
  rw [plain?, Option.filter_eq_some_iff, Option.map_eq_some_iff]
  simp only [PlainWords, ← trimmed_ne_empty_iff, decide_eq_true_eq]
  constructor
  · rintro ⟨⟨text, htext, rfl⟩, hne⟩
    exact ⟨text, htext, hne, rfl⟩
  · rintro ⟨text, htext, hne, rfl⟩
    exact ⟨⟨text, htext, rfl⟩, hne⟩

theorem plain?_eq_none (h : ¬ ∃ words, PlainWords plainReason words) :
    plain? plainReason = none := by
  rw [Option.eq_none_iff_forall_ne_some]
  intro words hwords
  exact h ⟨words, plain?_eq_some_iff.mp hwords⟩

/-! ## One row at a time -/

/-- A panic of more than one byte keeps its bytes. -/
theorem ofPayload_of_holdsPanic {code : Nat} (h : HoldsPanic payload code) :
    ofPayload payload plainReason generic =
      if code < 256 then .panic code.toUInt8 else .unknown payload := by
  obtain ⟨hselector, hcode⟩ := holdsPanic_iff.mp h
  have hlong : ¬ payload.length < selectorSize := by
    have hlength : min selectorSize payload.length = selectorSize := by
      rw [← List.length_take, hselector]
      rfl
    omega
  rw [ofPayload]
  simp only [if_neg hlong, if_pos hselector, hcode]

theorem ofPayload_of_holdsError {message : String} (h : HoldsError payload message) :
    ofPayload payload plainReason generic = .stated message := by
  obtain ⟨arguments, rfl, hmessage⟩ := h
  exact ofPayload_errorSelector (errorText?_eq_some_iff.mpr hmessage)

theorem ofPayload_of_custom (h : Custom payload) :
    ofPayload payload plainReason generic =
      ((plain? plainReason).map stated).getD (.unknown payload) := by
  obtain ⟨hlong, hpanic, herror⟩ := custom_iff.mp h
  rw [ofPayload]
  simp only [if_neg (Nat.not_lt.mpr hlong), if_neg hpanic, if_neg herror]
  cases plain? plainReason <;> rfl

/-- With nothing known and no other selector, the payload says nothing. -/
theorem ofPayload_of_malformed (hknown : ¬ Known payload) (hcustom : ¬ Custom payload) :
    ofPayload payload plainReason generic = fallback plainReason generic := by
  rw [ofPayload]
  split
  · rfl
  · next hlong =>
    split
    · next hselector =>
      cases hcode : panicCode? (payload.drop selectorSize) with
      | none => rfl
      | some code => exact absurd (.inl ⟨code, holdsPanic_iff.mpr ⟨hselector, hcode⟩⟩) hknown
    · next hpanic =>
      split
      · next hselector =>
        cases hmessage : errorText? (payload.drop selectorSize) with
        | none => rfl
        | some message =>
          exact absurd (.inr ⟨message, holdsError_iff.mpr ⟨hselector, hmessage⟩⟩) hknown
      · -- a selector that is neither would make the payload one of another kind
        next herror => exact absurd (custom_iff.mpr ⟨Nat.not_lt.mp hlong, hpanic, herror⟩) hcustom

/-- Words of the node come before the bytes of the payload and before the generic message. -/
theorem ofPayload_of_plainWords {words : String} (hknown : ¬ Known payload)
    (hwords : PlainWords plainReason words) :
    ofPayload payload plainReason generic = .stated words := by
  by_cases hcustom : Custom payload
  · rw [ofPayload_of_custom hcustom, plain?_eq_some_iff.mpr hwords]
    rfl
  · rw [ofPayload_of_malformed hknown hcustom, fallback, plain?_eq_some_iff.mpr hwords]
    rfl

/-! ## The table -/

/-- The cause of a failure, with its message. -/
inductive Classified (payload : Bytes) (plainReason : Option String) (generic : String) :
    RevertCause → String → Prop
  | panic {code : UInt8} : HoldsPanic payload code.toNat →
      Classified payload plainReason generic (.panic code) (panicMeaning code)
  | widePanic {code : Nat} : HoldsPanic payload code → 256 ≤ code →
      Classified payload plainReason generic (.unknown payload) (Hex.prefixed payload)
  | error {message : String} : HoldsError payload message →
      Classified payload plainReason generic (.stated message) message
  | plain {words : String} : ¬ Known payload → PlainWords plainReason words →
      Classified payload plainReason generic (.stated words) words
  | custom : Custom payload → (¬ ∃ words, PlainWords plainReason words) →
      Classified payload plainReason generic (.unknown payload) (Hex.prefixed payload)
  | malformed : ¬ Known payload → ¬ Custom payload → (¬ ∃ words, PlainWords plainReason words) →
      Classified payload plainReason generic (.stated generic) generic

variable {cause : RevertCause} {text : String}

/-- Every failure has a row of the table. -/
theorem classified_ofPayload : Classified payload plainReason generic
    (ofPayload payload plainReason generic) (ofPayload payload plainReason generic).message := by
  -- the rows in their order: what is known, then words, then another selector
  by_cases hknown : Known payload
  · obtain ⟨code, hcode⟩ | ⟨message, hmessage⟩ := hknown
    · rw [ofPayload_of_holdsPanic hcode]
      split
      · next hlt =>
        have hsmall : code.toUInt8.toNat = code := Nat.mod_eq_of_lt hlt
        rw [← hsmall] at hcode
        exact .panic hcode
      · next hge => exact .widePanic hcode (Nat.not_lt.mp hge)
    · rw [ofPayload_of_holdsError hmessage]
      exact .error hmessage
  · by_cases hplain : ∃ words, PlainWords plainReason words
    · obtain ⟨words, hwords⟩ := hplain
      rw [ofPayload_of_plainWords hknown hwords]
      exact .plain hknown hwords
    · by_cases hcustom : Custom payload
      · rw [ofPayload_of_custom hcustom, plain?_eq_none hplain]
        exact .custom hcustom hplain
      · rw [ofPayload_of_malformed hknown hcustom, fallback, plain?_eq_none hplain]
        exact .malformed hknown hcustom hplain

/-- Whatever row it has is the one that it is classified by. -/
theorem Classified.ofPayload_eq (h : Classified payload plainReason generic cause text) :
    ofPayload payload plainReason generic = cause ∧ cause.message = text := by
  cases h with
  | @panic code hcode =>
    have hbyte : code.toNat.toUInt8 = code := UInt8.ofNat_toNat
    rw [ofPayload_of_holdsPanic hcode, if_pos code.toNat_lt, hbyte]
    exact ⟨rfl, rfl⟩
  | widePanic hcode hwide =>
    rw [ofPayload_of_holdsPanic hcode, if_neg (Nat.not_lt.mpr hwide)]
    exact ⟨rfl, rfl⟩
  | error hmessage => exact ⟨ofPayload_of_holdsError hmessage, rfl⟩
  | plain hknown hwords => exact ⟨ofPayload_of_plainWords hknown hwords, rfl⟩
  | custom hcustom hplain =>
    rw [ofPayload_of_custom hcustom, plain?_eq_none hplain]
    exact ⟨rfl, rfl⟩
  | malformed hknown hcustom hplain =>
    rw [ofPayload_of_malformed hknown hcustom, fallback, plain?_eq_none hplain]
    exact ⟨rfl, rfl⟩

/-- A failure has the row that it is classified by, and no other. -/
theorem classified_iff : Classified payload plainReason generic cause text ↔
    ofPayload payload plainReason generic = cause ∧ cause.message = text := by
  constructor
  · exact Classified.ofPayload_eq
  · rintro ⟨rfl, rfl⟩
    exact classified_ofPayload

theorem ofPayload_eq_panic_iff {code : UInt8} :
    ofPayload payload plainReason generic = .panic code ↔ HoldsPanic payload code.toNat := by
  constructor
  · intro h
    have hrow := classified_iff.mpr ⟨h, rfl⟩
    cases hrow with
    | panic hcode => exact hcode
  · intro hcode
    exact (Classified.panic hcode).ofPayload_eq.1

/-- What is known of a payload decides alone. -/
theorem ofPayload_of_known (h : Known payload) (plainReason plainReason' : Option String)
    (generic generic' : String) :
    ofPayload payload plainReason generic = ofPayload payload plainReason' generic' := by
  obtain ⟨code, hcode⟩ | ⟨message, hmessage⟩ := h
  · rw [ofPayload_of_holdsPanic hcode, ofPayload_of_holdsPanic hcode]
  · rw [ofPayload_of_holdsError hmessage, ofPayload_of_holdsError hmessage]

/-- **Which cause a failure has.** Every failure has exactly one row of the table and is classified
by it: a panic of one byte, with the meaning of its code; a wider panic, with its bytes; an error,
with its text; and where nothing known is held, the trimmed words of the node, else the bytes of a
payload with another selector, else the generic message. It is a panic just when the payload holds
one of one byte, and every word behind the selector of a panic is its code or keeps the bytes. What
the node and the caller say does not count when the payload holds something known. -/
theorem ofPayload_precedence (payload : Bytes) (plainReason : Option String) (generic : String) :
    (∀ cause text, Classified payload plainReason generic cause text ↔
      ofPayload payload plainReason generic = cause ∧ cause.message = text) ∧
    (∀ code, ofPayload payload plainReason generic = .panic code ↔
      HoldsPanic payload code.toNat) ∧
    (∀ (w : Word) (rest : Bytes), payload = panicSelector ++ (w.bytes ++ rest) →
      ofPayload payload plainReason generic =
        if w.toNat < 256 then .panic w.toNat.toUInt8 else .unknown payload) ∧
    (Known payload → ∀ plainReason' generic',
      ofPayload payload plainReason generic = ofPayload payload plainReason' generic') := by
  refine ⟨fun cause text => classified_iff, fun code => ofPayload_eq_panic_iff, ?_, ?_⟩
  · rintro w rest rfl
    exact ofPayload_of_holdsPanic (holdsPanic_append w rest)
  · intro hknown plainReason' generic'
    exact ofPayload_of_known hknown plainReason plainReason' generic generic'

def overflow : Bytes := panicSelector ++ ((Word.ofNat 0x11).bytes ++ [])

theorem ofPayload_precedence_overflow :
    Known overflow ∧
      ofPayload overflow (some "nope") "failed" = .panic 0x11 ∧
      ofPayload overflow none "" = .panic 0x11 := by
  have hknown : Known overflow := .inl ⟨_, holdsPanic_append (Word.ofNat 0x11) []⟩
  obtain ⟨-, -, hword, hirrelevant⟩ := ofPayload_precedence overflow (some "nope") "failed"
  have hpanic := hword (Word.ofNat 0x11) [] rfl
  refine ⟨hknown, hpanic, ?_⟩
  rw [← hirrelevant hknown none "", hpanic]
  rfl

end RevertCause

end TxForensics
