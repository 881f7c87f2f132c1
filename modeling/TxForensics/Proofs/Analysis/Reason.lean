import TxForensics.Proofs.Analysis.Degradation
import TxForensics.Proofs.Revert.Payload

/-!
# The reason that an analysis reports

A payload can be classified as bytes or as a text in hex, and an analysis takes a third way: it
reads the return value of the trace, counts one that cannot be read as empty, and classifies the
bytes. All three say the same of one text (`reason_of_text`). In particular the payload of an error,
written in hex, is reported with its own words (`reason_of_errorText`).

    text ──ofPayloadHex──▶ reason ◀──ofPayload── bytes ◀──returnBytes── trace
-/

namespace TxForensics

open RevertCause

variable {a : Analyzer} {r : TransactionRecord}

/-- What a trace returned is classified as the text it returned, a missing one as the empty text. -/
theorem ofPayload_returnBytes (t : Trace) (plainReason : Option String) (generic : String) :
    ofPayload (t.returnBytes.toOption.getD []) plainReason generic =
      ofPayloadHex (t.returnValue.getD "") plainReason generic := by
  rw [Trace.returnBytes]
  cases t.returnValue with
  | none => rfl
  | some value =>
    show ofPayload ((Hex.decode (Text.trim value.toList)).toOption.getD []) plainReason generic =
      ofPayloadHex value plainReason generic
    rw [ofPayloadHex]
    cases Hex.decode (Text.trim value.toList) <;> rfl

namespace Analyzer

/-- The reason of an analysis is that of the text which the trace returned. -/
theorem reason_of_analyze {x : Analysis} {b : Analyzer} (hfailed : r.trace.hasFailed = true)
    (hanalysis : a.analyze r = .ok (x, b)) :
    x.outcome.reason = some (ofPayloadHex (r.trace.returnValue.getD "") r.trace.revertReason
      a.settings.genericReason) := by
  obtain ⟨steps, placed, -, -, rfl, -⟩ := analyze_eq_ok_iff.mp hanalysis
  show ofOutcome? (!r.trace.hasFailed) (r.trace.returnBytes.toOption.getD []) r.trace.revertReason
    a.settings.genericReason = _
  rw [hfailed, ← ofPayload_returnBytes]
  rfl

/-- A failed transaction can be analysed unless a word of its trace is invalid or the code to follow
the failure in is unreadable. -/
theorem exists_analysis_iff (hfailed : r.trace.hasFailed = true) :
    (∃ x b, a.analyze r = .ok (x, b)) ↔ (∀ log ∈ r.trace.logs, ¬ log.HasInvalidWord) ∧
      ¬ (r.trace.logs ≠ [] ∧ r.chainCode = none ∧ r.artifact.HasUnreadableCode) := by
  have hfails : (∃ x b, a.analyze r = .ok (x, b)) ↔ ¬ ∃ e, a.analyze r = .error e := by
    cases a.analyze r with
    | error e => simp
    | ok found => exact iff_of_true ⟨found.1, found.2, rfl⟩ (by simp)
  rw [hfails, analyze_fails_iff, not_or, and_iff_right hfailed]
  simp only [not_exists, not_and]

/-- **The words of an error are reported.** The payload of an error, written in hex, is classified
as that error against every other reason, and a failed transaction that returned it is analysed with
that reason. The length of the words in octets has to fit a word of the payload. -/
theorem reason_of_errorText {words : String} (hsize : Text.Utf8.size words.toList < 2 ^ 256) :
    (∀ plainReason generic,
      ofPayloadHex (Payload.ofErrorTextHex words) plainReason generic = .stated words) ∧
    ∀ (a : Analyzer) (r : TransactionRecord), r.trace.hasFailed = true →
      r.trace.returnValue = some (Payload.ofErrorTextHex words) →
        ((∃ x b, a.analyze r = .ok (x, b)) ↔ (∀ log ∈ r.trace.logs, ¬ log.HasInvalidWord) ∧
          ¬ (r.trace.logs ≠ [] ∧ r.chainCode = none ∧ r.artifact.HasUnreadableCode)) ∧
        ∀ x b, a.analyze r = .ok (x, b) → x.outcome.reason = some (.stated words) := by
  have hread (plainReason : Option String) (generic : String) :
      ofPayloadHex (Payload.ofErrorTextHex words) plainReason generic = .stated words := by
    rw [Payload.ofErrorTextHex, ofPayloadHex_prefixed, ofPayload_ofErrorText hsize]
  refine ⟨hread, ?_⟩
  intro a r hfailed hreturned
  refine ⟨exists_analysis_iff hfailed, ?_⟩
  intro x b hanalysis
  rw [reason_of_analyze hfailed hanalysis, hreturned, Option.getD_some, hread]

def revertWith (returnValue : String) : TransactionRecord :=
  { revertOf none "" with
    trace := { (revertOf none "").trace with returnValue := some returnValue } }

/-- Words outside ASCII go before the plain reason, too. -/
theorem reason_of_errorText_paused :
    Text.Utf8.size "pausé ⏸".toList < 2 ^ 256 ∧ ∃ x b,
      (new {}).analyze (revertWith (Payload.ofErrorTextHex "pausé ⏸")) = .ok (x, b) ∧
      x.outcome.reason = some (.stated "pausé ⏸") := by
  have hsize : Text.Utf8.size "pausé ⏸".toList < 2 ^ 256 := by decide +kernel
  obtain ⟨-, hreported⟩ := reason_of_errorText hsize
  obtain ⟨x, b, hanalysis⟩ : ∃ x b,
      (new {}).analyze (revertWith (Payload.ofErrorTextHex "pausé ⏸")) = .ok (x, b) := ⟨_, _, rfl⟩
  exact ⟨hsize, x, b, hanalysis, (hreported _ _ rfl rfl).2 x b hanalysis⟩

/-- **A text in hex, its bytes and a trace that returned it have one reason.** A payload text is
classified as the bytes that it denotes: digits of either case, two for each byte, behind the mark
`0x` or `0X` or none, and blank characters around them. A text that denotes none counts as the empty
payload. An analysis reports what its trace returned as that text, a missing one as the empty
text. -/
theorem reason_of_text (payload : String) (plainReason : Option String) (generic : String) :
    (∀ bytes, Hex.Denotes ["0x", "0X"] (Text.trim payload.toList) bytes →
      ofPayloadHex payload plainReason generic = ofPayload bytes plainReason generic) ∧
    ((¬ ∃ bytes, Hex.Denotes ["0x", "0X"] (Text.trim payload.toList) bytes) →
      ofPayloadHex payload plainReason generic = ofPayload [] plainReason generic) ∧
    ∀ (a : Analyzer) (r : TransactionRecord) (x : Analysis) (b : Analyzer),
      r.trace.hasFailed = true → a.analyze r = .ok (x, b) →
        x.outcome.reason = some (ofPayloadHex (r.trace.returnValue.getD "") r.trace.revertReason
          a.settings.genericReason) := by
  refine ⟨fun bytes => ofPayloadHex_of_denotes, ofPayloadHex_of_not_denotes, ?_⟩
  intro a r x b hfailed hanalysis
  exact reason_of_analyze hfailed hanalysis

theorem reason_of_text_customError :
    Hex.Denotes ["0x", "0X"] (Text.trim " 0xDEADbeef\n".toList) [0xde, 0xad, 0xbe, 0xef] ∧
      ofPayloadHex " 0xDEADbeef\n" none "reverted" = .unknown [0xde, 0xad, 0xbe, 0xef] ∧
      ∃ x b, (new {}).analyze (revertWith " 0xDEADbeef\n") = .ok (x, b) ∧
        x.outcome.reason = some (.stated "paused") := by
  have hdenotes :
      Hex.Denotes ["0x", "0X"] (Text.trim " 0xDEADbeef\n".toList) [0xde, 0xad, 0xbe, 0xef] :=
    ⟨"0x", by decide, "DEADbeef".toList, by decide +kernel, by decide +kernel⟩
  obtain ⟨x, b, hanalysis⟩ : ∃ x b,
      (new {}).analyze (revertWith " 0xDEADbeef\n") = .ok (x, b) := ⟨_, _, rfl⟩
  obtain ⟨hread, -, hreported⟩ := reason_of_text " 0xDEADbeef\n" none "reverted"
  refine ⟨hdenotes, hread _ hdenotes, x, b, hanalysis, ?_⟩
  rw [hreported _ _ x b rfl hanalysis]
  decide +kernel

/-- The mark need not be `0x`: behind `0X` a payload is read as well, and not taken as empty. -/
theorem upper_mark_is_read :
    ¬ ∀ (payload : String) (plainReason : Option String) (generic : String),
      (∀ bytes, Hex.Denotes ["0x"] (Text.trim payload.toList) bytes →
        ofPayloadHex payload plainReason generic = ofPayload bytes plainReason generic) ∧
      ((¬ ∃ bytes, Hex.Denotes ["0x"] (Text.trim payload.toList) bytes) →
        ofPayloadHex payload plainReason generic = ofPayload [] plainReason generic) := by
  intro h
  have hnot : ¬ ∃ bytes, Hex.Denotes ["0x"] (Text.trim "0Xdeadbeef".toList) bytes := by
    rintro ⟨bytes, mark, hmark, digits, htext, hdigits⟩
    have htrim : Text.trim "0Xdeadbeef".toList = '0' :: 'X' :: "deadbeef".toList := by
      decide +kernel
    simp only [List.mem_cons, List.not_mem_nil, or_false] at hmark
    rcases hmark with rfl | rfl
    · -- without a mark, the letter would have to be a digit
      have htext' : digits = '0' :: 'X' :: "deadbeef".toList := htext.symm.trans htrim
      have hmem : 'x' ∈ Hex.encode bytes := by
        rw [← hdigits, htext']
        decide +kernel
      obtain ⟨n, hn, hdigit⟩ := Hex.exists_digit_of_mem_encode hmem
      exact (Hex.digit_ne_mark n hn).1 hdigit.symm
    · rw [htrim] at htext
      cases htext
  exact absurd ((h "0Xdeadbeef" none "reverted").2 hnot) (by decide +kernel)

end Analyzer

end TxForensics
