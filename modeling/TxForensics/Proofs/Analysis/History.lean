import TxForensics.Proofs.Analysis.Stages

/-!
# What an analyzer remembers

An analyzer that has worked through some records differs from a new one in its pc maps only, and
these are what the records asked for, one request each for those that follow a code
(`Analyzer.having`). So its answer to a further record is that of a new analyzer, except that the pc
map, and with it the source map and the source text, are those of the first record that followed the
same code.

Maps are told apart by the hash of their code alone. The code may be said in place of the hash as
long as no two codes of a run share one.
-/

namespace TxForensics

namespace TransactionRecord

/-- The record with the source map text and the source text of another. -/
def withTextsOf (r first : TransactionRecord) : TransactionRecord :=
  { r with
    artifact := { r.artifact with
      runtime := r.artifact.runtime.map fun runtime =>
        { runtime with sourceMap := first.artifact.runtime.bind RuntimeCode.sourceMap } }
    source := first.source }

variable {r first : TransactionRecord}

theorem runtimeBytes_withTextsOf (r first : TransactionRecord) :
    (r.withTextsOf first).artifact.runtimeBytes = r.artifact.runtimeBytes := by
  unfold withTextsOf Artifact.runtimeBytes
  cases r.artifact.runtime <;> rfl

theorem artifactCode_withTextsOf (r first : TransactionRecord) :
    Analyzer.artifactCode (r.withTextsOf first).artifact (r.withTextsOf first).chainCode =
      Analyzer.artifactCode r.artifact r.chainCode := by
  have hchain : (r.withTextsOf first).chainCode = r.chainCode := rfl
  unfold Analyzer.artifactCode
  rw [hchain, runtimeBytes_withTextsOf]

theorem sourceMap?_withTextsOf (h : r.artifact.sourceMap?.isSome = true) :
    (r.withTextsOf first).artifact.sourceMap? = first.artifact.sourceMap? := by
  unfold withTextsOf Artifact.sourceMap?
  cases hruntime : r.artifact.runtime with
  | none => simp [Artifact.sourceMap?, hruntime] at h
  | some runtime => rfl

/-- Other texts do not change which code is followed, as long as there is a source map. -/
theorem followedCode?_withTextsOf (h : r.artifact.sourceMap?.isSome = true)
    (hfirst : first.artifact.sourceMap?.isSome = true) :
    (r.withTextsOf first).followedCode? = r.followedCode? := by
  have hcode : (r.withTextsOf first).code? = r.code? := by
    rw [code?, code?, runtimeBytes_withTextsOf]
    rfl
  unfold followedCode?
  rw [sourceMap?_withTextsOf h, h, hfirst, hcode]
  rfl

/-- With the texts of another record that follows the same code, a record asks for what that one
asked for. -/
theorem request?_withTextsOf {settings : Settings} {code : Bytes}
    (h : r.followedCode? = some code) (hfirst : first.followedCode? = some code) :
    (r.withTextsOf first).request? settings = first.request? settings := by
  obtain ⟨-, -, -, -, hmap, -⟩ := followedCode?_eq_some_iff.mp h
  obtain ⟨-, -, -, -, hfirstMap, -⟩ := followedCode?_eq_some_iff.mp hfirst
  rw [request?, request?, followedCode?_withTextsOf hmap hfirstMap, h, hfirst,
    sourceMap?_withTextsOf hmap]
  rfl

/-- A record that has the texts of another already is left as it is. -/
theorem withTextsOf_eq_self (h : r.artifact.sourceMap?.isSome = true)
    (hmap : first.artifact.sourceMap? = r.artifact.sourceMap?) (hsource : first.source = r.source) :
    r.withTextsOf first = r := by
  obtain ⟨sourceMap, hsome⟩ := Option.isSome_iff_exists.mp h
  have hfirstText : first.artifact.runtime.bind RuntimeCode.sourceMap = some sourceMap :=
    (Option.filter_eq_some_iff.mp (hmap.trans hsome)).1
  have htext := (Option.filter_eq_some_iff.mp hsome).1
  obtain ⟨trace, ⟨layout, runtime⟩, source, chainCode⟩ := r
  -- a record without runtime code has no source map to begin with
  cases runtime with
  | none => cases htext
  | some runtime =>
    have htext' : runtime.sourceMap = some sourceMap := htext
    simp only [withTextsOf, Option.map_some, hfirstText, ← htext', hsource]

end TransactionRecord

namespace Analyzer

def answer (a : Analyzer) (r : TransactionRecord) : Except AnalysisError Analysis :=
  (a.analyze r).map Prod.fst

/-- The analyzer that a record leaves. -/
def after (a : Analyzer) (r : TransactionRecord) : Analyzer :=
  match a.analyze r with
  | .ok (_, b) => b
  | .error _ => a

def having (settings : Settings) (records : List TransactionRecord) : Analyzer :=
  { settings, maps := PcMapStore.empty.afterFetching (records.filterMap (·.request? settings)) }

theorem analyzeAll_cons (a : Analyzer) (r : TransactionRecord) (records : List TransactionRecord) :
    a.analyzeAll (r :: records) = a.answer r :: (a.after r).analyzeAll records := by
  rw [analyzeAll, answer, after]
  cases a.analyze r <;> rfl

/-! ## One record -/

section Step

variable {a : Analyzer} {r : TransactionRecord}

theorem answer_of_not_followed (h : r.followedCode? = none) :
    a.answer r = (new a.settings).answer r := by
  obtain ⟨result, hresult⟩ := analyze_of_not_followed h a.settings
  rw [answer, answer, hresult a rfl, hresult (new a.settings) rfl]
  cases result <;> rfl

theorem after_of_not_followed (h : r.followedCode? = none) : a.after r = a := by
  obtain ⟨result, hresult⟩ := analyze_of_not_followed h a.settings
  rw [after, hresult a rfl]
  cases result <;> rfl

/-- A request leaves the analyzer with what the store has become, and nothing else changed. -/
theorem after_of_request? {q : MapRequest} (h : r.request? a.settings = some q) :
    a.after r = { a with maps := (a.maps.request q).2 } := by
  obtain ⟨_, _, _, _, -, -, -, hanalyze⟩ := analyze_of_request? h
  rw [after, hanalyze]

/-- Two analyzers that answer a request with the same map answer the records behind it alike, if
these differ in their texts only. -/
theorem answer_withTextsOf {b : Analyzer} {first : TransactionRecord} {q q' : MapRequest}
    (hsettings : b.settings = a.settings) (h : r.request? a.settings = some q)
    (h' : (r.withTextsOf first).request? b.settings = some q') (hcode : q'.code = q.code)
    (hmap : (b.maps.request q').1 = (a.maps.request q).1) :
    a.answer r = b.answer (r.withTextsOf first) := by
  obtain ⟨steps, step, code, notes, hsteps, hstep, hartifact, hanalyze⟩ := analyze_of_request? h
  obtain ⟨steps', step', code', notes', hsteps', hstep', hartifact', hanalyze'⟩ :=
    analyze_of_request? h'
  -- the texts are no part of the trace and of the code, so the stages before the map are the same
  have hsame : steps' = steps := by
    have heq : checkSteps r.trace.logs = .ok steps' := hsteps'
    rw [hsteps] at heq
    exact (Except.ok.inj heq).symm
  subst hsame
  have hstep'' : step' = step := by
    have heq : failure? r steps' = some step' := hstep'
    rw [hstep] at heq
    exact (Option.some.inj heq).symm
  rw [TransactionRecord.artifactCode_withTextsOf, hartifact] at hartifact'
  obtain ⟨rfl, rfl⟩ := Prod.mk.inj (Except.ok.inj hartifact')
  rw [answer, answer, hanalyze, hanalyze', hcode, hmap, hstep'', hsettings]
  rfl

end Step

/-! ## A run of records -/

section Run

variable {settings : Settings} {before : List TransactionRecord} {r : TransactionRecord}

/-- One record more: the analyzer remembers what it asked for. -/
theorem after_having (settings : Settings) (before : List TransactionRecord)
    (r : TransactionRecord) :
    (having settings before).after r = having settings (before ++ [r]) := by
  cases hq : r.request? settings with
  | none =>
    have hnot := TransactionRecord.request?_eq_none_iff.mp hq
    rw [after_of_not_followed hnot, having, having, List.filterMap_append]
    simp [hq]
  | some q =>
    rw [after_of_request? hq, having, having, List.filterMap_append]
    simp [hq, PcMapStore.afterFetching]

/-- The answers of a run, each given by an analyzer that has worked through the records before. -/
theorem getElem?_analyzeAll_having (settings : Settings) (before records : List TransactionRecord)
    (i : Nat) :
    ((having settings before).analyzeAll records)[i]? =
      records[i]?.map (having settings (before ++ records.take i)).answer := by
  -- over the records to come; those before grow by the one that has been answered
  induction records generalizing before i with
  | nil => rfl
  | cons r records ih =>
    rw [analyzeAll_cons, after_having]
    cases i with
    | zero => simp
    | succ i =>
      -- what is before the rest of the run is what was before and the first record
      rw [List.getElem?_cons_succ, List.getElem?_cons_succ, ih, List.take_succ_cons,
        List.append_assoc, List.singleton_append]

def followedCodes (records : List TransactionRecord) : List Bytes :=
  records.filterMap (·.followedCode?)

/-- The hashes of the codes that records follow tell these codes apart. -/
def HashesTellApart (records : List TransactionRecord) : Prop :=
  ∀ code ∈ followedCodes records, ∀ code' ∈ followedCodes records,
    Keccak.hash code = Keccak.hash code' → code = code'

/-- The first of the records that follows a code. -/
def firstFollowing? (records : List TransactionRecord) (code : Bytes) : Option TransactionRecord :=
  records.find? (·.followedCode? = some code)

theorem followedCode?_of_firstFollowing? {records : List TransactionRecord}
    {first : TransactionRecord} {code : Bytes} (h : firstFollowing? records code = some first) :
    first ∈ records ∧ first.followedCode? = some code := by
  rw [firstFollowing?] at h
  refine ⟨List.mem_of_find?_eq_some h, ?_⟩
  simpa using List.find?_some h

/-- Where hashes tell the codes apart, a request has the hash of a code exactly when its record
follows that code. -/
theorem any_request?_eq {q : MapRequest} {records : List TransactionRecord}
    (hhash : HashesTellApart records) (hr : r ∈ records) (hq : r.request? settings = some q)
    {x : TransactionRecord} (hx : x ∈ records) :
    ((x.request? settings).any fun y => decide (y.key = q.key)) =
      decide (x.followedCode? = some q.code) := by
  have hcode := (TransactionRecord.request?_eq_some_iff.mp hq).1
  cases hy : x.request? settings with
  | none =>
    rw [TransactionRecord.request?_eq_none_iff.mp hy]
    rfl
  | some y =>
    have hxcode := (TransactionRecord.request?_eq_some_iff.mp hy).1
    rw [Option.any_some, decide_eq_decide, hxcode, Option.some.injEq]
    constructor
    · -- only here the hashes matter: equal keys have to mean equal codes
      intro hkey
      exact hhash y.code (List.mem_filterMap.mpr ⟨x, hx, hxcode⟩) q.code
        (List.mem_filterMap.mpr ⟨r, hr, hcode⟩) hkey
    · intro heq
      rw [MapRequest.key, MapRequest.key, heq]

/-- A record that follows a code is answered with the map that the first record with this code asks
for. -/
theorem request_having {q : MapRequest} (hhash : HashesTellApart (before ++ [r]))
    (hq : r.request? settings = some q) :
    ∃ first q', firstFollowing? (before ++ [r]) q.code = some first ∧
      first.request? settings = some q' ∧ q'.code = q.code ∧
      ((having settings before).maps.request q).1 = q'.map := by
  have hcode := (TransactionRecord.request?_eq_some_iff.mp hq).1
  have hr : r ∈ before ++ [r] := by simp
  obtain ⟨first, hfirst⟩ : ∃ first, firstFollowing? (before ++ [r]) q.code = some first := by
    -- the record itself follows the code, so some record does
    refine Option.isSome_iff_exists.mp (List.find?_isSome.mpr ⟨r, hr, ?_⟩)
    exact decide_eq_true hcode
  have hfollows := (followedCode?_of_firstFollowing? hfirst).2
  obtain ⟨q', hq', hcode'⟩ := TransactionRecord.exists_request? settings hfollows
  refine ⟨first, q', hfirst, hq', hcode', Option.some.inj ?_⟩
  have hrequests : before.filterMap (·.request? settings) ++ [q] =
      (before ++ [r]).filterMap (·.request? settings) := by
    simp [List.filterMap_append, hq]
  -- the store searches requests by their hashes; here that finds the first record with the code
  have hfind : (before ++ [r]).find? (fun x =>
      (x.request? settings).any fun y => decide (y.key = q.key)) = some first := by
    rw [← hfirst, firstFollowing?, ← List.head?_filter, ← List.head?_filter]
    exact congrArg List.head? (List.filter_congr fun x hx => any_request?_eq hhash hr hq hx)
  rw [having, PcMapStore.request_afterFetching, hrequests, List.find?_filterMap, hfind,
    Option.bind_some, hq', Option.map_some]

/-- The answer of an analyzer with a history is that of a new one to the record with the texts of
the first record that followed its code. -/
theorem answer_having (settings : Settings) {code : Bytes} (hhash : HashesTellApart (before ++ [r]))
    (h : r.followedCode? = some code) :
    ∃ first, firstFollowing? (before ++ [r]) code = some first ∧
      (having settings before).answer r = (new settings).answer (r.withTextsOf first) := by
  obtain ⟨q, hq, rfl⟩ := TransactionRecord.exists_request? settings h
  obtain ⟨first, q', hfirst, hq', hcode', hmap⟩ := request_having hhash hq
  have hfollows := (followedCode?_of_firstFollowing? hfirst).2
  have hown : (r.withTextsOf first).request? settings = some q' := by
    rw [TransactionRecord.request?_withTextsOf h hfollows, hq']
  refine ⟨first, hfirst, ?_⟩
  have hnew : ((new settings).maps.request q').1 = ((having settings before).maps.request q).1 := by
    have hempty : some ((new settings).maps.request q').1 = _ :=
      PcMapStore.request_afterFetching [] q'
    rw [hmap]
    simpa using hempty
  exact answer_withTextsOf rfl hq hown hcode' hnew

/-- A record that follows no code can be left out of a run: the other answers stay. -/
theorem eraseIdx_analyzeAll {records : List TransactionRecord} {i : Nat} (a : Analyzer)
    (hi : records[i]? = some r) (h : r.followedCode? = none) :
    (a.analyzeAll records).eraseIdx i = a.analyzeAll (records.eraseIdx i) := by
  -- over the records, since the analyzer differs behind each of them
  induction records generalizing a i with
  | nil => simp at hi
  | cons r' records ih =>
    rw [analyzeAll_cons]
    cases i with
    | zero =>
      cases hi
      -- the record that is left out has left the analyzer as it was
      rw [after_of_not_followed h, List.eraseIdx_cons_zero, List.eraseIdx_cons_zero]
    | succ i =>
      rw [List.eraseIdx_cons_succ, List.eraseIdx_cons_succ, analyzeAll_cons, ih _ hi]

/-! ## The answers of a run -/

variable {records : List TransactionRecord} {i : Nat}

/-- A part of a run has fewer codes to tell apart. -/
theorem HashesTellApart.take (h : HashesTellApart records) (n : Nat) :
    HashesTellApart (records.take n) := by
  have hsub : ∀ code ∈ followedCodes (records.take n), code ∈ followedCodes records := by
    intro code hcode
    obtain ⟨x, hx, hxcode⟩ := List.mem_filterMap.mp hcode
    exact List.mem_filterMap.mpr ⟨x, List.mem_of_mem_take hx, hxcode⟩
  intro code hcode code' hcode'
  exact h code (hsub code hcode) code' (hsub code' hcode')

/-- The first record with a code in the beginning of a run is the first in the run. -/
theorem firstFollowing?_of_take {n : Nat} {code : Bytes} {first : TransactionRecord}
    (h : firstFollowing? (records.take n) code = some first) :
    firstFollowing? records code = some first := by
  rw [firstFollowing?] at h
  rw [firstFollowing?, ← List.take_append_drop n records, List.find?_append, h]
  rfl

/-- A new analyzer has worked through no records, so an answer of its run depends on those before it
alone. -/
theorem getElem?_analyzeAll (settings : Settings) (hi : records[i]? = some r) :
    ((new settings).analyzeAll records)[i]? =
      some ((having settings (records.take i)).answer r) := by
  have hrun := getElem?_analyzeAll_having settings [] records i
  rwa [hi, Option.map_some, List.nil_append] at hrun

theorem getElem?_analyzeAll_of_not_followed (settings : Settings) (hi : records[i]? = some r)
    (h : r.followedCode? = none) :
    ((new settings).analyzeAll records)[i]? = some ((new settings).answer r) := by
  rw [getElem?_analyzeAll settings hi, answer_of_not_followed h]
  rfl

theorem getElem?_analyzeAll_of_followed (settings : Settings) {code : Bytes}
    (hhash : HashesTellApart records) (hi : records[i]? = some r)
    (h : r.followedCode? = some code) :
    ∃ first, firstFollowing? records code = some first ∧
      ((new settings).analyzeAll records)[i]? =
        some ((new settings).answer (r.withTextsOf first)) := by
  have htake : records.take i ++ [r] = records.take (i + 1) := by
    rw [List.take_add_one, hi, Option.toList_some]
  obtain ⟨first, hfirst, hanswer⟩ := answer_having settings (htake ▸ hhash.take (i + 1)) h
  rw [htake] at hfirst
  -- what comes later in the run does not change which record was the first
  exact ⟨first, firstFollowing?_of_take hfirst, by rw [getElem?_analyzeAll settings hi, hanswer]⟩

/-- Where the records with one code have the same texts, a run is as many new analyzers. -/
theorem analyzeAll_eq_map_answer (settings : Settings) (hhash : HashesTellApart records)
    (hsame : ∀ r ∈ records, ∀ r' ∈ records, ∀ code, r.followedCode? = some code →
      r'.followedCode? = some code →
      r.artifact.sourceMap? = r'.artifact.sourceMap? ∧ r.source = r'.source) :
    (new settings).analyzeAll records = records.map (new settings).answer := by
  refine List.ext_getElem? fun i => ?_
  rw [List.getElem?_map]
  cases hi : records[i]? with
  | none =>
    -- behind the last record neither has an answer
    have hrun := getElem?_analyzeAll_having settings [] records i
    rw [hi] at hrun
    exact hrun
  | some r =>
    rw [Option.map_some]
    cases hcode : r.followedCode? with
    | none => exact getElem?_analyzeAll_of_not_followed settings hi hcode
    | some code =>
      obtain ⟨first, hfirst, hanswer⟩ := getElem?_analyzeAll_of_followed settings hhash hi hcode
      obtain ⟨hmem, hfollows⟩ := followedCode?_of_firstFollowing? hfirst
      obtain ⟨hmap, hsource⟩ := hsame first hmem r (List.mem_of_getElem? hi) code hfollows hcode
      obtain ⟨-, -, -, -, hsome, -⟩ := TransactionRecord.followedCode?_eq_some_iff.mp hcode
      -- the texts of the first record are those it has already
      rw [hanswer, TransactionRecord.withTextsOf_eq_self hsome hmap hsource]

end Run

/-- **A run is told apart from new analyzers by first texts only.** A record that follows no code is
answered as by a new analyzer and might as well be left out; any other is answered as by a new
analyzer that gets the texts of the first record of the run with the same code. So where records
with one code have the same texts, the order and the history do not show. -/
theorem analyzeAll_history (settings : Settings) (records : List TransactionRecord)
    (hhash : HashesTellApart records) :
    (∀ (i : Nat) (r : TransactionRecord), records[i]? = some r → r.followedCode? = none →
      ((new settings).analyzeAll records)[i]? = some ((new settings).answer r) ∧
      ((new settings).analyzeAll records).eraseIdx i =
        (new settings).analyzeAll (records.eraseIdx i)) ∧
    (∀ (i : Nat) (r : TransactionRecord) (code : Bytes), records[i]? = some r →
      r.followedCode? = some code →
      ∃ first, firstFollowing? records code = some first ∧
        ((new settings).analyzeAll records)[i]? =
          some ((new settings).answer (r.withTextsOf first))) ∧
    ((∀ r ∈ records, ∀ r' ∈ records, ∀ code, r.followedCode? = some code →
        r'.followedCode? = some code →
        r.artifact.sourceMap? = r'.artifact.sourceMap? ∧ r.source = r'.source) →
      (new settings).analyzeAll records = records.map (new settings).answer) := by
  refine ⟨?_, ?_, ?_⟩
  · intro i r hi hnot
    exact ⟨getElem?_analyzeAll_of_not_followed settings hi hnot, eraseIdx_analyzeAll _ hi hnot⟩
  · intro i r code hi hcode
    exact getElem?_analyzeAll_of_followed settings hhash hi hcode
  · intro hsame
    exact analyzeAll_eq_map_answer settings hhash hsame

def failureWithTexts (sourceMap source : String) : TransactionRecord :=
  { trace := { logs := [{ op := "JUMPDEST", depth := 1 }], failed := some true }
    artifact := { runtime := some { object := "5b", sourceMap := some sourceMap } }
    source
    chainCode := none }

/-- Two failures of one code with different texts, and a record without steps between them. -/
def failuresOfOneCode : List TransactionRecord :=
  [failureWithTexts "0:1:0" "f();", ⟨{}, {}, "", none⟩, failureWithTexts "3:1:0" "a\nb"]

/-- The second of them is answered with the texts of the first. -/
theorem analyzeAll_history_of_one_code :
    HashesTellApart failuresOfOneCode ∧
    ((new {}).analyzeAll failuresOfOneCode)[2]? =
      some ((new {}).answer
        ((failureWithTexts "3:1:0" "a\nb").withTextsOf (failureWithTexts "0:1:0" "f();"))) := by
  have hcodes : followedCodes failuresOfOneCode = [[0x5b], [0x5b]] := by decide +kernel
  have hhash : HashesTellApart failuresOfOneCode := by
    intro code hcode code' hcode' _
    rw [hcodes] at hcode hcode'
    simp_all
  have hfirst : firstFollowing? failuresOfOneCode [0x5b] =
      some (failureWithTexts "0:1:0" "f();") := by
    decide +kernel
  obtain ⟨first, hfirst', hanswer⟩ :=
    (analyzeAll_history {} failuresOfOneCode hhash).2.1 2 (failureWithTexts "3:1:0" "a\nb") [0x5b]
      rfl (by decide +kernel)
  rw [hfirst] at hfirst'
  cases hfirst'
  exact ⟨hhash, hanswer⟩

end Analyzer

end TxForensics
