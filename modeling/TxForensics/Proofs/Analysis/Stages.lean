import TxForensics.Analysis.Analyzer
import TxForensics.Proofs.Resolution.Store
import TxForensics.Proofs.Trace.Frame

/-!
# The stages of an analysis

An analysis checks the steps, finds the failing one, places it in the source and reports. Only the
placement can touch the stored pc maps, and it does so only when there is a failing step, a code to
follow it in and a source map:

    checkSteps ──▶ failure? ──▶ place ──request──▶ PcMapStore
                                  └──▶ report

`followedCode?` tells from a record alone whether an analysis gets that far, and with which code.
If it does not, no analyzer's maps are read or changed (`analyze_of_not_followed`); if it does, the
maps come in as the answer to one request (`analyze_of_request?`).
-/

namespace TxForensics

namespace TransactionRecord

/-- The code that a failure would be followed in: that on chain, else that of the artifact. -/
def code? (r : TransactionRecord) : Option Bytes :=
  r.chainCode <|> r.artifact.runtimeBytes.toOption.join

/-- The code that the failure of a record is followed in, if the analysis gets so far: the trace is
sound, it failed, it has steps, there is a source map, and there is a code. -/
def followedCode? (r : TransactionRecord) : Option Bytes := do
  let steps ← (checkSteps r.trace.logs).toOption
  if r.trace.hasFailed && !steps.isEmpty && r.artifact.sourceMap?.isSome then r.code? else none

/-- What the analysis of a record asks of the stored pc maps. -/
def request? (r : TransactionRecord) (settings : Settings) : Option MapRequest := do
  let code ← r.followedCode?
  let sourceMap ← r.artifact.sourceMap?
  return { code, sourceMap, source := r.source, settings }

variable {r : TransactionRecord} {settings : Settings} {code : Bytes}

theorem followedCode?_of_steps {steps : List Step} (h : checkSteps r.trace.logs = .ok steps) :
    r.followedCode? =
      if r.trace.hasFailed && !steps.isEmpty && r.artifact.sourceMap?.isSome then r.code?
      else none := by
  rw [followedCode?, h]
  rfl

/-- A code is followed when nothing of what it takes is missing. -/
theorem followedCode?_eq_some_iff :
    r.followedCode? = some code ↔ ∃ steps, checkSteps r.trace.logs = .ok steps ∧
      r.trace.hasFailed = true ∧ steps ≠ [] ∧ r.artifact.sourceMap?.isSome = true ∧
      r.code? = some code := by
  cases hsteps : checkSteps r.trace.logs with
  | error e => simp [followedCode?, hsteps, Except.toOption]
  | ok steps =>
    rw [followedCode?_of_steps hsteps]
    simp [and_assoc]

theorem request?_eq_some_iff {q : MapRequest} :
    r.request? settings = some q ↔ r.followedCode? = some q.code ∧
      r.artifact.sourceMap? = some q.sourceMap ∧ q.source = r.source ∧ q.settings = settings := by
  simp only [request?, Option.bind_eq_bind, Option.bind_eq_some_iff, Option.pure_def,
    Option.some.injEq]
  constructor
  · rintro ⟨code, hcode, sourceMap, hmap, rfl⟩
    exact ⟨hcode, hmap, rfl, rfl⟩
  · rintro ⟨hcode, hmap, hsource, hsettings⟩
    refine ⟨q.code, hcode, q.sourceMap, hmap, ?_⟩
    rw [← hsource, ← hsettings]

/-- A record whose failure is followed makes a request for that code. -/
theorem exists_request? (settings : Settings) (h : r.followedCode? = some code) :
    ∃ q, r.request? settings = some q ∧ q.code = code := by
  obtain ⟨_, -, -, -, hmap, -⟩ := followedCode?_eq_some_iff.mp h
  obtain ⟨sourceMap, hmap⟩ := Option.isSome_iff_exists.mp hmap
  exact ⟨⟨code, sourceMap, r.source, settings⟩,
    request?_eq_some_iff.mpr ⟨h, hmap, rfl, rfl⟩, rfl⟩

/-- A record makes no request exactly if it follows no code. -/
theorem request?_eq_none_iff : r.request? settings = none ↔ r.followedCode? = none := by
  constructor
  · intro h
    cases hcode : r.followedCode? with
    | none => rfl
    | some code =>
      obtain ⟨q, hq, -⟩ := exists_request? settings hcode
      rw [h] at hq
      cases hq
  · intro h
    rw [request?, h]
    rfl

end TransactionRecord

namespace Analyzer

/-! ## Steps, failure, report -/

def failure? (r : TransactionRecord) (steps : List Step) : Option Step :=
  if r.trace.hasFailed then failingStep? steps else none

def placeFailure (a : Analyzer) (r : TransactionRecord) (steps : List Step) :
    Except AnalysisError Placement :=
  match failure? r steps with
  | none => .ok { diagnostics := [], maps := a.maps }
  | some step => a.place r steps step

/-- The analysis of checked steps, once their failure is placed. -/
def report (settings : Settings) (r : TransactionRecord) (steps : List Step)
    (site : Option SourceSite) (diagnostics : List Diagnostic) : Analysis :=
  { steps
    changes := annotatedChanges r.artifact.storageLayout steps
    outcome :=
      { success := !r.trace.hasFailed
        reason := RevertCause.ofOutcome? (!r.trace.hasFailed) (r.trace.returnBytes.toOption.getD [])
          r.trace.revertReason settings.genericReason
        stepIndex := (failure? r steps).map Step.index
        pc := (failure? r steps).map Step.pc
        site }
    diagnostics := (if steps.isEmpty then [.noSteps] else []) ++ diagnostics }

variable {a : Analyzer} {r : TransactionRecord} {steps : List Step}

theorem analyze_of_error {e : TraceError} (h : checkSteps r.trace.logs = .error e) :
    a.analyze r = .error (.malformedTrace e) := by
  rw [analyze, h]
  rfl

/-- Checked steps leave two stages: the failure is placed, and the report written. -/
theorem analyze_of_ok (h : checkSteps r.trace.logs = .ok steps) :
    a.analyze r = (a.placeFailure r steps).map fun p =>
      (report a.settings r steps p.site p.diagnostics, { a with maps := p.maps }) := by
  -- the analysis asks for success where the stages ask for failure
  have hfailure : (if !r.trace.hasFailed then none else failingStep? steps) = failure? r steps := by
    rw [failure?]
    cases r.trace.hasFailed <;> rfl
  have hchecked : (Except.ok steps : Except TraceError (List Step)).mapError
      AnalysisError.malformedTrace = .ok steps := rfl
  rw [analyze, h, hchecked]
  simp only [bind, Except.bind, hfailure, placeFailure, report]
  -- both sides branch on the failing step, and then on what placing it gives
  cases failure? r steps with
  | none => rfl
  | some step => cases a.place r steps step <;> rfl

/-- What there is to an analysis that succeeds. -/
theorem analyze_eq_ok_iff {x : Analysis} {b : Analyzer} :
    a.analyze r = .ok (x, b) ↔ ∃ steps placed, checkSteps r.trace.logs = .ok steps ∧
      a.placeFailure r steps = .ok placed ∧
      x = report a.settings r steps placed.site placed.diagnostics ∧
      b = { a with maps := placed.maps } := by
  cases hsteps : checkSteps r.trace.logs with
  | error e => simp [analyze_of_error hsteps]
  | ok steps =>
    rw [analyze_of_ok hsteps]
    cases hplaced : a.placeFailure r steps with
    | error e => simp [Except.map, hplaced]
    | ok placed => simp [Except.map, hplaced, eq_comm]

theorem failure?_eq_none_iff :
    failure? r steps = none ↔ r.trace.hasFailed = false ∨ steps = [] := by
  rw [failure?]
  cases r.trace.hasFailed <;> simp [failingStep?_eq_none_iff]

/-- A failing step takes a failed trace with steps. -/
theorem failure?_eq_some_iff {step : Step} : failure? r steps = some step ↔
    r.trace.hasFailed = true ∧ steps ≠ [] ∧ failingStep? steps = some step := by
  rw [failure?]
  constructor
  · intro h
    split at h
    · next hfailed =>
      refine ⟨hfailed, ?_, h⟩
      rintro rfl
      cases h
    · cases h
  · rintro ⟨hfailed, -, hstep⟩
    rw [if_pos hfailed, hstep]

/-- Where there is a failing step, only a code and a source map are missing to follow it. -/
theorem followedCode?_of_failure {step : Step} (hsteps : checkSteps r.trace.logs = .ok steps)
    (hfailure : failure? r steps = some step) :
    r.followedCode? = if r.artifact.sourceMap?.isSome then r.code? else none := by
  obtain ⟨hfailed, hne, -⟩ := failure?_eq_some_iff.mp hfailure
  rw [TransactionRecord.followedCode?_of_steps hsteps]
  simp [hfailed, hne]

/-! ## The placement -/

/-- Unreadable code is an error only where there is no other. -/
theorem artifactCode_eq_error_iff {artifact : Artifact} {chainCode : Option Bytes}
    {e : AnalysisError} :
    artifactCode artifact chainCode = .error e ↔
      chainCode = none ∧ ∃ cause, artifact.runtimeBytes = .error cause ∧
        e = .unreadableCode cause := by
  unfold artifactCode
  cases artifact.runtimeBytes with
  | error cause => cases chainCode <;> simp [eq_comm]
  | ok code => cases code <;> cases chainCode <;> simp

/-- What is read of the artifact makes no difference to the code that is followed. -/
theorem artifactCode_eq_ok {code : Option Bytes} {notes : List Diagnostic}
    (h : artifactCode r.artifact r.chainCode = .ok (code, notes)) :
    (r.chainCode <|> code) = r.code? := by
  unfold artifactCode at h
  unfold TransactionRecord.code?
  -- what is on chain comes first, so the code of the artifact counts only where nothing is
  split at h
  · next hbytes hchain =>
    cases h
    rw [hbytes]
    rfl
  · next hbytes hchain =>
    cases h
    rw [hchain]
    rfl
  · next hbytes hchain =>
    cases h
    rw [hchain]
    rfl
  · next hbytes hchain =>
    cases h
    rw [hchain]
    rfl
  · cases h

/-- What a placement goes on to find when the code of the artifact has been read. -/
def follow (a : Analyzer) (r : TransactionRecord) (steps : List Step) (step : Step) : Placement :=
  match r.code?, r.artifact.sourceMap? with
  | none, _ => { diagnostics := [.noCode], maps := a.maps }
  | some _, none => { diagnostics := [.noSourceMap], maps := a.maps }
  | some code, some sourceMap =>
    let (map, maps) := a.maps.request ⟨code, sourceMap, r.source, a.settings⟩
    let (site, diagnostics) := placeIn map code steps step
    { site, diagnostics, maps }

/-- A placement with notes in front of its diagnostics. -/
def Placement.noting (notes : List Diagnostic) (p : Placement) : Placement :=
  { p with diagnostics := notes ++ p.diagnostics }

/-- A placement reads the code of the artifact, notes what there is to say about it, and follows the
failure. -/
theorem place_eq (a : Analyzer) (r : TransactionRecord) (steps : List Step) (step : Step) :
    a.place r steps step = (artifactCode r.artifact r.chainCode).map fun found =>
      (a.follow r steps step).noting found.2 := by
  -- an error stops both sides; behind it they branch on the code and the source map
  cases hartifact : artifactCode r.artifact r.chainCode with
  | error e =>
    rw [place, hartifact]
    rfl
  | ok found =>
    obtain ⟨code, notes⟩ := found
    have hfollowed := artifactCode_eq_ok hartifact
    rw [place, hartifact]
    simp only [bind, Except.bind, Except.map, hfollowed, follow]
    cases r.code? with
    | none => rfl
    | some code => cases r.artifact.sourceMap? <;> rfl

/-- With a code and a source map, a failure is followed in the pc map of that code. -/
theorem follow_of_code {step : Step} {q : MapRequest} (hcode : r.code? = some q.code)
    (hmap : r.artifact.sourceMap? = some q.sourceMap) (hsource : q.source = r.source)
    (hsettings : q.settings = a.settings) :
    a.follow r steps step =
      { site := (placeIn (a.maps.request q).1 q.code steps step).1
        diagnostics := (placeIn (a.maps.request q).1 q.code steps step).2
        maps := (a.maps.request q).2 } := by
  rw [follow, hcode, hmap, ← hsource, ← hsettings]

/-- Without one of them, the pc maps are not looked at. -/
theorem follow_of_not_code (steps : List Step) (step : Step)
    (h : r.code? = none ∨ r.artifact.sourceMap? = none) :
    ∃ diagnostics, ∀ a : Analyzer, a.follow r steps step = { diagnostics, maps := a.maps } := by
  cases hcode : r.code? with
  | none =>
    refine ⟨[.noCode], fun a => ?_⟩
    rw [follow, hcode]
  | some code =>
    have hmap : r.artifact.sourceMap? = none := h.resolve_left (by simp [hcode])
    refine ⟨[.noSourceMap], fun a => ?_⟩
    rw [follow, hcode, hmap]

/-! ## Where the pc maps come in -/

/-- An analysis that follows no code is the same for every analyzer, and leaves it as it was. -/
theorem analyze_of_not_followed (h : r.followedCode? = none) (settings : Settings) :
    ∃ result : Except AnalysisError Analysis, ∀ a : Analyzer, a.settings = settings →
      a.analyze r = result.map fun analysis => (analysis, a) := by
  cases hsteps : checkSteps r.trace.logs with
  | error e => exact ⟨.error (.malformedTrace e), fun a _ => analyze_of_error hsteps⟩
  | ok steps =>
    -- it is enough to place alike, the rest of an analysis does not look at the maps
    obtain ⟨placed, hplaced⟩ : ∃ placed : Except AnalysisError (List Diagnostic), ∀ a : Analyzer,
        a.placeFailure r steps =
          placed.map fun diagnostics => { diagnostics, maps := a.maps } := by
      cases hfailure : failure? r steps with
      | none =>
        refine ⟨.ok [], fun a => ?_⟩
        rw [placeFailure, hfailure]
        rfl
      | some step =>
        rw [followedCode?_of_failure hsteps hfailure] at h
        -- there is a failing step, so what is missing is the code or the source map
        have hmissing : r.code? = none ∨ r.artifact.sourceMap? = none := by
          cases hmap : r.artifact.sourceMap? with
          | none => exact .inr rfl
          | some sourceMap =>
            rw [hmap] at h
            exact .inl h
        obtain ⟨diagnostics, hfollow⟩ := follow_of_not_code steps step hmissing
        refine ⟨(artifactCode r.artifact r.chainCode).map fun found => found.2 ++ diagnostics,
          fun a => ?_⟩
        rw [placeFailure, hfailure]
        dsimp only
        rw [place_eq, hfollow]
        cases artifactCode r.artifact r.chainCode <;> rfl
    refine ⟨placed.map (report settings r steps none), fun a ha => ?_⟩
    subst ha
    rw [analyze_of_ok hsteps, hplaced]
    cases placed <;> rfl

/-- An analysis that follows a code makes one request for the pc map of that code, and apart from
the answer to it depends on nothing that the analyzer keeps. -/
theorem analyze_of_request? {q : MapRequest} (h : r.request? a.settings = some q) :
    ∃ steps step code notes, checkSteps r.trace.logs = .ok steps ∧
      failure? r steps = some step ∧ artifactCode r.artifact r.chainCode = .ok (code, notes) ∧
      a.analyze r = .ok
        (report a.settings r steps (placeIn (a.maps.request q).1 q.code steps step).1
          (notes ++ (placeIn (a.maps.request q).1 q.code steps step).2),
        { a with maps := (a.maps.request q).2 }) := by
  obtain ⟨hfollowed, hmap, hsource, hsettings⟩ := TransactionRecord.request?_eq_some_iff.mp h
  obtain ⟨steps, hsteps, hfailed, hne, -, hcode⟩ :=
    TransactionRecord.followedCode?_eq_some_iff.mp hfollowed
  obtain ⟨step, hstep⟩ : ∃ step, failure? r steps = some step := by
    refine Option.ne_none_iff_exists'.mp fun hnone => ?_
    rcases failure?_eq_none_iff.mp hnone with hok | hnil
    · rw [hok] at hfailed
      cases hfailed
    · exact hne hnil
  cases hartifact : artifactCode r.artifact r.chainCode with
  | error e =>
    -- an error would mean that there is no code at all
    obtain ⟨hchain, cause, hbytes, -⟩ := artifactCode_eq_error_iff.mp hartifact
    rw [TransactionRecord.code?, hchain, hbytes] at hcode
    cases hcode
  | ok found =>
    obtain ⟨code, notes⟩ := found
    refine ⟨steps, step, code, notes, hsteps, hstep, rfl, ?_⟩
    rw [analyze_of_ok hsteps, placeFailure, hstep]
    dsimp only
    rw [place_eq, hartifact, follow_of_code hcode hmap hsource hsettings]
    rfl

/-- A record that makes a request can be analysed. -/
theorem exists_analysis_of_request? {q : MapRequest} (h : r.request? a.settings = some q) :
    ∃ (x : Analysis) (b : Analyzer), a.analyze r = .ok (x, b) ∧ b.settings = a.settings := by
  obtain ⟨_, _, _, _, -, -, -, hok⟩ := analyze_of_request? h
  exact ⟨_, _, hok, rfl⟩

end Analyzer

end TxForensics
