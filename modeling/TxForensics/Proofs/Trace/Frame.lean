import TxForensics.Trace.Failure

/-!
# The outermost frame

The steps at the least depth of a trace, in order. A failure belongs to one of them, so whatever is
placed is placed by looking at `outermost` alone: the failing step is the last one of the frame that
ends in failure, or else the last one (`failingStep?_eq`). `IsFailing` says the same of a step and
those before and after it, without a search.
-/

namespace TxForensics

def outermost (steps : List Step) : List Step :=
  steps.filter fun step => outermostDepth? steps = some step.depth

variable {steps : List Step} {step : Step}

theorem outermostDepth?_eq_none_iff : outermostDepth? steps = none ↔ steps = [] := by
  rw [outermostDepth?, List.min?_eq_none_iff, List.map_eq_nil_iff]

theorem outermost_eq_frameAt {depth : UInt32} (h : outermostDepth? steps = some depth) :
    outermost steps = frameAt depth steps := by
  apply List.filter_congr
  intro step _
  simp only [h, Option.some.injEq]
  exact decide_eq_decide.mpr eq_comm

/-- The frame of a step of the outermost frame is that frame. -/
theorem frameAt_of_mem_outermost (h : step ∈ outermost steps) :
    frameAt step.depth steps = outermost steps :=
  (outermost_eq_frameAt (of_decide_eq_true (List.mem_filter.mp h).2)).symm

/-- A trace with steps has outermost ones. -/
theorem outermost_eq_nil_iff : outermost steps = [] ↔ steps = [] := by
  constructor
  · intro h
    cases hdepth : outermostDepth? steps with
    | none => exact outermostDepth?_eq_none_iff.mp hdepth
    | some depth =>
      obtain ⟨step, hstep, rfl⟩ := List.mem_map.mp (List.min?_mem hdepth)
      have hmem : step ∈ outermost steps := List.mem_filter.mpr ⟨hstep, decide_eq_true hdepth⟩
      rw [h] at hmem
      cases hmem
  · rintro rfl
    rfl

/-- The failing step is the last one of the outermost frame to end in failure, or else its last one.
-/
theorem failingStep?_eq (steps : List Step) :
    failingStep? steps =
      ((outermost steps).findRev? Step.endsInFailure <|> (outermost steps).getLast?) := by
  cases hdepth : outermostDepth? steps with
  | none =>
    rw [outermostDepth?_eq_none_iff.mp hdepth]
    rfl
  | some depth =>
    rw [outermost_eq_frameAt hdepth, failingStep?, hdepth]
    rfl

/-- Only a trace without steps has no failing step. -/
theorem failingStep?_eq_none_iff : failingStep? steps = none ↔ steps = [] := by
  constructor
  · intro h
    rw [failingStep?_eq] at h
    have hlast : (outermost steps).getLast? = none := by
      cases hfind : (outermost steps).findRev? Step.endsInFailure with
      | none =>
        rw [hfind] at h
        exact h
      | some found =>
        rw [hfind] at h
        cases h
    exact outermost_eq_nil_iff.mp (List.getLast?_eq_none_iff.mp hlast)
  · rintro rfl
    rfl

/-- A failure belongs to a step of the outermost frame. -/
theorem mem_outermost_of_failingStep? (h : failingStep? steps = some step) :
    step ∈ outermost steps := by
  rw [failingStep?_eq] at h
  cases hfind : (outermost steps).findRev? Step.endsInFailure with
  | some found =>
    rw [hfind] at h
    cases h
    rw [List.findRev?_eq_find?_reverse] at hfind
    exact List.mem_reverse.mp (List.mem_of_find?_eq_some hfind)
  | none =>
    rw [hfind] at h
    exact List.mem_of_getLast? h

/-! ## Its position -/

/-- The last one of a kind has none of the kind behind it. -/
theorem findRev?_eq_some_iff_append {p : α → Bool} {as : List α} {a : α} :
    as.findRev? p = some a ↔
      p a = true ∧ ∃ before after, as = before ++ a :: after ∧ ∀ b ∈ after, p b = false := by
  rw [List.findRev?_eq_find?_reverse, List.find?_eq_some_iff_append]
  constructor
  · rintro ⟨ha, after, before, hsplit, hafter⟩
    refine ⟨ha, before.reverse, after.reverse, ?_, ?_⟩
    · rw [← List.reverse_reverse as, hsplit]
      simp
    · intro b hb
      simpa using hafter b (List.mem_reverse.mp hb)
  · rintro ⟨ha, before, after, rfl, hafter⟩
    refine ⟨ha, after.reverse, before.reverse, by simp, ?_⟩
    intro b hb
    simp [hafter b (List.mem_reverse.mp hb)]

theorem findRev?_filter (p q : α → Bool) (as : List α) :
    (as.filter p).findRev? q = as.findRev? fun a => p a && q a := by
  rw [List.findRev?_eq_find?_reverse, List.findRev?_eq_find?_reverse, ← List.filter_reverse,
    List.find?_filter]
  simp

theorem getLast?_filter_eq_findRev? (p : α → Bool) (as : List α) :
    (as.filter p).getLast? = as.findRev? p := by
  rw [List.getLast?_filter, List.findRev?_eq_find?_reverse]

/-- The least depth is that of a step, and none is less deep. -/
theorem outermostDepth?_eq_some_iff {depth : UInt32} :
    outermostDepth? steps = some depth ↔
      (∃ step ∈ steps, step.depth = depth) ∧ ∀ step ∈ steps, depth ≤ step.depth := by
  rw [outermostDepth?, List.min?_eq_some_iff]
  simp

/-- A step between others is the one that a failure belongs to: no step is less deep, and among
those as deep it is the last to end in failure, or the last of all if none does. -/
structure IsFailing (before : List Step) (step : Step) (after : List Step) : Prop where
  outermost : ∀ other ∈ before ++ step :: after, step.depth ≤ other.depth
  last :
    (step.endsInFailure = true ∧
      ∀ other ∈ after, other.depth = step.depth → other.endsInFailure = false) ∨
    ((∀ other ∈ before ++ step :: after,
        other.depth = step.depth → other.endsInFailure = false) ∧
      ∀ other ∈ after, other.depth ≠ step.depth)

/-- The failing step stands where it should. -/
theorem exists_isFailing (h : failingStep? steps = some step) :
    ∃ before after, steps = before ++ step :: after ∧ IsFailing before step after := by
  have hdepth : outermostDepth? steps = some step.depth :=
    of_decide_eq_true (List.mem_filter.mp (mem_outermost_of_failingStep? h)).2
  have hleast := (outermostDepth?_eq_some_iff.mp hdepth).2
  rw [failingStep?_eq, outermost_eq_frameAt hdepth, frameAt, findRev?_filter,
    getLast?_filter_eq_findRev?] at h
  -- a step of the frame ends in failure, and the last such step is found, or none does
  cases hfind : steps.findRev? fun s => s.depth == step.depth && s.endsInFailure with
  | some found =>
    rw [hfind] at h
    cases h
    obtain ⟨hfails, before, after, rfl, hafter⟩ := findRev?_eq_some_iff_append.mp hfind
    rw [beq_self_eq_true, Bool.true_and] at hfails
    refine ⟨before, after, rfl, hleast, .inl ⟨hfails, fun other hother heq => ?_⟩⟩
    simpa [heq] using hafter other hother
  | none =>
    rw [hfind] at h
    obtain ⟨-, before, after, rfl, hafter⟩ := findRev?_eq_some_iff_append.mp h
    refine ⟨before, after, rfl, hleast, .inr ⟨fun other hother heq => ?_, fun other hother => ?_⟩⟩
    · rw [List.findRev?_eq_find?_reverse, List.find?_eq_none] at hfind
      simpa [heq] using hfind other (List.mem_reverse.mpr hother)
    · simpa using hafter other hother

end TxForensics
