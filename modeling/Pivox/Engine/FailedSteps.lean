import Pivox.Engine.Failures
import Pivox.Engine.StepIds

/-!
The step of a failure is an activity step of the definition in which the failure is handled, however
many runs of other workflows it comes out of.
-/

namespace Pivox.Engine.Interpreter
open SeriesParallel

variable {V I : Type}

def Step.activityID : Step → Option String
  | .activity id _ => some id
  | _ => none

def Definition.activityIDs (definition : Definition) : List String :=
  definition.steps.filterMap Step.activityID

def Failure.At (definition : Definition) (failure : Failure) : Prop :=
  ∀ id, failure.step = some id → id ∈ definition.activityIDs

/-- A failure is handled at a step of the definition that it is handled in. -/
def Event.At : Event I Failure → Prop
  | .handled definition _ failure => failure.At definition
  | _ => True

structure Located (definition : Definition) (outcome : Outcome I) : Prop where
  raised : ∀ failure retryable, outcome.raised = some (.failed failure retryable) →
    failure.At definition
  handled : outcome.trace.Forall Event.At

theorem located_none {definition : Definition} {trace : Trace (Event I Failure)}
    (h : trace.Forall Event.At) : Located definition ⟨none, trace⟩ := ⟨by simp, h⟩

theorem Failure.at_none (definition : Definition) (text : String) (cause : Cause) :
    Failure.At definition ⟨none, text, cause⟩ := by
  simp [Failure.At]

theorem located_failedWith (definition : Definition) (text : String) :
    Located definition (.raise (failedWith text) : Outcome I) := by
  refine ⟨?_, Trace.forall_nil⟩
  intro failure retryable hraised
  simp only [Outcome.raise, failedWith, Option.some.injEq, Raise.failed.injEq] at hraised
  rw [← hraised.1]
  exact Failure.at_none definition text .other

theorem located_outsideRaise (definition : Definition) (text : String) (retryable : Bool)
    (cause : ErrorChain.Error Outside) :
    Located definition (.raise (outsideRaise text retryable cause) : Outcome I) := by
  refine ⟨?_, Trace.forall_nil⟩
  intro failure again hraised
  simp only [Outcome.raise, outsideRaise] at hraised
  split at hraised
  · simp at hraised
  · simp only [Option.some.injEq, Raise.failed.injEq] at hraised
    rw [← hraised.1]
    exact Failure.at_none definition _ .other

theorem Located.andThen {definition : Definition} {outcome next : Outcome I}
    (h : Located definition outcome) (hnext : Located definition next) :
    Located definition (outcome.andThen next) := by
  rw [Outcome.andThen]
  cases hraised : outcome.raised with
  | some raised => exact h
  | none => exact ⟨hnext.raised, h.handled.seq hnext.handled⟩

/-! Steps -/

theorem activityStepOutcome_located {activities : Activities I} {definition : Definition}
    {place : Place} {ctx : Ctx} {id : String} {activity : Option Activity}
    (hactivity : (activities place ctx id activity).trace.Forall Event.At)
    (hid : id ∈ definition.activityIDs) :
    Located definition (activityStepOutcome activities place ctx id activity) := by
  rw [activityStepOutcome]
  cases hraised : (activities place ctx id activity).raised with
  | none =>
    apply located_none
    apply Trace.forall_all
    simpa [Trace.forall_event, Event.At] using hactivity
  | some raised =>
    cases raised with
    | ended =>
      refine ⟨by simp, Trace.forall_all ?_⟩
      simpa [Trace.forall_event, Event.At] using hactivity
    | interrupted =>
      refine ⟨by simp [Raise.atStep], Trace.forall_all ?_⟩
      simpa [Trace.forall_event, Event.At] using hactivity
    | failed failure retryable =>
      refine ⟨?_, Trace.forall_all ?_⟩
      · intro failed again h
        simp only [Raise.atStep, Option.some.injEq, Raise.failed.injEq] at h
        rw [← h.1]
        intro step hstep
        obtain rfl : id = step := by simpa [Failure.atStep] using hstep
        exact hid
      · simpa [Trace.forall_event, Event.At] using hactivity

theorem tryOutcome_located {definition : Definition} {place : Place} {rethrow : Bool}
    {body : Outcome I} {«catch» : Failure → Outcome I} (hbody : Located definition body)
    (hcatch : ∀ failure, Located definition («catch» failure)) :
    Located definition (tryOutcome definition place rethrow body «catch») := by
  rw [tryOutcome]
  cases hraised : body.raised with
  | none => exact hbody
  | some raised =>
    cases raised with
    | ended => exact hbody
    | interrupted => exact hbody
    | failed failure retryable =>
      have hfailure := hbody.raised failure retryable hraised
      obtain ⟨hcaught, hhandled⟩ := hcatch failure
      refine ⟨?_, Trace.forall_all ?_⟩
      · intro failed again h
        dsimp only at h
        cases hcatchRaised : («catch» failure).raised with
        | some caught =>
          rw [hcatchRaised] at h
          exact hcaught failed again (hcatchRaised.trans h)
        | none =>
          rw [hcatchRaised, Option.none_or] at h
          cases rethrow with
          | false => simp at h
          | true =>
            simp only [↓reduceIte, Option.some.injEq, Raise.failed.injEq] at h
            rw [← h.1]
            exact hfailure
      · simp only [List.mem_cons, List.not_mem_nil, or_false, forall_eq_or_imp, forall_eq]
        exact ⟨hbody.handled, Trace.forall_event.mpr hfailure, hhandled⟩

theorem parallelOutcome_located {definition : Definition} {first : ℕ}
    {branches : List (Outcome I × Outcome I)}
    (h : ∀ branch ∈ branches, Located definition branch.1 ∧ Located definition branch.2) :
    Located definition (parallelOutcome first branches) := by
  rw [parallelOutcome]
  cases firstRaised first (branches.map fun branch => branch.1.raised) with
  | none =>
    apply located_none
    apply Trace.forall_par
    simp only [List.mem_map]
    rintro _ ⟨branch, hbranch, rfl⟩
    exact (h branch hbranch).1.handled
  | some failed =>
    refine ⟨?_, Trace.forall_par ?_⟩
    · intro failure retryable hraised
      dsimp only at hraised
      rw [List.getD_eq_getElem?_getD, List.getElem?_map] at hraised
      cases hbranch : branches[failed]? with
      | none => simp [hbranch] at hraised
      | some branch =>
        have hmem := List.mem_of_getElem? hbranch
        exact (h branch hmem).1.raised failure retryable (by simpa [hbranch] using hraised)
    · intro t ht
      obtain ⟨i, hi, rfl⟩ := List.mem_mapIdx.mp ht
      have hbranch := h _ (List.getElem_mem hi)
      split
      · exact hbranch.1.handled
      · exact hbranch.2.handled

section Walk
set_option linter.unusedSectionVars false
variable (w : World V I) {activities : Activities I} {definition : Definition}
  (hactivities : ∀ place ctx id activity, (activities place ctx id activity).trace.Forall Event.At)
include hactivities

mutual

theorem stepOutcome_located (place : Place) (ctx : Ctx) : ∀ step : Step,
    step.steps ⊆ definition.steps →
      Located definition (stepOutcome w activities definition place ctx step)
  | .activity id activity, hsteps => by
    have hmem : Step.activity id activity ∈ definition.steps := hsteps (by simp [Step.steps])
    rw [stepOutcome]
    exact activityStepOutcome_located (hactivities place ctx id activity)
      (List.mem_filterMap.mpr ⟨_, hmem, rfl⟩)
  | .condition id branches otherwise, hsteps => by
    rw [Step.steps, List.cons_subset, List.append_subset] at hsteps
    rw [stepOutcome]
    exact conditionOutcome_located place ctx 0
      (otherwiseOutcome_located _ ctx otherwise hsteps.2.2) branches hsteps.2.1
  | .parallel id branches, hsteps => by
    rw [Step.steps, List.cons_subset] at hsteps
    rw [stepOutcome]
    exact parallelOutcome_located (branchOutcomes_located place ctx 0 branches hsteps.2)
  | .try id body «catch» rethrow, hsteps => by
    rw [Step.steps, List.cons_subset, List.append_subset] at hsteps
    rw [stepOutcome]
    exact tryOutcome_located (sequenceOutcome_located (0 :: place) ctx 0 body hsteps.2.1)
      fun failure => sequenceOutcome_located (1 :: place) (ctx.withErrorScope failure.record) 0
        «catch» hsteps.2.2
  | .unset id, _ => by
    rw [stepOutcome]
    exact located_failedWith definition _

theorem sequenceOutcome_located (place : Place) (ctx : Ctx) (index : ℕ) : ∀ steps : List Step,
    sequenceSteps steps ⊆ definition.steps →
      Located definition (sequenceOutcome w activities definition place ctx index steps)
  | [], _ => by
    rw [sequenceOutcome]
    exact located_none Trace.forall_nil
  | step :: steps, hsteps => by
    rw [sequenceSteps, List.append_subset] at hsteps
    rw [sequenceOutcome]
    split
    · exact ⟨by simp [Outcome.raise], Trace.forall_nil⟩
    · exact (stepOutcome_located (index :: place) ctx step hsteps.1).andThen
        (sequenceOutcome_located place ctx (index + 1) steps hsteps.2)

theorem conditionOutcome_located (place : Place) (ctx : Ctx) (k : ℕ) {otherwise : Outcome I}
    (hotherwise : Located definition otherwise) : ∀ branches : List (String × List Step),
    conditionSteps branches ⊆ definition.steps →
      Located definition (conditionOutcome w activities definition place ctx k otherwise branches)
  | [], _ => by
    rw [conditionOutcome]
    exact hotherwise
  | (when, steps) :: branches, hsteps => by
    rw [conditionSteps, List.append_subset] at hsteps
    rw [conditionOutcome]
    cases w.evalAny (k :: place) ctx when with
    | error cause => exact located_outsideRaise definition "" false cause
    | ok value =>
      cases h : w.asBool value with
      | none => simpa only [h] using located_failedWith definition _
      | some b =>
        have hthen := sequenceOutcome_located (k :: place) ctx 0 steps hsteps.1
        have hnext := conditionOutcome_located place ctx (k + 1) hotherwise branches hsteps.2
        cases b <;> simpa only [h]

theorem otherwiseOutcome_located (place : Place) (ctx : Ctx) : ∀ otherwise : Option (List Step),
    otherwiseSteps otherwise ⊆ definition.steps →
      Located definition (otherwiseOutcome w activities definition place ctx otherwise)
  | none, _ => by
    rw [otherwiseOutcome]
    exact located_none Trace.forall_nil
  | some steps, hsteps => by
    rw [otherwiseOutcome]
    exact sequenceOutcome_located place ctx 0 steps hsteps

theorem branchOutcomes_located (place : Place) (ctx : Ctx) (k : ℕ) : ∀ branches : List (List Step),
    branchSteps branches ⊆ definition.steps →
      ∀ branch ∈ branchOutcomes w activities definition place ctx k branches,
        Located definition branch.1 ∧ Located definition branch.2
  | [], _ => by
    simp [branchOutcomes]
  | steps :: branches, hsteps => by
    rw [branchSteps, List.append_subset] at hsteps
    have hlive := sequenceOutcome_located (k :: place) ctx 0 steps hsteps.1
    have hcancelled := sequenceOutcome_located (k :: place) ctx.cancelled 0 steps hsteps.1
    have hnext := branchOutcomes_located place ctx (k + 1) branches hsteps.2
    rw [branchOutcomes, List.forall_mem_cons]
    exact ⟨⟨hlive, hcancelled⟩, hnext⟩

end

theorem finishOutcome_located (place : Place) (ctx : Ctx) {outcome : Outcome I}
    (h : Located definition outcome) :
    Located definition (finishOutcome w activities definition place ctx outcome) := by
  rw [finishOutcome]
  split
  · rename_i failure hraised
    have hfailure := h.raised failure false hraised
    refine ⟨?_, h.handled.seq ?_⟩
    · intro failed again heq
      obtain ⟨rfl, -⟩ : failure = failed ∧ false = again := by simpa using heq
      exact hfailure
    · rw [errorSequenceTrace]
      split
      · exact Trace.forall_nil
      · have hhandled : (.event (.handled definition place failure) :
            Trace (Event I Failure)).Forall Event.At := Trace.forall_event.mpr hfailure
        exact hhandled.seq (sequenceOutcome_located w hactivities (1 :: place)
          (ctx.withErrorScope failure.record) 0 definition.errorSeq
          (List.subset_append_right _ _)).handled
  · exact located_none h.handled
  · exact h

end Walk

/-! Runs -/

theorem activityOutcome_located [DecidableEq I] (w : World V I) (dispatcher : Dispatcher)
    (stack : List I) (workflowID : I) {run : Place → Ctx → Call I stack → Outcome I}
    (hrun : ∀ place ctx call, (run place ctx call).trace.Forall Event.At) (place : Place) (ctx : Ctx)
    (id : String) (activity : Option Activity) :
    (activityOutcome w dispatcher stack workflowID run place ctx id activity).trace.Forall Event.At := by
  have hcalled : (.event (.called stack) : Trace (Event I Failure)).Forall Event.At := by
    simp [Trace.forall_event, Event.At]
  cases activity with
  | none => exact Trace.forall_nil
  | some activity =>
    cases activity with
    | http spec =>
      simp only [activityOutcome]
      cases dispatcher.http <;> exact Trace.forall_nil
    | set assignments =>
      simp only [activityOutcome]
      cases dispatcher.set <;> exact Trace.forall_nil
    | runWorkflow workflow parameters =>
      simp only [activityOutcome]
      cases dispatcher.runWorkflow with
      | false => exact Trace.forall_nil
      | true =>
        cases runWorkflowCall w stack workflowID place ctx workflow parameters with
        | error call => exact hcalled
        | ok call =>
          exact hcalled.seq (Trace.forall_inner.mpr (hrun place ctx call))
    | fail text => exact Trace.forall_nil
    | «end» => exact Trace.forall_nil
    | unset => exact Trace.forall_nil

theorem runOutcome_located [DecidableEq I] (w : World V I) (dispatcher : Dispatcher) (stack : List I)
    (workflowID : I) (place : Place) (ctx : Ctx) (definition : Definition) :
    Located definition (runOutcome w dispatcher stack workflowID place ctx definition) := by
  rw [runOutcome]
  cases validateUniqueStepIDs definition with
  | some id => exact located_failedWith definition _
  | none =>
    have hactivities := activityOutcome_located w dispatcher stack workflowID fun place ctx call =>
      (runOutcome_located w dispatcher call.childStack call.workflowID place ctx
        call.definition).handled
    exact finishOutcome_located w hactivities place ctx
      (sequenceOutcome_located w hactivities (0 :: place) ctx 0 definition.root
        (List.subset_append_left _ _))
termination_by maxSubWorkflowDepth - stack.length
decreasing_by
  have hlonger := call.longer
  have hbounded := call.bounded
  omega

end Pivox.Engine.Interpreter
