import Pivox.Engine.FailedSteps

/-!
The error record of a handled failure: the search of the wrapped errors finds the step at which the
failure is handled and what is at its root.
-/

namespace Pivox.Engine.Interpreter
open ErrorChain SeriesParallel

variable {V I : Type}

/-- What an error stands for, once it is classified. -/
inductive Reads : Error Fault → Raise → Prop
  | ended {err : Error Fault} (hend : isEndSignal err = true) : Reads err .ended
  | interrupted {err : Error Fault} (hend : isEndSignal err = false)
    (hcontext : isContextError err = true) : Reads err .interrupted
  | failed {err : Error Fault} {failure : Failure} {retryable : Bool} (hend : isEndSignal err = false)
    (hcontext : isContextError err = false) (hretryable : isRetryable err = retryable)
    (hrecord : buildErrorValue err = failure.record) : Reads err (.failed failure retryable)

/-- The error that an attempt gives to the retries. -/
def AttemptError.err : AttemptError → Error Fault
  | .context done => done.err
  | .broker failed => failed.err
  | .response true detail => Interpreter.transientError (responseError detail)
  | .response false detail => responseError detail

variable {err : Error Fault} {raised : Raise} {failure : Failure} {text id : String}
  {cause : Error Outside}

/-! Errors of other packages -/

theorem is_outside {fault : Fault} (h : ∀ self : Outside, self.fault ≠ fault) :
    (outside cause).is fault = false := by
  simp only [Error.is, outside, Error.chain_map, List.contains_eq_mem, List.mem_map,
    decide_eq_false_iff_not]
  rintro ⟨self, -, hself⟩
  exact h self hself

theorem as_outside {B : Type} {f : Fault → Option B} (h : ∀ self : Outside, f self.fault = none) :
    (outside cause).as f = none := by
  apply Error.as_eq_none
  simp only [outside, Error.chain_map, List.mem_map]
  rintro _ ⟨self, -, rfl⟩
  exact h self

theorem is_outside_fault (self : Outside) : (outside cause).is self.fault = cause.is self := by
  have hinjective : Function.Injective Outside.fault := by
    intro a b hab
    cases a <;> cases b <;> simp_all [Outside.fault]
  simp only [Error.is, outside, Error.chain_map, List.contains_eq_mem,
    List.mem_map_of_injective hinjective]

theorem isEndSignal_outside : isEndSignal (outside cause) = false :=
  is_outside fun self => by cases self <;> simp [Outside.fault]

theorem isRetryable_outside : isRetryable (outside cause) = false :=
  is_outside fun self => by cases self <;> simp [Outside.fault]

theorem isTransient_outside : isTransient (outside cause) = false :=
  is_outside fun self => by cases self <;> simp [Outside.fault]

theorem isContextError_outside :
    isContextError (outside cause) = (cause.is .canceled || cause.is .deadlineExceeded) := by
  rw [isContextError, ← is_outside_fault .canceled, ← is_outside_fault .deadlineExceeded]
  rfl

theorem buildErrorValue_outside : buildErrorValue (outside cause) =
    (⟨none, message (outside cause), .other⟩ : Failure).record := by
  have hfail : (outside cause).as Fault.failMessage = none :=
    as_outside fun self => by cases self <;> rfl
  have hstep : (outside cause).as Fault.stepID = none := as_outside fun self => by cases self <;> rfl
  have hdetail : (outside cause).as Fault.httpDetail = none :=
    as_outside fun self => by cases self <;> rfl
  simp [buildErrorValue, Failure.record, Cause.detail, hfail, hstep, hdetail]

/-! What the wrappers of the engine add -/

theorem buildErrorValue_wrap {self : Fault} (hstep : self.stepID = none) (hfail : self.failMessage = none)
    (hdetail : self.httpDetail = none) :
    buildErrorValue (.wrap self err) =
      { buildErrorValue err with message := message (.wrap self err) } := by
  simp only [buildErrorValue, Error.as_wrap hstep, Error.as_wrap hfail, Error.as_wrap hdetail]

theorem buildErrorValue_thrownError :
    buildErrorValue (thrownError id err) = { buildErrorValue err with step := id } := by
  have hstep : (thrownError id err).as Fault.stepID = some id := Error.as_wrap_of_some rfl
  have hfail : (thrownError id err).as Fault.failMessage = err.as Fault.failMessage := Error.as_wrap rfl
  have hdetail : (thrownError id err).as Fault.httpDetail = err.as Fault.httpDetail := Error.as_wrap rfl
  have hmessage : message (thrownError id err) = message err := rfl
  simp only [buildErrorValue, hstep, hfail, hdetail, hmessage, Option.getD_some]

theorem Failure.record_atStep : (failure.atStep id).record = { failure.record with step := id } := rfl

theorem isEndSignal_thrownError : isEndSignal (thrownError id err) = isEndSignal err := by
  simp [isEndSignal, thrownError, Error.is_wrap]

theorem isContextError_thrownError : isContextError (thrownError id err) = isContextError err := by
  simp [isContextError, thrownError, Error.is_wrap]

theorem isRetryable_thrownError : isRetryable (thrownError id err) = isRetryable err := by
  simp [isRetryable, thrownError, Error.is_wrap]

/-- The step that an error leaves is the one at which it is handled. -/
theorem Reads.thrownError (h : Reads err raised) (hended : isEndSignal err = false) :
    Reads (thrownError id err) (raised.atStep id) := by
  have hend : isEndSignal (Interpreter.thrownError id err) = isEndSignal err := isEndSignal_thrownError
  have hcontext : isContextError (Interpreter.thrownError id err) = isContextError err :=
    isContextError_thrownError
  have hretryable : isRetryable (Interpreter.thrownError id err) = isRetryable err :=
    isRetryable_thrownError
  cases h with
  | ended hsignal => simp [hended] at hsignal
  | interrupted _ hinterrupted =>
    exact .interrupted (hend.trans hended) (hcontext.trans hinterrupted)
  | failed _ hlive hretry hrecord =>
    refine .failed (hend.trans hended) (hcontext.trans hlive) (hretryable.trans hretry) ?_
    rw [buildErrorValue_thrownError, hrecord, Failure.record_atStep]

theorem Reads.transientError (h : Reads err raised) : Reads (transientError err) raised := by
  have hend : isEndSignal (Interpreter.transientError err) = isEndSignal err := by
    simp [isEndSignal, Interpreter.transientError, Error.is_wrap]
  have hcontext : isContextError (Interpreter.transientError err) = isContextError err := by
    simp [isContextError, Interpreter.transientError, Error.is_wrap]
  have hretryable : isRetryable (Interpreter.transientError err) = isRetryable err := by
    simp [isRetryable, Interpreter.transientError, Error.is_wrap]
  have hbuilt : buildErrorValue (Interpreter.transientError err) = buildErrorValue err :=
    buildErrorValue_wrap rfl rfl rfl
  cases h with
  | ended hsignal => exact .ended (hend.trans hsignal)
  | interrupted hsignal hinterrupted =>
    exact .interrupted (hend.trans hsignal) (hcontext.trans hinterrupted)
  | failed hsignal hlive hretry hrecord =>
    exact .failed (hend.trans hsignal) (hcontext.trans hlive) (hretryable.trans hretry)
      (hbuilt.trans hrecord)

theorem reads_outside : Reads (outside cause) (outsideRaise "" false cause) := by
  rw [outsideRaise, ← isContextError_outside]
  cases hcontext : isContextError (outside cause) with
  | true => exact .interrupted isEndSignal_outside hcontext
  | false =>
    refine .failed isEndSignal_outside hcontext isRetryable_outside ?_
    rw [buildErrorValue_outside, String.empty_append]

theorem reads_retryable : Reads (retryable (outside cause)) (outsideRaise "" true cause) := by
  have hend : isEndSignal (retryable (outside cause)) = false := by
    rw [isEndSignal, retryable, Error.is_wrap, ← isEndSignal, isEndSignal_outside]
    rfl
  have hcontext : isContextError (retryable (outside cause)) = isContextError (outside cause) := by
    simp [isContextError, retryable, Error.is_wrap]
  have hretryable : isRetryable (retryable (outside cause)) = true := by
    simp [isRetryable, retryable, Error.is_wrap]
  have hbuilt : buildErrorValue (retryable (outside cause)) = buildErrorValue (outside cause) :=
    buildErrorValue_wrap rfl rfl rfl
  rw [outsideRaise, ← isContextError_outside]
  cases hdone : isContextError (outside cause) with
  | true => exact .interrupted hend (hcontext.trans hdone)
  | false =>
    refine .failed hend (hcontext.trans hdone) hretryable ?_
    rw [hbuilt, buildErrorValue_outside, String.empty_append]

theorem reads_errorw : Reads (errorw text (outside cause)) (outsideRaise text false cause) := by
  have hend : isEndSignal (errorw text (outside cause)) = false := by
    rw [isEndSignal, errorw, Error.is_wrap, ← isEndSignal, isEndSignal_outside]
    rfl
  have hcontext : isContextError (errorw text (outside cause)) = isContextError (outside cause) := by
    simp [isContextError, errorw, Error.is_wrap]
  have hretryable : isRetryable (errorw text (outside cause)) = false := by
    rw [isRetryable, errorw, Error.is_wrap, ← isRetryable, isRetryable_outside]
    rfl
  have hbuilt : buildErrorValue (errorw text (outside cause)) =
      { buildErrorValue (outside cause) with message := text ++ message (outside cause) } :=
    buildErrorValue_wrap rfl rfl rfl
  rw [outsideRaise, ← isContextError_outside]
  cases hdone : isContextError (outside cause) with
  | true => exact .interrupted hend (hcontext.trans hdone)
  | false =>
    refine .failed hend (hcontext.trans hdone) hretryable ?_
    rw [hbuilt, buildErrorValue_outside]
    rfl

theorem reads_errorf : Reads (errorf text) (failedWith text) := .failed rfl rfl rfl rfl

/-! Activities -/

theorem LookupError.reads (lookup : LookupError) : Reads lookup.err lookup.raise := by
  cases lookup with
  | terminal cause => exact reads_outside
  | infra cause => exact reads_retryable

theorem BrokerError.reads (broker : BrokerError) : Reads broker.err broker.raise := by
  cases broker with
  | terminal cause => exact reads_outside
  | infra cause => exact reads_retryable
  | transport cause => exact reads_outside.transientError

theorem CallError.reads (w : World V I) (call : CallError I) : Reads (call.err w id) (call.raise w id) := by
  cases call with
  | target lookup => exact lookup.reads
  | cycle stack targetID => exact reads_errorf
  | depth => exact reads_errorf
  | parameter name cause => exact reads_errorw

theorem ContextError.reads (done : ContextError) : Reads done.err .interrupted := by
  cases done <;> exact .interrupted rfl rfl

theorem reads_response (detail : Response) : Reads (responseError detail)
    (.failed ⟨none, "http request returned status " ++ toString detail.status, .response detail⟩ false) :=
  .failed rfl rfl rfl rfl

theorem AttemptError.reads (attempt : AttemptError) : Reads attempt.err attempt.raise := by
  cases attempt with
  | context done => exact done.reads
  | broker broker => exact broker.reads
  | response transient detail =>
    cases transient with
    | true => exact (reads_response detail).transientError
    | false => exact reads_response detail

theorem AttemptError.isTransient_err (attempt : AttemptError) :
    Interpreter.isTransient attempt.err = attempt.isTransient := by
  cases attempt with
  | context done => cases done <;> rfl
  | broker broker =>
    cases broker with
    | terminal cause => exact isTransient_outside
    | infra cause =>
      rw [AttemptError.err, BrokerError.err, Interpreter.isTransient, retryable, Error.is_wrap,
        ← Interpreter.isTransient, isTransient_outside]
      rfl
    | transport cause =>
      rw [AttemptError.err, BrokerError.err, Interpreter.isTransient, Interpreter.transientError,
        Error.is_wrap]
      simp [AttemptError.isTransient]
  | response transient detail => cases transient <;> rfl

theorem httpOutcomes_eq (w : World V I) (place : Place) (ctx : Ctx) (spec : HttpSpec) :
    httpOutcomes w place ctx spec = (attempts w place ctx spec).mapError AttemptError.err := by
  have hctx : ∀ c : Option ContextError,
      c.map ContextError.err = (c.map AttemptError.context).map AttemptError.err := by
    intro c
    cases c <;> rfl
  simp only [httpOutcomes, attempts, Outcomes.mapError, Outcomes.mk.injEq]
  refine ⟨?_, ?_, ?_⟩
  · funext n
    split
    · exact hctx _
    · rfl
  · funext n
    cases w.attempt place ctx n with
    | error broker => rfl
    | ok detail =>
      simp only [classify]
      split
      · rfl
      · cases isRetryableStatus detail.status spec.retryableStatus <;> rfl
  · funext n
    split
    · exact hctx _
    · rfl

theorem httpExecute_reads (w : World V I) (place : Place) (ctx : Ctx) (spec : HttpSpec) :
    Option.Rel Reads (match httpExecute w place ctx spec with
      | .error err => some err
      | .ok _ => none) (httpRaise w place ctx spec) := by
  rw [httpExecute, httpRaise]
  cases w.connector place ctx with
  | error lookup => exact .some lookup.reads
  | ok =>
    cases w.request place ctx with
    | error cause => exact .some reads_outside
    | ok =>
      have hretry : (fun attempt : AttemptError => isTransient attempt.err) = AttemptError.isTransient :=
        funext AttemptError.isTransient_err
      simp only [httpOutcomes_eq, withRetry_mapError, hretry]
      cases (withRetry (retryPolicy spec.retry) (some AttemptError.isTransient)
        (attempts w place ctx spec)).2 with
      | error attempt => exact .some attempt.reads
      | ok => exact .none

/-! Walks -/

def Event.mapRecord {R S : Type} (f : R → S) : Event I R → Event I S
  | .stepStarted id => .stepStarted id
  | .executed id ending => .executed id ending
  | .stepFinished id => .stepFinished id
  | .stepFailed id => .stepFailed id
  | .recordState id status => .recordState id status
  | .setStepOutput id => .setStepOutput id
  | .handled definition place record => .handled definition place (f record)
  | .called stack => .called stack

/-- The trace of a walk, with the records of the failures that it handles. -/
def recorded (trace : Trace (Event I Failure)) : Trace (Event I ErrorRecord) :=
  trace.map (Event.mapRecord Failure.record)

structure Simulates (walked : Walked I) (outcome : Outcome I) : Prop where
  error : Option.Rel Reads walked.error outcome.raised
  trace : walked.trace = recorded outcome.trace

theorem simulates_done : Simulates (.done : Walked I) .done := ⟨.none, rfl⟩

theorem simulates_raise (h : Reads err raised) : Simulates (.raise err : Walked I) (.raise raised) :=
  ⟨.some h, rfl⟩

theorem execute_simulates [DecidableEq I] (w : World V I) (dispatcher : Dispatcher) (stack : List I)
    (workflowID : I) {run : Place → Ctx → Call I stack → Walked I}
    {ran : Place → Ctx → Call I stack → Outcome I}
    (hrun : ∀ place ctx call, Simulates (run place ctx call) (ran place ctx call)) (place : Place)
    (ctx : Ctx) (id : String) (activity : Option Activity) :
    Simulates (execute w dispatcher stack workflowID run place ctx id activity)
      (activityOutcome w dispatcher stack workflowID ran place ctx id activity) := by
  cases activity with
  | none => exact simulates_raise reads_errorf
  | some activity =>
    cases activity with
    | http spec =>
      have hread := httpExecute_reads w place ctx spec
      simp only [execute, activityOutcome]
      cases dispatcher.http with
      | false => exact simulates_raise reads_errorf
      | true =>
        simp only [↓reduceIte]
        cases h : httpExecute w place ctx spec with
        | error err =>
          rw [h] at hread
          exact ⟨hread, rfl⟩
        | ok response =>
          rw [h] at hread
          exact ⟨hread, rfl⟩
    | set assignments =>
      simp only [execute, activityOutcome, setExecute]
      cases dispatcher.set with
      | false => exact simulates_raise reads_errorf
      | true =>
        cases evalAll w place ctx assignments with
        | none => exact ⟨.none, rfl⟩
        | some failed => exact ⟨.some reads_errorw, rfl⟩
    | runWorkflow workflow parameters =>
      simp only [execute, activityOutcome]
      cases dispatcher.runWorkflow with
      | false => exact simulates_raise reads_errorf
      | true =>
        cases runWorkflowCall w stack workflowID place ctx workflow parameters with
        | error call => exact ⟨.some (call.reads w), rfl⟩
        | ok call =>
          have hcalled := hrun place ctx call
          refine ⟨hcalled.error, ?_⟩
          simp only [hcalled.trace, ↓reduceIte]
          rfl
    | fail text => exact simulates_raise (.failed rfl rfl rfl rfl)
    | «end» => exact simulates_raise (.ended rfl)
    | unset => exact simulates_raise reads_errorf

theorem Simulates.andThen {walked next : Walked I} {outcome after : Outcome I}
    (h : Simulates walked outcome) (hnext : Simulates next after) :
    Simulates (walked.andThen next) (outcome.andThen after) := by
  obtain ⟨herror, htrace⟩ := h
  obtain ⟨error, trace⟩ := walked
  obtain ⟨raised, trace'⟩ := outcome
  cases herror with
  | some hreads => exact ⟨.some hreads, htrace⟩
  | none =>
    refine ⟨hnext.error, ?_⟩
    simp only [Walked.andThen, Outcome.andThen, hnext.trace, recorded, Trace.map]
    exact congrArg (Trace.seq · _) htrace

theorem runActivity_simulates {execute : Execute I} {activities : Activities I}
    {place : Place} {ctx : Ctx} {activity : Option Activity}
    (hexecute : Simulates (execute place ctx id activity) (activities place ctx id activity)) :
    Simulates (runActivity execute place ctx id activity)
      (activityStepOutcome activities place ctx id activity) := by
  obtain ⟨herror, htrace⟩ := hexecute
  rw [runActivity, activityStepOutcome]
  simp only [htrace]
  generalize (execute place ctx id activity).error = error at herror
  generalize (activities place ctx id activity).raised = raised at herror
  cases herror with
  | none => exact ⟨.none, rfl⟩
  | some hreads =>
    cases hreads with
    | ended hend =>
      simp only [hend, ↓reduceIte]
      exact ⟨.some (.ended hend), rfl⟩
    | interrupted hend hcontext =>
      simp only [hend, Bool.false_eq_true, ↓reduceIte]
      exact ⟨.some ((Reads.interrupted hend hcontext).thrownError hend), rfl⟩
    | failed hend hcontext hretryable hrecord =>
      simp only [hend, Bool.false_eq_true, ↓reduceIte]
      exact ⟨.some ((Reads.failed hend hcontext hretryable hrecord).thrownError hend), rfl⟩

theorem runTry_simulates {definition : Definition} {place : Place} {rethrow : Bool}
    {body : Walked I} {bodyOutcome : Outcome I} {«catch» : ErrorRecord → Walked I}
    {catchOutcome : Failure → Outcome I} (hbody : Simulates body bodyOutcome)
    (hcatch : ∀ failure, Simulates («catch» failure.record) (catchOutcome failure)) :
    Simulates (runTry definition place rethrow body «catch»)
      (tryOutcome definition place rethrow bodyOutcome catchOutcome) := by
  obtain ⟨herror, htrace⟩ := hbody
  obtain ⟨error, trace⟩ := body
  obtain ⟨raised, trace'⟩ := bodyOutcome
  obtain rfl : trace = recorded trace' := htrace
  rw [runTry, tryOutcome]
  cases herror with
  | none => exact ⟨.none, rfl⟩
  | some hreads =>
    cases hreads with
    | ended hend =>
      simp only [hend, Bool.true_or, ↓reduceIte]
      exact ⟨.some (.ended hend), rfl⟩
    | interrupted hend hcontext =>
      simp only [hcontext, Bool.or_true, ↓reduceIte]
      exact ⟨.some (.interrupted hend hcontext), rfl⟩
    | @failed failure retryable hend hcontext hretryable hrecord =>
      obtain ⟨hcaught, hcaughtTrace⟩ := hcatch failure
      simp only [hend, hcontext, Bool.or_self, Bool.false_eq_true, ↓reduceIte, hrecord, hcaughtTrace]
      generalize («catch» failure.record).error = caught at hcaught
      generalize (catchOutcome failure).raised = caughtRaise at hcaught
      cases hcaught with
      | some hcatchReads => exact ⟨.some hcatchReads, rfl⟩
      | none =>
        cases rethrow with
        | false => exact ⟨.none, rfl⟩
        | true => exact ⟨.some (.failed hend hcontext hretryable hrecord), rfl⟩

theorem rel_getD {A B : Type} {R : A → B → Prop} {as : List A} {bs : List B} {a : A} {b : B}
    (h : List.Forall₂ R as bs) (hdefault : R a b) (n : ℕ) : R (as.getD n a) (bs.getD n b) := by
  induction h generalizing n with
  | nil => exact hdefault
  | cons hhead htail ih =>
    cases n with
    | zero => exact hhead
    | succ n => exact ih n

theorem firstError_eq {errors : List (Option (Error Fault))} {raises : List (Option Raise)}
    (h : List.Forall₂ (Option.Rel Reads) errors raises) (first : ℕ) :
    firstError first errors = firstRaised first raises := by
  have hsome : ∀ {error : Option (Error Fault)} {raised : Option Raise},
      Option.Rel Reads error raised → error.isSome = raised.isSome := by
    intro error raised hrel
    cases hrel <;> rfl
  have hfirst : (errors.getD first none).isSome = (raises.getD first none).isSome :=
    hsome (rel_getD h .none first)
  have hfind : errors.findIdx? Option.isSome = raises.findIdx? Option.isSome := by
    clear hfirst
    induction h with
    | nil => rfl
    | cons hhead htail ih => simp only [List.findIdx?_cons, hsome hhead, ih]
  rw [firstError, firstRaised, hfirst, hfind]

theorem recorded_par (traces : List (Trace (Event I Failure))) :
    recorded (.par traces) = .par (traces.map recorded) :=
  congrArg Trace.par (Trace.mapAll_eq _ traces)

theorem wait_simulates {branches : List (Walked I × Walked I)}
    {outcomes : List (Outcome I × Outcome I)}
    (h : List.Forall₂ (fun branch outcome =>
      Simulates branch.1 outcome.1 ∧ Simulates branch.2 outcome.2) branches outcomes) (first : ℕ) :
    Simulates (wait first branches) (parallelOutcome first outcomes) := by
  have herrors : List.Forall₂ (Option.Rel Reads) (branches.map fun branch => branch.1.error)
      (outcomes.map fun outcome => outcome.1.raised) := by
    rw [List.forall₂_map_left_iff, List.forall₂_map_right_iff]
    exact h.imp fun _ _ hboth => hboth.1.error
  rw [wait, parallelOutcome, firstError_eq herrors]
  cases firstRaised first (outcomes.map fun outcome => outcome.1.raised) with
  | none =>
    refine ⟨.none, ?_⟩
    simp only [recorded_par, List.map_map]
    congr 1
    clear herrors
    induction h with
    | nil => rfl
    | cons hhead htail ih => simp only [List.map_cons, ih, hhead.1.trace, Function.comp_apply]
  | some failed =>
    refine ⟨rel_getD herrors .none failed, ?_⟩
    simp only [recorded_par]
    congr 1
    apply List.ext_getElem
    · simp [h.length_eq]
    · intro i hi hi'
      simp only [List.length_mapIdx, List.length_map] at hi hi'
      have hboth := h.get hi hi'
      simp only [List.get_eq_getElem] at hboth
      simp only [List.getElem_mapIdx, List.getElem_map]
      split
      · exact hboth.1.trace
      · exact hboth.2.trace

section Walk
set_option linter.unusedSectionVars false
variable (w : World V I) {execute : Execute I} {activities : Activities I} (definition : Definition)
  (hexecute : ∀ place ctx id activity,
    Simulates (execute place ctx id activity) (activities place ctx id activity))
include hexecute

mutual

theorem walkStep_simulates (place : Place) (ctx : Ctx) : ∀ step : Step,
    Simulates (walkStep w execute definition place ctx step)
      (stepOutcome w activities definition place ctx step)
  | .activity id activity => by
    rw [walkStep, stepOutcome]
    exact runActivity_simulates (hexecute place ctx id activity)
  | .condition _ branches otherwise => by
    rw [walkStep, stepOutcome]
    exact runCondition_simulates place ctx 0 (runOtherwise_simulates _ ctx otherwise) branches
  | .parallel _ branches => by
    rw [walkStep, stepOutcome]
    exact wait_simulates (runBranches_simulates place ctx 0 branches) (w.first place)
  | .try _ body «catch» rethrow => by
    rw [walkStep, stepOutcome]
    exact runTry_simulates (walkSequence_simulates (0 :: place) ctx 0 body) fun failure =>
      walkSequence_simulates (1 :: place) (ctx.withErrorScope failure.record) 0 «catch»
  | .unset id => by
    rw [walkStep, stepOutcome]
    exact simulates_raise reads_errorf

theorem walkSequence_simulates (place : Place) (ctx : Ctx) (index : ℕ) : ∀ steps : List Step,
    Simulates (walkSequence w execute definition place ctx index steps)
      (sequenceOutcome w activities definition place ctx index steps)
  | [] => by
    rw [walkSequence, sequenceOutcome]
    exact simulates_done
  | step :: steps => by
    have hwalked := (walkStep_simulates (index :: place) ctx step).andThen
      (walkSequence_simulates place ctx (index + 1) steps)
    rw [walkSequence, sequenceOutcome]
    cases ctx.done with
    | false => exact hwalked
    | true =>
      cases hctx : w.ctxErr (index :: place) with
      | none => simpa [hctx] using hwalked
      | some done => simpa [hctx] using simulates_raise done.reads

theorem runCondition_simulates (place : Place) (ctx : Ctx) (k : ℕ) {otherwise : Walked I}
    {otherwiseOutcome : Outcome I} (hotherwise : Simulates otherwise otherwiseOutcome) :
    ∀ branches : List (String × List Step),
      Simulates (runCondition w execute definition place ctx k otherwise branches)
        (conditionOutcome w activities definition place ctx k otherwiseOutcome branches)
  | [] => by
    rw [runCondition, conditionOutcome]
    exact hotherwise
  | (when, steps) :: branches => by
    have hthen := walkSequence_simulates (k :: place) ctx 0 steps
    have hnext := runCondition_simulates place ctx (k + 1) hotherwise branches
    rw [runCondition, conditionOutcome, evalBool]
    cases w.evalAny (k :: place) ctx when with
    | error cause => exact simulates_raise reads_outside
    | ok value =>
      cases h : w.asBool value with
      | none => simpa only [h] using simulates_raise reads_errorf
      | some b => cases b <;> simpa only [h]

theorem runOtherwise_simulates (place : Place) (ctx : Ctx) : ∀ otherwise : Option (List Step),
    Simulates (runOtherwise w execute definition place ctx otherwise)
      (otherwiseOutcome w activities definition place ctx otherwise)
  | none => by
    rw [runOtherwise, otherwiseOutcome]
    exact simulates_done
  | some steps => by
    rw [runOtherwise, otherwiseOutcome]
    exact walkSequence_simulates place ctx 0 steps

theorem runBranches_simulates (place : Place) (ctx : Ctx) (k : ℕ) : ∀ branches : List (List Step),
    List.Forall₂ (fun branch outcome => Simulates branch.1 outcome.1 ∧ Simulates branch.2 outcome.2)
      (runBranches w execute definition place ctx k branches)
      (branchOutcomes w activities definition place ctx k branches)
  | [] => by
    rw [runBranches, branchOutcomes]
    exact .nil
  | steps :: branches => by
    rw [runBranches, branchOutcomes]
    exact .cons ⟨walkSequence_simulates (k :: place) ctx 0 steps,
      walkSequence_simulates (k :: place) ctx.cancelled 0 steps⟩
      (runBranches_simulates place ctx (k + 1) branches)

end

end Walk

/-! Runs -/

def Raise.status : Option Raise → RunStatus
  | some .interrupted => .cancelled
  | some (.failed _ _) => .failed
  | _ => .completed

structure SimulatesRun (ran : Ran I) (outcome : Outcome I) : Prop where
  walked : Simulates ⟨ran.error, ran.trace⟩ outcome
  status : ran.status = Raise.status outcome.raised

theorem runErrorSequence_trace (w : World V I) {execute : Execute I} {activities : Activities I}
    (definition : Definition) (hexecute : ∀ place ctx id activity,
      Simulates (execute place ctx id activity) (activities place ctx id activity))
    (place : Place) (ctx : Ctx) (hrecord : buildErrorValue err = failure.record) :
    runErrorSequence w execute definition place ctx err =
      recorded (errorSequenceTrace w activities definition place ctx failure) := by
  rw [runErrorSequence, errorSequenceTrace]
  cases h : definition.errorSeq with
  | nil => rfl
  | cons step steps =>
    have hwalked := walkSequence_simulates w definition hexecute (1 :: place)
      (ctx.withErrorScope failure.record) 0 definition.errorSeq
    rw [h] at hwalked
    simp only [hrecord, hwalked.trace]
    rfl

theorem finish_simulates (w : World V I) {execute : Execute I} {activities : Activities I}
    (definition : Definition) (hexecute : ∀ place ctx id activity,
      Simulates (execute place ctx id activity) (activities place ctx id activity))
    (place : Place) (ctx : Ctx) {walked : Walked I} {outcome : Outcome I}
    (h : Simulates walked outcome) :
    SimulatesRun (finish w execute definition place ctx walked)
      (finishOutcome w activities definition place ctx outcome) := by
  obtain ⟨herror, htrace⟩ := h
  obtain ⟨error, trace⟩ := walked
  obtain ⟨raised, trace'⟩ := outcome
  obtain rfl : trace = recorded trace' := htrace
  rw [finish, finishOutcome]
  cases herror with
  | none => exact ⟨⟨.none, rfl⟩, rfl⟩
  | some hreads =>
    cases hreads with
    | ended hend =>
      simp only [hend, ↓reduceIte]
      exact ⟨⟨.none, rfl⟩, rfl⟩
    | interrupted hend hcontext =>
      simp only [hend, hcontext, Bool.false_eq_true, ↓reduceIte]
      exact ⟨⟨.some (.interrupted hend hcontext), rfl⟩, rfl⟩
    | @failed failure retryable hend hcontext hretryable hrecord =>
      have hreads := Reads.failed hend hcontext hretryable hrecord
      cases retryable with
      | true =>
        simp only [hend, hcontext, hretryable, Bool.false_eq_true, ↓reduceIte]
        exact ⟨⟨.some hreads, rfl⟩, rfl⟩
      | false =>
        simp only [hend, hcontext, hretryable, Bool.false_eq_true, ↓reduceIte,
          runErrorSequence_trace w definition hexecute place ctx hrecord]
        exact ⟨⟨.some hreads, rfl⟩, rfl⟩

theorem run_simulates [DecidableEq I] (w : World V I) (dispatcher : Dispatcher) (stack : List I)
    (workflowID : I) (place : Place) (ctx : Ctx) (definition : Definition) :
    SimulatesRun (run w dispatcher stack workflowID place ctx definition)
      (runOutcome w dispatcher stack workflowID place ctx definition) := by
  rw [run, runOutcome]
  cases validateUniqueStepIDs definition with
  | some id => exact ⟨simulates_raise reads_errorf, rfl⟩
  | none =>
    have hexecute := execute_simulates w dispatcher stack workflowID fun place ctx call =>
      (run_simulates w dispatcher call.childStack call.workflowID place ctx call.definition).walked
    exact finish_simulates w definition hexecute place ctx
      (walkSequence_simulates w definition hexecute (0 :: place) ctx 0 definition.root)
termination_by maxSubWorkflowDepth - stack.length
decreasing_by
  have hlonger := call.longer
  have hbounded := call.bounded
  omega

/-! What the record of a failure shows -/

structure Shows (definition : Definition) (failure : Failure) (record : ErrorRecord) : Prop where
  step : ∀ id, failure.step = some id → record.step = id ∧ id ∈ definition.activityIDs
  nowhere : record.step = "" → failure.step = none ∨ failure.step = some ""
  code : record.code = errorCodeFail ↔ failure.cause = .failActivity
  response : ∀ detail, failure.cause = .response detail ↔
    record.status = some detail.status ∧ record.body = some detail.body
  noResponse : (∀ detail, failure.cause ≠ .response detail) ↔ record.status = none ∧ record.body = none

theorem Failure.shows {definition : Definition} (h : failure.At definition) :
    Shows definition failure failure.record := by
  obtain ⟨step, text, cause⟩ := failure
  constructor
  · rintro id rfl
    exact ⟨rfl, h id rfl⟩
  · intro hempty
    cases step with
    | none => exact .inl rfl
    | some id => exact .inr (congrArg some hempty)
  · simp only [Failure.record]
    split
    · simpa
    · simpa [errorCodeActivityFailed, errorCodeFail]
  · intro detail
    cases cause with
    | response carried =>
      obtain ⟨status, body⟩ := carried
      obtain ⟨status', body'⟩ := detail
      simp [Failure.record, Cause.detail]
    | failActivity => simp [Failure.record, Cause.detail]
    | other => simp [Failure.record, Cause.detail]
  · cases cause <;> simp [Failure.record, Cause.detail]

/-- Every record that a catch block or an error sequence reads, in the run and in the runs inside of
it, is that of the failure handled there. -/
theorem handled_records [DecidableEq I] (w : World V I) (dispatcher : Dispatcher) (stack : List I)
    (workflowID : I) (place : Place) (ctx : Ctx) (definition : Definition) :
    (run w dispatcher stack workflowID place ctx definition).trace =
      recorded (runOutcome w dispatcher stack workflowID place ctx definition).trace ∧
    ∀ handler handlerPlace failure, .handled handler handlerPlace failure ∈
      (runOutcome w dispatcher stack workflowID place ctx definition).trace.events →
      Shows handler failure failure.record := by
  constructor
  · exact (run_simulates w dispatcher stack workflowID place ctx definition).walked.trace
  · intro handler handlerPlace failure hmem
    have hlocated := runOutcome_located w dispatcher stack workflowID place ctx definition
    exact failure.shows (hlocated.handled (.handled handler handlerPlace failure) hmem)

/-- A step may have an empty id, and then its failure is handled as one without a step is. -/
def namelessStep : Definition where
  root := [.try "attempt" [.activity "" (some (.fail "lost"))] [] false]
  errorSeq := []

theorem step_without_id : ¬ ∀ (definition handler : Definition) (handlerPlace : Place)
    (failure : Failure), .handled handler handlerPlace failure ∈
      (runOutcome silentWorld ⟨true, true, true⟩ [] 0 [] ⟨false, none⟩ definition).trace.events →
      failure.record.step = "" → failure.step = none := by
  intro h
  have hunique : validateUniqueStepIDs namelessStep = none := by decide
  have hhandled : .handled namelessStep [0, 0] ⟨some "", "lost", .failActivity⟩ ∈
      (runOutcome silentWorld ⟨true, true, true⟩ [] 0 [] ⟨false, none⟩ namelessStep).trace.events := by
    rw [runOutcome, hunique]
    simp [namelessStep, finishOutcome, sequenceOutcome, stepOutcome, tryOutcome, activityStepOutcome,
      activityOutcome, Outcome.andThen, Outcome.raise, Outcome.done, Raise.atStep, Failure.atStep,
      failMessage, Trace.all, Trace.events]
  have hstep := h namelessStep namelessStep [0, 0] ⟨some "", "lost", .failActivity⟩ hhandled rfl
  simp at hstep

end Pivox.Engine.Interpreter
