import Pivox.Engine.Interpreter

/-!
What a failure of a workflow run is, apart from the errors that carry it: the activity step that it
comes from, in the definition that is run, and what is at the root of it.
-/

namespace Pivox.Engine.Interpreter
open ErrorChain SeriesParallel

variable {V I : Type}

inductive Cause where
  | failActivity
  | response (response : Response)
  | other
  deriving DecidableEq

/- Without a step, no activity step of the definition has failed. -/
structure Failure where
  step : Option String
  message : String
  cause : Cause
  deriving DecidableEq

/-- What ends a step before its end. -/
inductive Raise where
  | ended
  | interrupted
  | failed (failure : Failure) (retryable : Bool)

def Cause.detail : Cause → Option Response
  | .response detail => some detail
  | _ => none

def Failure.record (failure : Failure) : ErrorRecord where
  code := if failure.cause = .failActivity then errorCodeFail else errorCodeActivityFailed
  message := failure.message
  step := failure.step.getD ""
  status := failure.cause.detail.map Response.status
  body := failure.cause.detail.map Response.body

/-- A failure as one of the step, wherever it comes from. -/
def Failure.atStep (failure : Failure) (id : String) : Failure := { failure with step := some id }

def Raise.atStep (id : String) : Raise → Raise
  | .ended => .ended
  | .interrupted => .interrupted
  | .failed failure retryable => .failed (failure.atStep id) retryable

structure Outcome (I : Type) where
  raised : Option Raise
  trace : Trace (Event I Failure)

namespace Outcome

def done : Outcome I := ⟨none, .nil⟩

def raise (raised : Raise) : Outcome I := ⟨some raised, .nil⟩

def andThen (outcome next : Outcome I) : Outcome I :=
  match outcome.raised with
  | some _ => outcome
  | none => ⟨next.raised, .seq outcome.trace next.trace⟩

end Outcome

/-! Activities -/

def failedWith (message : String) : Raise := .failed ⟨none, message, .other⟩ false

/-- The error of another package, after a text. -/
def outsideRaise (text : String) (retryable : Bool) (cause : Error Outside) : Raise :=
  if cause.is .canceled || cause.is .deadlineExceeded then .interrupted
  else .failed ⟨none, text ++ message (outside cause), .other⟩ retryable

def LookupError.raise : LookupError → Raise
  | .terminal cause => outsideRaise "" false cause
  | .infra cause => outsideRaise "" true cause

def BrokerError.raise : BrokerError → Raise
  | .terminal cause => outsideRaise "" false cause
  | .infra cause => outsideRaise "" true cause
  | .transport cause => outsideRaise "" false cause

def CallError.raise (w : World V I) (id : String) : CallError I → Raise
  | .target err => err.raise
  | .cycle stack targetID => failedWith (cycleText w stack targetID)
  | .depth => failedWith (depthText w id)
  | .parameter name cause => outsideRaise (parameterText w name) false cause

/- How an attempt of a request fails; of a response, whether it is one to try again. -/
inductive AttemptError where
  | context (err : ContextError)
  | broker (err : BrokerError)
  | response (transient : Bool) (response : Response)

def AttemptError.isTransient : AttemptError → Bool
  | .broker (.transport _) => true
  | .response transient _ => transient
  | _ => false

def AttemptError.raise : AttemptError → Raise
  | .context _ => .interrupted
  | .broker err => err.raise
  | .response _ detail =>
    .failed ⟨none, "http request returned status " ++ toString detail.status, .response detail⟩ false

def attempts (w : World V I) (place : Place) (ctx : Ctx) (spec : HttpSpec) :
    Outcomes AttemptError Response where
  ctxErr n := if ctx.done then (w.attemptCtxErr place n).map .context else none
  fn n :=
    match w.attempt place ctx n with
    | .error err => .error (.broker err)
    | .ok detail =>
      if isSuccess detail.status spec.successStatus then .ok detail
      else .error (.response (isRetryableStatus detail.status spec.retryableStatus) detail)
  sleep n := if ctx.done then (w.sleep place n).map .context else none

def httpRaise (w : World V I) (place : Place) (ctx : Ctx) (spec : HttpSpec) : Option Raise :=
  match w.connector place ctx with
  | .error err => some err.raise
  | .ok () =>
    match w.request place ctx with
    | .error cause => some (outsideRaise "" false cause)
    | .ok () =>
      match (withRetry (retryPolicy spec.retry) (some AttemptError.isTransient)
        (attempts w place ctx spec)).2 with
      | .error err => some err.raise
      | .ok _ => none

def activityOutcome [DecidableEq I] (w : World V I) (dispatcher : Dispatcher) (stack : List I)
    (workflowID : I) (run : Place → Ctx → Call I stack → Outcome I) (place : Place) (ctx : Ctx)
    (id : String) : Option Activity → Outcome I
  | none => .raise (failedWith (notActivityText w id))
  | some (.set assignments) =>
    if dispatcher.set then
      ⟨(evalAll w place ctx assignments).map fun (name, cause) =>
        outsideRaise (assignmentText w id name) false cause, .nil⟩
    else .raise (failedWith (unregisteredText w id "set"))
  | some (.http spec) =>
    if dispatcher.http then ⟨httpRaise w place ctx spec, .nil⟩
    else .raise (failedWith (unregisteredText w id "http"))
  | some (.runWorkflow workflow parameters) =>
    if dispatcher.runWorkflow then
      match runWorkflowCall w stack workflowID place ctx workflow parameters with
      | .error err => ⟨some (err.raise w id), .event (.called stack)⟩
      | .ok call =>
        let ran := run place ctx call
        ⟨ran.raised, .seq (.event (.called stack)) (.inner ran.trace)⟩
    else .raise (failedWith (unregisteredText w id "run_workflow"))
  | some (.fail text) => .raise (.failed ⟨none, failMessage text, .failActivity⟩ false)
  | some .end => .raise .ended
  | some .unset => .raise (failedWith (unknownActivityText w id))

/-! Steps -/

abbrev Activities (I : Type) := Place → Ctx → String → Option Activity → Outcome I

/-- What fails in an activity step is that step. -/
def activityStepOutcome (activities : Activities I) (place : Place) (ctx : Ctx) (id : String)
    (activity : Option Activity) : Outcome I :=
  let outcome := activities place ctx id activity
  match outcome.raised with
  | none => ⟨none, .all [.event (.stepStarted id), outcome.trace, .event (.executed id .returned),
      .event (.setStepOutput id), .event (.recordState id .succeeded), .event (.stepFinished id)]⟩
  | some .ended => ⟨some .ended, .all [.event (.stepStarted id), outcome.trace,
      .event (.executed id .ended), .event (.recordState id .succeeded), .event (.stepFinished id)]⟩
  | some raised => ⟨some (raised.atStep id), .all [.event (.stepStarted id), outcome.trace,
      .event (.executed id .failed), .event (.recordState id .failed), .event (.stepFailed id)]⟩

/-- A catch that raises does so in place of the body, and one that does not may raise the failure of
the body again. -/
def tryOutcome (definition : Definition) (place : Place) (rethrow : Bool) (body : Outcome I)
    («catch» : Failure → Outcome I) : Outcome I :=
  match body.raised with
  | some (.failed failure retryable) =>
    let caught := «catch» failure
    { raised := caught.raised.or (if rethrow then some (.failed failure retryable) else none)
      trace := .all [body.trace, .event (.handled definition place failure), caught.trace] }
  | _ => body

def firstRaised (first : ℕ) (raises : List (Option Raise)) : Option ℕ :=
  if (raises.getD first none).isSome then some first else raises.findIdx? Option.isSome

def parallelOutcome (first : ℕ) (branches : List (Outcome I × Outcome I)) : Outcome I :=
  match firstRaised first (branches.map fun branch => branch.1.raised) with
  | none => ⟨none, .par (branches.map fun branch => branch.1.trace)⟩
  | some failed => ⟨(branches.map fun branch => branch.1.raised).getD failed none,
      .par (branches.mapIdx fun i branch => if i = failed then branch.1.trace else branch.2.trace)⟩

section Steps
variable (w : World V I) (activities : Activities I) (definition : Definition)

mutual

def stepOutcome (place : Place) (ctx : Ctx) : Step → Outcome I
  | .activity id activity => activityStepOutcome activities place ctx id activity
  | .condition _ branches otherwise =>
    conditionOutcome place ctx 0 (otherwiseOutcome (branches.length :: place) ctx otherwise) branches
  | .parallel _ branches => parallelOutcome (w.first place) (branchOutcomes place ctx 0 branches)
  | .try _ body «catch» rethrow =>
    tryOutcome definition place rethrow (sequenceOutcome (0 :: place) ctx 0 body) fun failure =>
      sequenceOutcome (1 :: place) (ctx.withErrorScope failure.record) 0 «catch»
  | .unset id => .raise (failedWith (unknownStepText w id))

def sequenceOutcome (place : Place) (ctx : Ctx) (index : ℕ) : List Step → Outcome I
  | [] => .done
  | step :: steps =>
    if ctx.done && (w.ctxErr (index :: place)).isSome then .raise .interrupted
    else (stepOutcome (index :: place) ctx step).andThen (sequenceOutcome place ctx (index + 1) steps)

def conditionOutcome (place : Place) (ctx : Ctx) (k : ℕ) (otherwise : Outcome I) :
    List (String × List Step) → Outcome I
  | [] => otherwise
  | (when, steps) :: branches =>
    match w.evalAny (k :: place) ctx when with
    | .error cause => .raise (outsideRaise "" false cause)
    | .ok value =>
      match w.asBool value with
      | none => .raise (failedWith (notBoolText w when value))
      | some true => sequenceOutcome (k :: place) ctx 0 steps
      | some false => conditionOutcome place ctx (k + 1) otherwise branches

def otherwiseOutcome (place : Place) (ctx : Ctx) : Option (List Step) → Outcome I
  | none => .done
  | some steps => sequenceOutcome place ctx 0 steps

def branchOutcomes (place : Place) (ctx : Ctx) (k : ℕ) :
    List (List Step) → List (Outcome I × Outcome I)
  | [] => []
  | steps :: branches =>
    (sequenceOutcome (k :: place) ctx 0 steps, sequenceOutcome (k :: place) ctx.cancelled 0 steps) ::
      branchOutcomes place ctx (k + 1) branches

end

end Steps

/-! Runs -/

def errorSequenceTrace (w : World V I) (activities : Activities I) (definition : Definition)
    (place : Place) (ctx : Ctx) (failure : Failure) : Trace (Event I Failure) :=
  match definition.errorSeq with
  | [] => .nil
  | _ :: _ => .seq (.event (.handled definition place failure))
      (sequenceOutcome w activities definition (1 :: place) (ctx.withErrorScope failure.record) 0
        definition.errorSeq).trace

/-- An end is no failure of the run. -/
def finishOutcome (w : World V I) (activities : Activities I) (definition : Definition)
    (place : Place) (ctx : Ctx) (outcome : Outcome I) : Outcome I :=
  match outcome.raised with
  | some (.failed failure false) => ⟨some (.failed failure false),
      .seq outcome.trace (errorSequenceTrace w activities definition place ctx failure)⟩
  | some .ended => ⟨none, outcome.trace⟩
  | _ => outcome

def runOutcome [DecidableEq I] (w : World V I) (dispatcher : Dispatcher) (stack : List I)
    (workflowID : I) (place : Place) (ctx : Ctx) (definition : Definition) : Outcome I :=
  match validateUniqueStepIDs definition with
  | some id => .raise (failedWith (duplicateText w id))
  | none =>
    let activities := activityOutcome w dispatcher stack workflowID fun place ctx call =>
      runOutcome w dispatcher call.childStack call.workflowID place ctx call.definition
    finishOutcome w activities definition place ctx
      (sequenceOutcome w activities definition (0 :: place) ctx 0 definition.root)
termination_by maxSubWorkflowDepth - stack.length
decreasing_by
  have hlonger := call.longer
  have hbounded := call.bounded
  omega

end Pivox.Engine.Interpreter
