import Pivox.Engine.Errors
import Pivox.Engine.Retry
import Pivox.SeriesParallel

/-!
The interpreter of workflow definitions: the walk of the steps, their activities, and the runs of
other workflows inside of a run. What the world answers is asked by the place of the walk; a place is
reached at most once.
-/

namespace Pivox.Engine.Interpreter
open ErrorChain SeriesParallel

/- `V` are the values of expressions, `I` the ids of workflows. -/
variable {V I : Type}

structure HttpSpec where
  successStatus : List Int
  retryableStatus : List Int
  retry : Option ProtoRetryPolicy

inductive Activity where
  | http (spec : HttpSpec)
  | set (assignments : List (String × String))
  | runWorkflow (workflow : String) (parameters : List (String × String))
  | fail (message : String)
  | «end»
  | unset

inductive Step where
  | activity (id : String) (activity : Option Activity)
  | condition (id : String) (branches : List (String × List Step)) (otherwise : Option (List Step))
  | parallel (id : String) (branches : List (List Step))
  | «try» (id : String) (body «catch» : List Step) (rethrow : Bool)
  | unset (id : String)

/- A sequence that is not there has no steps. -/
structure Definition where
  root : List Step
  errorSeq : List Step

/-- Indices from the outermost sequence in, the last one first. -/
abbrev Place := List ℕ

inductive ContextError where
  | canceled
  | deadlineExceeded

def ContextError.err : ContextError → Error Fault
  | .canceled => .leaf .canceled
  | .deadlineExceeded => .leaf .deadlineExceeded

/-- Of a context, whether it may be done, and the record of a catch block. -/
structure Ctx where
  done : Bool
  errorScope : Option ErrorRecord

def Ctx.withErrorScope (ctx : Ctx) (record : ErrorRecord) : Ctx :=
  { ctx with errorScope := some record }

/-- That of a group, which one of its branches may have cancelled. -/
def Ctx.cancelled (ctx : Ctx) : Ctx := { ctx with done := true }

/- How the lookup of a connector or of a workflow fails. -/
inductive LookupError where
  | terminal (cause : Error Outside)
  | infra (cause : Error Outside)

inductive BrokerError where
  | terminal (cause : Error Outside)
  | infra (cause : Error Outside)
  | transport (cause : Error Outside)

def LookupError.err : LookupError → Error Fault
  | .terminal cause => outside cause
  | .infra cause => retryable (outside cause)

def BrokerError.err : BrokerError → Error Fault
  | .terminal cause => outside cause
  | .infra cause => retryable (outside cause)
  | .transport cause => transientError (outside cause)

/-- `ranged` is the order in which a map is gone through, and `first` the branch of a parallel step
that fails first. The context is asked for its error only where it may be done. -/
structure World (V I : Type) where
  quote : String → String
  idText : I → String
  typeName : V → String
  asBool : V → Option Bool
  ctxErr : Place → Option ContextError
  evalAny : Place → Ctx → String → Except (Error Outside) V
  ranged : Place → List (String × String) → List (String × String)
  connector : Place → Ctx → Except LookupError Unit
  request : Place → Ctx → Except (Error Outside) Unit
  attempt : Place → Ctx → ℕ → Except BrokerError Response
  attemptCtxErr : Place → ℕ → Option ContextError
  sleep : Place → ℕ → Option ContextError
  target : Place → Ctx → String → Except LookupError (I × Definition)
  first : Place → ℕ

inductive StepStatus where
  | succeeded
  | failed
  deriving DecidableEq

/-- How an activity comes back: with a value, with the end of the run, or with another error. -/
inductive Ending where
  | returned
  | ended
  | failed
  deriving DecidableEq

/- `R` is what is kept of a failure that is handled. -/
inductive Event (I R : Type) where
  | stepStarted (id : String)
  | executed (id : String) (ending : Ending)
  | stepFinished (id : String)
  | stepFailed (id : String)
  | recordState (id : String) (status : StepStatus)
  | setStepOutput (id : String)
  | handled (definition : Definition) (place : Place) (record : R)
  | called (stack : List I)

/-- How a walk ends, and what happens in it. -/
structure Walked (I : Type) where
  error : Option (Error Fault)
  trace : Trace (Event I ErrorRecord)

namespace Walked

def done : Walked I := ⟨none, .nil⟩

def raise (err : Error Fault) : Walked I := ⟨some err, .nil⟩

/-- What is after it is done if it has not failed. -/
def andThen (walked next : Walked I) : Walked I :=
  match walked.error with
  | some _ => walked
  | none => ⟨next.error, .seq walked.trace next.trace⟩

end Walked

/-! Activities -/

def notBoolText (w : World V I) (expr : String) (value : V) : String :=
  "engine: CEL expression " ++ w.quote expr ++ " did not evaluate to a bool (got " ++
    w.typeName value ++ ")"

def evalBool (w : World V I) (place : Place) (ctx : Ctx) (expr : String) : Except (Error Fault) Bool :=
  match w.evalAny place ctx expr with
  | .error cause => .error (outside cause)
  | .ok value =>
    match w.asBool value with
    | some b => .ok b
    | none => .error (errorf (notBoolText w expr value))

/-- The first of the expressions that fails, in the order of the map. -/
def evalAll (w : World V I) (place : Place) (ctx : Ctx) (exprs : List (String × String)) :
    Option (String × Error Outside) :=
  (w.ranged place exprs).zipIdx.findSome? fun ((name, expr), i) =>
    match w.evalAny (i :: place) ctx expr with
    | .error cause => some (name, cause)
    | .ok _ => none

def assignmentText (w : World V I) (id name : String) : String :=
  "engine: step " ++ w.quote id ++ " assignment " ++ w.quote name ++ ": "

def setExecute (w : World V I) (place : Place) (ctx : Ctx) (id : String)
    (assignments : List (String × String)) : Option (Error Fault) :=
  (evalAll w place ctx assignments).map fun (name, cause) =>
    errorw (assignmentText w id name) (outside cause)

def isSuccess (status : Int) (extra : List Int) : Bool :=
  (200 ≤ status && status < 300) || extra.contains status

def isRetryableStatus (status : Int) (extra : List Int) : Bool :=
  (500 ≤ status && status ≤ 599) || extra.contains status

def isTransient (err : Error Fault) : Bool := err.is .transient

def classify (spec : HttpSpec) (response : Response) : Except (Error Fault) Response :=
  if isSuccess response.status spec.successStatus then .ok response
  else if isRetryableStatus response.status spec.retryableStatus then
    .error (transientError (responseError response))
  else .error (responseError response)

def httpOutcomes (w : World V I) (place : Place) (ctx : Ctx) (spec : HttpSpec) :
    Outcomes (Error Fault) Response where
  ctxErr n := if ctx.done then (w.attemptCtxErr place n).map ContextError.err else none
  fn n :=
    match w.attempt place ctx n with
    | .error err => .error err.err
    | .ok response => classify spec response
  sleep n := if ctx.done then (w.sleep place n).map ContextError.err else none

def httpExecute (w : World V I) (place : Place) (ctx : Ctx) (spec : HttpSpec) :
    Except (Error Fault) Response :=
  match w.connector place ctx with
  | .error err => .error err.err
  | .ok () =>
    match w.request place ctx with
    | .error cause => .error (outside cause)
    | .ok () => (withRetry (retryPolicy spec.retry) (some isTransient) (httpOutcomes w place ctx spec)).2

def maxSubWorkflowDepth := 16

/-- What a run of another workflow is started with, under the stack of workflows so far. -/
structure Call (I : Type) (stack : List I) where
  childStack : List I
  workflowID : I
  definition : Definition
  longer : stack.length < childStack.length
  bounded : childStack.length ≤ maxSubWorkflowDepth

def seededStack (stack : List I) (workflowID : I) : List I :=
  match stack with
  | [] => [workflowID]
  | _ :: _ => stack

theorem length_le_seededStack (stack : List I) (workflowID : I) :
    stack.length ≤ (seededStack stack workflowID).length := by
  cases stack with
  | nil => exact Nat.zero_le _
  | cons _ _ => exact Nat.le_refl _

/- Why a run of another workflow is not started. -/
inductive CallError (I : Type) where
  | target (err : LookupError)
  | cycle (stack : List I) (target : I)
  | depth
  | parameter (name : String) (cause : Error Outside)

def cycleText (w : World V I) (stack : List I) (target : I) : String :=
  "engine: workflow cycle detected: " ++ " → ".intercalate ((stack ++ [target]).map w.idText)

def depthText (w : World V I) (id : String) : String :=
  "engine: step " ++ w.quote id ++ " run_workflow exceeds the sub-workflow depth cap (" ++
    toString maxSubWorkflowDepth ++ ")"

def parameterText (w : World V I) (name : String) : String :=
  "engine: run_workflow parameter " ++ w.quote name ++ ": "

def CallError.err (w : World V I) (id : String) : CallError I → Error Fault
  | .target err => err.err
  | .cycle stack targetID => errorf (cycleText w stack targetID)
  | .depth => errorf (depthText w id)
  | .parameter name cause => errorw (parameterText w name) (outside cause)

def runWorkflowCall [DecidableEq I] (w : World V I) (stack : List I) (workflowID : I) (place : Place)
    (ctx : Ctx) (workflow : String) (parameters : List (String × String)) :
    Except (CallError I) (Call I stack) :=
  match w.target place ctx workflow with
  | .error err => .error (.target err)
  | .ok (targetID, definition) =>
    let seeded := seededStack stack workflowID
    if targetID ∈ seeded then .error (.cycle seeded targetID)
    else if h : maxSubWorkflowDepth ≤ seeded.length then .error .depth
    else
      match evalAll w place ctx parameters with
      | some (name, cause) => .error (.parameter name cause)
      | none => .ok
        { childStack := seeded ++ [targetID]
          workflowID := targetID
          definition := definition
          longer := by
            rw [List.length_append, List.length_singleton]
            exact Nat.lt_succ_of_le (length_le_seededStack stack workflowID)
          bounded := by
            rw [List.length_append, List.length_singleton]
            omega }

/-- The activities that are registered. -/
structure Dispatcher where
  set : Bool
  http : Bool
  runWorkflow : Bool

def defaultFailMessage := "workflow failed via fail activity"

def failMessage (message : String) : String := if message = "" then defaultFailMessage else message

def unregisteredText (w : World V I) (id kind : String) : String :=
  "engine: step " ++ w.quote id ++ " uses the " ++ w.quote kind ++
    " activity, which is not registered"

def notActivityText (w : World V I) (id : String) : String :=
  "engine: step " ++ w.quote id ++ " is not an activity"

def unknownActivityText (w : World V I) (id : String) : String :=
  "engine: step " ++ w.quote id ++ " has an unset or unknown activity kind"

def unknownStepText (w : World V I) (id : String) : String :=
  "engine: step " ++ w.quote id ++ " has an unset or unknown kind"

/-- `run` is the run of another workflow. -/
def execute [DecidableEq I] (w : World V I) (dispatcher : Dispatcher) (stack : List I) (workflowID : I)
    (run : Place → Ctx → Call I stack → Walked I) (place : Place) (ctx : Ctx) (id : String) :
    Option Activity → Walked I
  | none => .raise (errorf (notActivityText w id))
  | some (.set assignments) =>
    if dispatcher.set then ⟨setExecute w place ctx id assignments, .nil⟩
    else .raise (errorf (unregisteredText w id "set"))
  | some (.http spec) =>
    if dispatcher.http then
      match httpExecute w place ctx spec with
      | .error err => .raise err
      | .ok _ => .done
    else .raise (errorf (unregisteredText w id "http"))
  | some (.runWorkflow workflow parameters) =>
    if dispatcher.runWorkflow then
      match runWorkflowCall w stack workflowID place ctx workflow parameters with
      | .error err => ⟨some (err.err w id), .event (.called stack)⟩
      | .ok call =>
        let ran := run place ctx call
        ⟨ran.error, .seq (.event (.called stack)) (.inner ran.trace)⟩
    else .raise (errorf (unregisteredText w id "run_workflow"))
  | some (.fail message) => .raise (.leaf (.fail (failMessage message)))
  | some .end => .raise errEnd
  | some .unset => .raise (errorf (unknownActivityText w id))

/-! The walk of the steps -/

abbrev Execute (I : Type) := Place → Ctx → String → Option Activity → Walked I

def runActivity (execute : Execute I) (place : Place) (ctx : Ctx) (id : String)
    (activity : Option Activity) : Walked I :=
  let executed := execute place ctx id activity
  match executed.error with
  | none => ⟨none, .all [.event (.stepStarted id), executed.trace, .event (.executed id .returned),
      .event (.setStepOutput id), .event (.recordState id .succeeded), .event (.stepFinished id)]⟩
  | some err =>
    if isEndSignal err then
      ⟨some err, .all [.event (.stepStarted id), executed.trace, .event (.executed id .ended),
        .event (.recordState id .succeeded), .event (.stepFinished id)]⟩
    else
      ⟨some (thrownError id err), .all [.event (.stepStarted id), executed.trace,
        .event (.executed id .failed), .event (.recordState id .failed), .event (.stepFailed id)]⟩

def runTry (definition : Definition) (place : Place) (rethrow : Bool) (body : Walked I)
    («catch» : ErrorRecord → Walked I) : Walked I :=
  match body.error with
  | none => body
  | some bodyErr =>
    if isEndSignal bodyErr || isContextError bodyErr then body
    else
      let record := buildErrorValue bodyErr
      let caught := «catch» record
      let trace := .all [body.trace, .event (.handled definition place record), caught.trace]
      match caught.error with
      | some catchErr => ⟨some catchErr, trace⟩
      | none => ⟨if rethrow then some bodyErr else none, trace⟩

/-- The branch that fails first; it is walked before the group is cancelled. -/
def firstError (first : ℕ) (errors : List (Option (Error Fault))) : Option ℕ :=
  if (errors.getD first none).isSome then some first
  else errors.findIdx? Option.isSome

/-- Each branch as it is walked while nothing has failed, and as it is walked in a group that may be
cancelled. -/
def wait (first : ℕ) (branches : List (Walked I × Walked I)) : Walked I :=
  match firstError first (branches.map fun branch => branch.1.error) with
  | none => ⟨none, .par (branches.map fun branch => branch.1.trace)⟩
  | some failed => ⟨(branches.map fun branch => branch.1.error).getD failed none,
      .par (branches.mapIdx fun i branch => if i = failed then branch.1.trace else branch.2.trace)⟩

section Walk
variable (w : World V I) (execute : Execute I) (definition : Definition)

mutual

def walkStep (place : Place) (ctx : Ctx) : Step → Walked I
  | .activity id activity => runActivity execute place ctx id activity
  | .condition _ branches otherwise =>
    runCondition place ctx 0 (runOtherwise (branches.length :: place) ctx otherwise) branches
  | .parallel _ branches => wait (w.first place) (runBranches place ctx 0 branches)
  | .try _ body «catch» rethrow =>
    runTry definition place rethrow (walkSequence (0 :: place) ctx 0 body) fun record =>
      walkSequence (1 :: place) (ctx.withErrorScope record) 0 «catch»
  | .unset id => .raise (errorf (unknownStepText w id))

def walkSequence (place : Place) (ctx : Ctx) (index : ℕ) : List Step → Walked I
  | [] => .done
  | step :: steps =>
    match if ctx.done then w.ctxErr (index :: place) else none with
    | some err => .raise err.err
    | none => (walkStep (index :: place) ctx step).andThen (walkSequence place ctx (index + 1) steps)

def runCondition (place : Place) (ctx : Ctx) (k : ℕ) (otherwise : Walked I) :
    List (String × List Step) → Walked I
  | [] => otherwise
  | (when, steps) :: branches =>
    match evalBool w (k :: place) ctx when with
    | .error err => .raise err
    | .ok true => walkSequence (k :: place) ctx 0 steps
    | .ok false => runCondition place ctx (k + 1) otherwise branches

def runOtherwise (place : Place) (ctx : Ctx) : Option (List Step) → Walked I
  | none => .done
  | some steps => walkSequence place ctx 0 steps

def runBranches (place : Place) (ctx : Ctx) (k : ℕ) : List (List Step) → List (Walked I × Walked I)
  | [] => []
  | steps :: branches =>
    (walkSequence (k :: place) ctx 0 steps, walkSequence (k :: place) ctx.cancelled 0 steps) ::
      runBranches place ctx (k + 1) branches

end

end Walk

/-! Ids -/

/- The ids seen so far, or one that is seen again. -/
abbrev Seen := Except String (List String)

def seeID (id : String) (seen : List String) : Seen :=
  if id ∈ seen then .error id else .ok (id :: seen)

mutual

def checkStepIDs : Step → List String → Seen
  | .activity id _, seen => seeID id seen
  | .condition id branches otherwise, seen =>
    ((seeID id seen).bind (checkConditionIDs branches)).bind (checkOtherwiseIDs otherwise)
  | .parallel id branches, seen => (seeID id seen).bind (checkBranchIDs branches)
  | .try id body «catch» _, seen =>
    ((seeID id seen).bind (checkSequenceIDs body)).bind (checkSequenceIDs «catch»)
  | .unset id, seen => seeID id seen

def checkSequenceIDs : List Step → List String → Seen
  | [], seen => .ok seen
  | step :: steps, seen => (checkStepIDs step seen).bind (checkSequenceIDs steps)

def checkConditionIDs : List (String × List Step) → List String → Seen
  | [], seen => .ok seen
  | (_, steps) :: branches, seen => (checkSequenceIDs steps seen).bind (checkConditionIDs branches)

def checkOtherwiseIDs : Option (List Step) → List String → Seen
  | none, seen => .ok seen
  | some steps, seen => checkSequenceIDs steps seen

def checkBranchIDs : List (List Step) → List String → Seen
  | [], seen => .ok seen
  | steps :: branches, seen => (checkSequenceIDs steps seen).bind (checkBranchIDs branches)

end

def validateUniqueStepIDs (definition : Definition) : Option String :=
  match (checkSequenceIDs definition.root []).bind (checkSequenceIDs definition.errorSeq) with
  | .error id => some id
  | .ok _ => none

def duplicateText (w : World V I) (id : String) : String := "engine: duplicate step id " ++ w.quote id

/-! Runs -/

inductive RunStatus where
  | completed
  | failed
  | cancelled
  deriving DecidableEq

structure Ran (I : Type) where
  status : RunStatus
  error : Option (Error Fault)
  trace : Trace (Event I ErrorRecord)

def runErrorSequence (w : World V I) (execute : Execute I) (definition : Definition) (place : Place)
    (ctx : Ctx) (cause : Error Fault) : Trace (Event I ErrorRecord) :=
  match definition.errorSeq with
  | [] => .nil
  | _ :: _ =>
    let record := buildErrorValue cause
    .seq (.event (.handled definition place record))
      (walkSequence w execute definition (1 :: place) (ctx.withErrorScope record) 0
        definition.errorSeq).trace

/-- The result of a run whose root has been walked. -/
def finish (w : World V I) (execute : Execute I) (definition : Definition) (place : Place) (ctx : Ctx)
    (walked : Walked I) : Ran I :=
  match walked.error with
  | none => ⟨.completed, none, walked.trace⟩
  | some err =>
    if isEndSignal err then ⟨.completed, none, walked.trace⟩
    else if isContextError err then ⟨.cancelled, some err, walked.trace⟩
    else if isRetryable err then ⟨.failed, some err, walked.trace⟩
    else ⟨.failed, some err,
      .seq walked.trace (runErrorSequence w execute definition place ctx err)⟩

def run [DecidableEq I] (w : World V I) (dispatcher : Dispatcher) (stack : List I) (workflowID : I)
    (place : Place) (ctx : Ctx) (definition : Definition) : Ran I :=
  match validateUniqueStepIDs definition with
  | some id => ⟨.failed, some (errorf (duplicateText w id)), .nil⟩
  | none =>
    let execute := execute w dispatcher stack workflowID fun place ctx call =>
      let ran := run w dispatcher call.childStack call.workflowID place ctx call.definition
      ⟨ran.error, ran.trace⟩
    finish w execute definition place ctx
      (walkSequence w execute definition (0 :: place) ctx 0 definition.root)
termination_by maxSubWorkflowDepth - stack.length
decreasing_by
  have hlonger := call.longer
  have hbounded := call.bounded
  omega

/-- A world that knows no connector and no workflow. -/
def silentWorld : World Unit ℕ where
  quote expr := expr
  idText := toString
  typeName _ := "unit"
  asBool _ := none
  ctxErr _ := none
  evalAny _ _ _ := .ok ()
  ranged _ entries := entries
  connector _ _ := .error (.terminal (.leaf (.text "not found")))
  request _ _ := .ok ()
  attempt _ _ _ := .ok ⟨200, []⟩
  attemptCtxErr _ _ := none
  sleep _ _ := none
  target _ _ _ := .error (.terminal (.leaf (.text "not found")))
  first _ := 0

end Pivox.Engine.Interpreter
