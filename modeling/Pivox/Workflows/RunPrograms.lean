import Pivox.Workflows.RunStore

/-!
The writers of a workflow run: RunWorkflow creates it, the worker executes it, CancelWorkflowRun and
DeleteWorkflow end it, and the job error handler and the reaper finalize what the worker left.
-/

namespace Pivox.Workflows
open ReadCommitted

abbrev Service := Script store Err

abbrev query (q : Query) : Service (Result q) := @Script.read store Err .database q
abbrev ask (q : Ask) : Service (Answer q) := @Script.ask store Err q
abbrev writeRow (missing : Err) (k : Key) (stmt : Stmt k) : Service (Option (Row k)) :=
  @Script.write store Err .database missing k stmt
abbrev execRow (k : Key) (stmt : Stmt k) : Service Unit := @Script.exec store Err .database k stmt
abbrev runInTx {α : Type} (body : Service α) : Service α :=
  @Script.transaction store Err α .database false body
abbrev runInTxValidate {α : Type} (validateOnly : Bool) (body : Service α) : Service α :=
  @Script.transaction store Err α .database validateOnly body
abbrev attempt {α : Type} (m : Service α) : Service (Except Err α) := Script.attempt m

def getWorkflowRunForUpdate (id : Id) : Service WorkflowRun := do
  returned (← writeRow .noRows (.run id) .getWorkflowRunForUpdate)

def updateWorkflowRunState (id : Id) (p : UpdateWorkflowRunStateParams) : Service WorkflowRun := do
  returned (← writeRow .noRows (.run id) (.updateWorkflowRunState p))

def updateWorkflowRunSteps (id : Id) (steps : Json) : Service Unit :=
  execRow (.run id) (.updateWorkflowRunSteps steps)

def createWorkflowRun (run : WorkflowRun) : Service WorkflowRun := do
  returned (← writeRow .database (.run run.id) (.createWorkflowRun run))

def getWorkflow (id : Id) : Service (Id × Workflow) := do
  found (← query (.getWorkflow id))

def getWorkflowVersion (id : Id) : Service (Id × WorkflowVersion) := do
  found (← query (.getWorkflowVersion id))

def getWorkflowVersionByNumber (workflowId : Id) (n : Nat) : Service (Id × WorkflowVersion) := do
  found (← query (.getWorkflowVersionByNumber workflowId n))

def getWorkflowByParent (p : GetWorkflowByParentParams) : Service (Id × Workflow) :=
  mapError handleResourceError do
    found (← query (.getWorkflowByParent p))

/- SELECT … FOR UPDATE: the row is found, then locked if it still meets the WHERE clause. -/
def lockWorkflowByParent (p : GetWorkflowByParentParams) : Service (Id × Workflow) :=
  mapError handleResourceError do
    let w ← found (← query (.getWorkflowByParent p))
    let row ← returned (← writeRow .noRows (.workflow w.1) (.getWorkflowByParentForUpdate p))
    pure (w.1, row)

/-! RunWorkflow -/

structure RunWorkflowRequest where
  slug : Option String
  version : Option (Option (String × Nat))
  subject : String
  parameters : Except String (Option Json)
  validateOnly : Bool

/- The scope and the caller that the interceptors put on the request's context. -/
structure RequestScope where
  orgId : Id
  spaceId : Option Id
  userId : Id

def resolveRunVersion (wf : Id × Workflow) (reqVersion : Option (Option (String × Nat))) :
    Service (Id × WorkflowVersion) :=
  match reqVersion with
  | some none => throw .notFound
  | some (some (slug, n)) =>
    if slug ≠ wf.2.slug then
      throw (.failedPrecondition "version does not belong to this workflow")
    else
      mapError
        (fun
          | .noRows => .failedPrecondition "version does not belong to this workflow"
          | _ => .internal "load version")
        (getWorkflowVersionByNumber wf.1 n)
  | none =>
    match wf.2.version with
    | none => throw (.failedPrecondition "workflow has no promoted version")
    | some id =>
      mapError
        (fun
          | .noRows => .failedPrecondition "workflow's promoted version is unavailable"
          | _ => .internal "load promoted version")
        (getWorkflowVersion id)

def manualTrigger : Json := "\x7b\"kind\":\"MANUAL\"\x7d"

def runWorkflow (scope : RequestScope) (req : RunWorkflowRequest) : Service WorkflowRun := do
  match req.slug, req.parameters with
  | none, _ => throw .notFound
  | _, .error _ => throw (.failedPrecondition "parameters")
  | some slug, .ok input =>
    match ← ask .newId with
    | none => throw (.internal "generate run id")
    | some runId =>
      runInTxValidate req.validateOnly do
        let wf ← getWorkflowByParent ⟨scope.orgId, scope.spaceId, slug⟩
        let ver ← resolveRunVersion wf req.version
        let created ← createWorkflowRun
          { id := runId, workflowId := wf.1, orgId := wf.2.orgId, spaceId := wf.2.spaceId,
            versionId := ver.1, state := .pending, trigger := manualTrigger,
            subject := req.subject, input := input, output := none, steps := "[]", error := none,
            triggeredBy := some scope.userId, startTime := none, endTime := none }
        if ← ask (.insertJob runId) then pure created
        else throw (.internal "enqueue workflow run")

/-! The worker -/

structure BeginResult where
  run : Option WorkflowRun
  proceed : Bool

/- start_time is stamped on the first PENDING → RUNNING transition only. -/
def startTimeOf (run : WorkflowRun) : Service (Option Time) :=
  if run.state = .pending then do
    let now ← ask .now
    pure (some now)
  else pure none

def begin (runId : Id) : Service BeginResult :=
  runInTx do
    match ← attempt (getWorkflowRunForUpdate runId) with
    | .error .noRows => pure ⟨none, false⟩
    | .error e => throw e
    | .ok run =>
      if isTerminalState run.state then pure ⟨some run, false⟩
      else
        let startTime ← startTimeOf run
        let updated ← updateWorkflowRunState runId
          { state := .running, output := none, steps := none, error := none, startTime,
            endTime := none }
        pure ⟨some updated, true⟩

/-- The pinned definition, a definition that can never be loaded told apart from a fault. -/
def loadDefinition (versionId : Id) : Service Json := do
  let ver ← mapError
    (fun
      | .noRows => .terminalDefinition "pinned version not found"
      | e => e)
    (getWorkflowVersion versionId)
  if ← ask (.loadsRoot ver.2.definition) then pure ver.2.definition
  else throw (.terminalDefinition "no root sequence")

def loadScope (workflowId : Id) : Service (Id × Option Id) := do
  let wf ← getWorkflow workflowId
  pure (wf.2.orgId, wf.2.spaceId)

/-- Write a terminal state, unless the run is terminal or gone; the result tells which. -/
def finalizeRun (runId : Id) (state : RunState) (output steps errJSON : Option Json) :
    Service Bool :=
  runInTx do
    match ← attempt (getWorkflowRunForUpdate runId) with
    | .error .noRows => pure false
    | .error e => throw e
    | .ok cur =>
      if isTerminalState cur.state then pure false
      else
        let now ← ask .now
        let _ ← updateWorkflowRunState runId
          { state, output, steps, error := errJSON, startTime := none, endTime := some now }
        pure true

def finalizeRunFailed (runId : Id) (steps : Option Json) (cause : String) : Service Bool := do
  let errJSON ← ask (.marshalRunError cause)
  finalizeRun runId .failed none steps errJSON

def finalizeFailed (runId : Id) (steps : Option Json) (cause : String) : Service Unit := do
  let _ ← finalizeRunFailed runId steps cause
  pure ()

def finalizeSucceeded (runId : Id) (output steps : Option Json) : Service Unit := do
  let _ ← finalizeRun runId .succeeded output steps none
  pure ()

/- A lost checkpoint is logged, not surfaced. -/
def checkpoint (runId : Id) (payload : Json) : Service Unit := do
  let _ ← attempt (updateWorkflowRunSteps runId payload)
  pure ()

/-- What the worker does once the run is RUNNING. -/
def execute (run : WorkflowRun) : Service Unit := do
  match ← attempt (loadDefinition run.versionId) with
  | .error (.terminalDefinition cause) => finalizeFailed run.id none cause
  | .error e => throw e
  | .ok definition =>
    let (orgId, spaceId) ← loadScope run.workflowId
    if ← ask (.decodesContext run.trigger run.input) then
      let (checkpoints, result) ← ask (.interpret run definition orgId spaceId)
      Script.forEach (checkpoint run.id) checkpoints
      match result with
      | .retryable => throw .retryable
      | .completed output steps => finalizeSucceeded run.id output steps
      | .failed cause steps => finalizeFailed run.id steps cause
      | .cancelled => throw .interrupted
    else finalizeFailed run.id none "decode run context"

/-- RunWorkflowWorker.Work -/
def work (runId : Id) : Service Unit := do
  match ← begin runId with
  | ⟨some run, true⟩ => execute run
  | _ => pure ()

/-! The error handler and the reaper -/

structure Job where
  kind : String
  attempt : Nat
  maxAttempts : Nat
  runId : Option Id

def runWorkflowJobKind : String := "workflow_run"

def finalizeIfExhausted (job : Job) (cause : String) : Service Unit :=
  if job.kind ≠ runWorkflowJobKind then pure ()
  else if job.attempt < job.maxAttempts then pure ()
  else
    match job.runId with
    | none => pure ()
    | some runId => do
      let _ ← attempt (finalizeRunFailed runId none cause)
      pure ()

def errRunJobDiscarded : String := "run job discarded after exhausting retries"

def reapOne : Option Id → Service Unit
  | none => pure ()
  | some runId => do
    let _ ← attempt (finalizeRunFailed runId none errRunJobDiscarded)
    pure ()

def defaultReapStrandedRunsMax : Nat := 1000
def reapStrandedRunsPageSize : Nat := 100

/- The loop over the pages of discarded jobs; `remaining` is what the cap of the tick leaves. -/
def reapPages (remaining : Nat) (cursor : Option Nat) : Service Unit :=
  if _hcap : remaining = 0 then pure ()
  else do
    let want := min reapStrandedRunsPageSize remaining
    match ← ask (.jobList cursor want) with
    | none => throw (.internal "list discarded workflow_run jobs")
    | some page =>
      Script.forEach reapOne page.jobs
      if _hshort : page.jobs.length < want ∨ page.lastCursor = none then pure ()
      else reapPages (remaining - page.jobs.length) page.lastCursor
termination_by remaining
decreasing_by
  have : 0 < want := by simp only [want, reapStrandedRunsPageSize]; omega
  omega

def reapStrandedRuns (maxPerTick : Nat) : Service Unit :=
  reapPages (if maxPerTick = 0 then defaultReapStrandedRunsMax else maxPerTick) none

/-! CancelWorkflowRun and DeleteWorkflow -/

/- The name of a run, as parsed: the slug of its workflow and the id of the run. -/
def cancelWorkflowRun (scope : RequestScope) (name : Option (String × Id)) :
    Service WorkflowRun :=
  match name with
  | none => throw .notFound
  | some (slug, runId) =>
    runInTx do
      let wf ← getWorkflowByParent ⟨scope.orgId, scope.spaceId, slug⟩
      let existing ← mapError handleResourceError (getWorkflowRunForUpdate runId)
      if existing.workflowId ≠ wf.1 then throw .notFound
      else if isTerminalState existing.state then
        throw (.failedPrecondition "run is not active")
      else
        let now ← ask .now
        mapError handleResourceError (updateWorkflowRunState runId
          { state := .cancelled, output := none, steps := none, error := none, startTime := none,
            endTime := some now })

structure DeleteWorkflowRequest where
  slug : Option String
  etag : String
  force : Bool
  validateOnly : Bool

def cancelActiveWorkflowRuns (workflowId : Id) : Service Unit := do
  let now ← ask .now
  let ids ← query (.runsOfWorkflow workflowId)
  Script.forEach (fun id => execRow (.run id)
    (.cancelActiveWorkflowRuns workflowId now)) ids

/- The foreign keys of runs and versions cascade from the workflow's row. -/
def deleteWorkflowRow (workflowId : Id) : Service Unit := do
  execRow (.workflow workflowId) .deleteWorkflow
  let ids ← query (.runsOfWorkflow workflowId)
  Script.forEach (fun id => execRow (.run id) (.cascade workflowId)) ids
  let ids ← query (.versionsOfWorkflow workflowId)
  Script.forEach (fun id => execRow (.version id) (.cascade workflowId)) ids

def deleteWorkflow (scope : RequestScope) (req : DeleteWorkflowRequest) : Service Unit :=
  match req.slug with
  | none => throw .notFound
  | some slug =>
    runInTxValidate req.validateOnly do
      let existing ← lockWorkflowByParent ⟨scope.orgId, scope.spaceId, slug⟩
      if req.etag ≠ "" && req.etag ≠ existing.2.etag then throw .aborted
      else
        let active ← query (.countActiveWorkflowRuns existing.1)
        if 0 < active then
          if req.force then
            cancelActiveWorkflowRuns existing.1
            deleteWorkflowRow existing.1
          else throw (.failedPrecondition "workflow has active runs; cancel them or use force")
        else deleteWorkflowRow existing.1

/-- What may arrive, in any order and any number of times: a redelivered job is one more `work`. -/
inductive Op where
  | runWorkflow (scope : RequestScope) (req : RunWorkflowRequest)
  | work (runId : Id)
  | handleError (job : Job) (cause : String)
  | reapStrandedRuns (maxPerTick : Nat)
  | cancelWorkflowRun (scope : RequestScope) (name : Option (String × Id))
  | deleteWorkflow (scope : RequestScope) (req : DeleteWorkflowRequest)

def code : Op → Prog store
  | .runWorkflow scope req => (runWorkflow scope req).run
  | .work runId => (work runId).run
  | .handleError job cause => (finalizeIfExhausted job cause).run
  | .reapStrandedRuns maxPerTick => (reapStrandedRuns maxPerTick).run
  | .cancelWorkflowRun scope name => (cancelWorkflowRun scope name).run
  | .deleteWorkflow scope req => (deleteWorkflow scope req).run

end Pivox.Workflows
