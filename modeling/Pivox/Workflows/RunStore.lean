import Pivox.Workflows.Tables

/-!
The tables of the workflow service that a run touches, and the SQL statements on them.
-/

namespace Pivox.Workflows
open ReadCommitted

inductive RunState where
  | pending
  | running
  | waiting
  | succeeded
  | failed
  | cancelled
  deriving DecidableEq, Repr

def isTerminalState : RunState → Bool
  | .succeeded | .failed | .cancelled => true
  | _ => false

structure WorkflowRun where
  id : Id
  workflowId : Id
  orgId : Id
  spaceId : Option Id
  versionId : Id
  state : RunState
  trigger : Json
  subject : String
  input : Option Json
  output : Option Json
  steps : Json
  error : Option Json
  triggeredBy : Option Id
  startTime : Option Time
  endTime : Option Time
  deriving DecidableEq, Repr

inductive Key where
  | run (id : Id)
  | workflow (id : Id)
  | version (id : Id)
  deriving DecidableEq

abbrev Row : Key → Type
  | .run _ => Slot WorkflowRun
  | .workflow _ => Slot Workflow
  | .version _ => Slot WorkflowVersion

/- The nil arguments of UpdateWorkflowRunState leave their column as it is. -/
structure UpdateWorkflowRunStateParams where
  state : RunState
  output : Option Json
  steps : Option Json
  error : Option Json
  startTime : Option Time
  endTime : Option Time

inductive RunStmt where
  | createWorkflowRun (run : WorkflowRun)
  | getWorkflowRunForUpdate
  | updateWorkflowRunSteps (steps : Json)
  | updateWorkflowRunState (params : UpdateWorkflowRunStateParams)
  | cancelActiveWorkflowRuns (workflowId : Id) (now : Time)
  | cascade (workflowId : Id)

inductive WorkflowStmt where
  | getWorkflowByParentForUpdate (params : GetWorkflowByParentParams)
  | deleteWorkflow

inductive VersionStmt where
  | cascade (workflowId : Id)

abbrev Stmt : Key → Type
  | .run _ => RunStmt
  | .workflow _ => WorkflowStmt
  | .version _ => VersionStmt

def UpdateWorkflowRunStateParams.apply (p : UpdateWorkflowRunStateParams) (run : WorkflowRun) :
    WorkflowRun :=
  { run with
    state := p.state
    output := p.output.or run.output
    steps := p.steps.getD run.steps
    error := p.error.or run.error
    startTime := p.startTime.or run.startTime
    endTime := p.endTime.or run.endTime }

def isActiveState (state : RunState) : Bool := state = .running || state = .waiting

def execRun : RunStmt → Option (Slot WorkflowRun) → Option (Option (Slot WorkflowRun))
  | .createWorkflowRun run, none => some (some (.live run))
  | .getWorkflowRunForUpdate, some (.live run) => some (some (.live run))
  | .updateWorkflowRunSteps steps, some (.live run) =>
    if run.state = .running then some (some (.live { run with steps })) else none
  | .updateWorkflowRunState p, some (.live run) => some (some (.live (p.apply run)))
  | .cancelActiveWorkflowRuns workflowId now, some (.live run) =>
    if run.workflowId = workflowId && isActiveState run.state then
      some (some (.live { run with state := .cancelled, endTime := run.endTime.or (some now) }))
    else none
  | .cascade workflowId, some (.live run) =>
    if run.workflowId = workflowId then some (some .gone) else none
  | _, _ => none

def execWorkflow : WorkflowStmt → Option (Slot Workflow) → Option (Option (Slot Workflow))
  | .getWorkflowByParentForUpdate p, some (.live w) =>
    if p.holds w then some (some (.live (touched w))) else none
  | .deleteWorkflow, some (.live _) => some (some .gone)
  | _, _ => none

def execVersion : VersionStmt → Option (Slot WorkflowVersion) →
    Option (Option (Slot WorkflowVersion))
  | .cascade workflowId, some (.live v) =>
    if v.workflowId = workflowId then some (some .gone) else none
  | _, _ => none

inductive Query where
  | getWorkflow (id : Id)
  | getWorkflowByParent (params : GetWorkflowByParentParams)
  | getWorkflowVersion (id : Id)
  | getWorkflowVersionByNumber (workflowId : Id) (versionNumber : Nat)
  | countActiveWorkflowRuns (workflowId : Id)
  | runsOfWorkflow (workflowId : Id)
  | versionsOfWorkflow (workflowId : Id)

abbrev Result : Query → Type
  | .getWorkflow _ => Option (Id × Workflow)
  | .getWorkflowByParent _ => Option (Id × Workflow)
  | .getWorkflowVersion _ => Option (Id × WorkflowVersion)
  | .getWorkflowVersionByNumber _ _ => Option (Id × WorkflowVersion)
  | .countActiveWorkflowRuns _ => Nat
  | .runsOfWorkflow _ => List Id
  | .versionsOfWorkflow _ => List Id

def workflows (db : AList Row) : List (Id × Workflow) :=
  db.entries.filterMap fun
    | ⟨.workflow id, .live w⟩ => some (id, w)
    | _ => none

def versions (db : AList Row) : List (Id × WorkflowVersion) :=
  db.entries.filterMap fun
    | ⟨.version id, .live v⟩ => some (id, v)
    | _ => none

def runs (db : AList Row) : List WorkflowRun :=
  db.entries.filterMap fun
    | ⟨.run _, .live r⟩ => some r
    | _ => none

def answer : (q : Query) → AList Row → Result q
  | .getWorkflow id, db => (workflows db).find? fun w => w.1 = id
  | .getWorkflowByParent p, db => findByParent p (workflows db)
  | .getWorkflowVersion id, db => findVersion id (versions db)
  | .getWorkflowVersionByNumber workflowId n, db => findByNumber workflowId n (versions db)
  | .countActiveWorkflowRuns workflowId, db =>
    (runs db).countP fun r => r.workflowId = workflowId && isActiveState r.state
  | .runsOfWorkflow workflowId, db =>
    ((runs db).filter fun r => r.workflowId = workflowId).map (·.id)
  | .versionsOfWorkflow workflowId, db =>
    (ofWorkflow workflowId (versions db)).map (·.1)

/-- How the interpreter's Run ends: `output` and `steps` as they are marshalled for the row, `none`
when empty or not serializable. -/
inductive RunResult where
  | retryable
  | completed (output : Option Json) (steps : Option Json)
  | failed (cause : String) (steps : Option Json)
  | cancelled

/- One discarded job of a page, its run id as decoded from the job's arguments. -/
structure JobPage where
  jobs : List (Option Id)
  lastCursor : Option Nat

/-- What the service asks outside of its tables: the clock, fresh ids, the decoders of its JSONB
columns, the interpreter (with the step checkpoints it reports on the way) and the job queue. -/
inductive Ask where
  | now
  | newId
  | loadsRoot (definition : Json)
  | decodesContext (trigger : Json) (input : Option Json)
  | interpret (run : WorkflowRun) (definition : Json) (orgId : Id) (spaceId : Option Id)
  | insertJob (runId : Id)
  | jobList (cursor : Option Nat) (want : Nat)
  | marshalRunError (cause : String)
  deriving DecidableEq

abbrev Answer : Ask → Type
  | .now => Time
  | .newId => Option Id
  | .loadsRoot _ => Bool
  | .decodesContext _ _ => Bool
  | .interpret _ _ _ _ => List Json × RunResult
  | .insertJob _ => Bool
  | .jobList _ _ => Option JobPage
  | .marshalRunError _ => Option Json

abbrev store : Schema where
  Key := Key
  Row := Row
  Stmt := Stmt
  exec
    | .run _ => execRun
    | .workflow _ => execWorkflow
    | .version _ => execVersion
  Query := Query
  Result := Result
  answer := answer
  Ask := Ask
  Answer := Answer

end Pivox.Workflows
