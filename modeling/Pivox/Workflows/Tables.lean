import Pivox.Service

/-!
The tables of workflows and of their versions, and what the statements of both services on them do
and find.
-/

namespace Pivox.Workflows

inductive Origin where
  | owned
  | managed
  deriving DecidableEq, Repr

/- The id of a row is its key. `xmax` counts the transactions that locked or wrote it, as Postgres
   records them in the row. -/
structure Workflow where
  orgId : Id
  spaceId : Option Id
  slug : String
  displayName : String
  description : String
  enabled : Bool
  config : Json
  origin : Origin
  annotations : Json
  version : Option Id
  etag : String
  xmax : Nat
  deriving DecidableEq, Repr

structure WorkflowVersion where
  workflowId : Id
  versionNumber : Nat
  note : String
  definition : Json
  deriving DecidableEq, Repr

structure GetWorkflowByParentParams where
  orgId : Id
  spaceId : Option Id
  slug : String

def GetWorkflowByParentParams.holds (p : GetWorkflowByParentParams) (w : Workflow) : Bool :=
  w.orgId = p.orgId && w.spaceId = p.spaceId && w.slug = p.slug

/- Whoever writes a row, or selects it FOR UPDATE, leaves its mark on it. -/
def touched (w : Workflow) : Workflow := { w with xmax := w.xmax + 1 }

/-! Queries, on the rows of a table with their ids -/

def findByParent (p : GetWorkflowByParentParams) (ws : List (Id × Workflow)) :
    Option (Id × Workflow) :=
  ws.find? fun w => p.holds w.2

def findVersion (id : Id) (vs : List (Id × WorkflowVersion)) : Option (Id × WorkflowVersion) :=
  vs.find? fun v => v.1 = id

def ofWorkflow (workflowId : Id) (vs : List (Id × WorkflowVersion)) : List (Id × WorkflowVersion) :=
  vs.filter fun v => v.2.workflowId = workflowId

theorem mem_ofWorkflow {workflowId id : Id} {v : WorkflowVersion} {vs : List (Id × WorkflowVersion)} :
    (id, v) ∈ ofWorkflow workflowId vs ↔ (id, v) ∈ vs ∧ v.workflowId = workflowId := by
  simp [ofWorkflow]

def findByNumber (workflowId : Id) (n : Nat) (vs : List (Id × WorkflowVersion)) :
    Option (Id × WorkflowVersion) :=
  (ofWorkflow workflowId vs).find? fun v => v.2.versionNumber = n

end Pivox.Workflows
