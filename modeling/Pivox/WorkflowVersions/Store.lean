import Pivox.Workflows.Tables

/-!
The containers of the workflow service and their versions: the SQL statements that the handlers of
both run on their tables.
-/

namespace Pivox.WorkflowVersions
open ReadCommitted
open Workflows (Origin Workflow WorkflowVersion GetWorkflowByParentParams touched findByParent
  findVersion findByNumber ofWorkflow mem_ofWorkflow)

/- A deleted version leaves a tombstone, which no query sees. -/
inductive VersionSlot where
  | live (v : WorkflowVersion)
  | gone (v : WorkflowVersion)
  deriving DecidableEq, Repr

inductive Key where
  | workflow (id : Id)
  | version (id : Id)
  deriving DecidableEq

abbrev Row : Key → Type
  | .workflow _ => Slot Workflow
  | .version _ => VersionSlot

/- The nil arguments leave their column as it is. -/
structure UpdateWorkflowParams where
  displayName : Option String
  description : Option String
  enabled : Option Bool
  config : Option Json
  annotations : Option Json

def UpdateWorkflowParams.apply (p : UpdateWorkflowParams) (etag : String) (w : Workflow) :
    Workflow :=
  { w with
    displayName := p.displayName.getD w.displayName
    description := p.description.getD w.description
    enabled := p.enabled.getD w.enabled
    config := p.config.getD w.config
    annotations := p.annotations.getD w.annotations
    etag := etag }

/- `unsetVersion` is what the foreign key of `version` does ON DELETE SET NULL. -/
inductive WorkflowStmt where
  | createWorkflow (w : Workflow)
  | getWorkflowByParentForUpdate (params : GetWorkflowByParentParams)
  | updateWorkflow (params : UpdateWorkflowParams) (etag : String)
  | setWorkflowVersion (version : Id) (etag : String)
  | unsetVersion (version : Id)
  | deleteWorkflow

inductive VersionStmt where
  | createWorkflowVersion (v : WorkflowVersion)
  | deleteWorkflowVersion
  | cascade (workflowId : Id)

abbrev Stmt : Key → Type
  | .workflow _ => WorkflowStmt
  | .version _ => VersionStmt

def execWorkflow : WorkflowStmt → Option (Slot Workflow) → Option (Option (Slot Workflow))
  | .createWorkflow w, none => some (some (.live w))
  | .getWorkflowByParentForUpdate p, some (.live w) =>
    if p.holds w then some (some (.live (touched w))) else none
  | .updateWorkflow p etag, some (.live w) => some (some (.live (touched (p.apply etag w))))
  | .setWorkflowVersion version etag, some (.live w) =>
    some (some (.live (touched { w with version := some version, etag := etag })))
  | .unsetVersion version, some (.live w) =>
    if w.version = some version then some (some (.live (touched { w with version := none })))
    else none
  | .deleteWorkflow, some (.live _) => some (some .gone)
  | _, _ => none

def execVersion : VersionStmt → Option VersionSlot → Option (Option VersionSlot)
  | .createWorkflowVersion v, none => some (some (.live v))
  | .deleteWorkflowVersion, some (.live v) => some (some (.gone v))
  | .cascade workflowId, some (.live v) =>
    if v.workflowId = workflowId then some (some (.gone v)) else none
  | _, _ => none

inductive Query where
  | getWorkflowByParent (params : GetWorkflowByParentParams)
  | getWorkflowVersion (id : Id)
  | getWorkflowVersionByNumber (workflowId : Id) (versionNumber : Nat)
  | versionOf (workflowId version : Id)
  | nextWorkflowVersionNumber (workflowId : Id)
  | versionsOfWorkflow (workflowId : Id)
  | workflowsAt (version : Id)

abbrev Result : Query → Type
  | .getWorkflowByParent _ => Option (Id × Workflow)
  | .getWorkflowVersion _ => Option (Id × WorkflowVersion)
  | .getWorkflowVersionByNumber _ _ => Option (Id × WorkflowVersion)
  | .versionOf _ _ => Option (Id × WorkflowVersion)
  | .nextWorkflowVersionNumber _ => Nat
  | .versionsOfWorkflow _ => List Id
  | .workflowsAt _ => List Id

def workflows (db : AList Row) : List (Id × Workflow) :=
  db.entries.filterMap fun
    | ⟨.workflow id, .live w⟩ => some (id, w)
    | _ => none

def versions (db : AList Row) : List (Id × WorkflowVersion) :=
  db.entries.filterMap fun
    | ⟨.version id, .live v⟩ => some (id, v)
    | _ => none

theorem mem_workflows {db : AList Row} {id : Id} {w : Workflow} :
    (id, w) ∈ workflows db ↔ db.lookup (.workflow id) = some (.live w) :=
  mem_collected fun e => by
    constructor
    · intro h
      split at h <;> cases h
      rfl
    · rintro ⟨⟩
      rfl

theorem mem_versions {db : AList Row} {id : Id} {v : WorkflowVersion} :
    (id, v) ∈ versions db ↔ db.lookup (.version id) = some (.live v) :=
  mem_collected fun e => by
    constructor
    · intro h
      split at h <;> cases h
      rfl
    · rintro ⟨⟩
      rfl

def versionsOf (db : AList Row) (workflowId : Id) : List (Id × WorkflowVersion) :=
  ofWorkflow workflowId (versions db)

theorem mem_versionsOf {db : AList Row} {workflowId id : Id} {v : WorkflowVersion} :
    (id, v) ∈ versionsOf db workflowId ↔
      db.lookup (.version id) = some (.live v) ∧ v.workflowId = workflowId := by
  rw [versionsOf, mem_ofWorkflow, mem_versions]

def answer : (q : Query) → AList Row → Result q
  | .getWorkflowByParent p, db => findByParent p (workflows db)
  | .getWorkflowVersion id, db => findVersion id (versions db)
  | .getWorkflowVersionByNumber workflowId n, db => findByNumber workflowId n (versions db)
  | .versionOf workflowId version, db => findVersion version (versionsOf db workflowId)
  | .nextWorkflowVersionNumber workflowId, db =>
    ((versionsOf db workflowId).map (·.2.versionNumber)).foldl max 0 + 1
  | .versionsOfWorkflow workflowId, db => (versionsOf db workflowId).map (·.1)
  | .workflowsAt version, db =>
    ((workflows db).filter fun w => w.2.version = some version).map (·.1)

/-- Outside of the two tables: fresh ids, the md5 of the clock, and the runs of a workflow. -/
inductive Ask where
  | newId
  | etag
  | countActiveWorkflowRuns (workflowId : Id)
  | cancelActiveWorkflowRuns (workflowId : Id)
  | hasRuns (version : Id)
  deriving DecidableEq

abbrev Answer : Ask → Type
  | .newId => Option Id
  | .etag => String
  | .countActiveWorkflowRuns _ => Option Nat
  | .cancelActiveWorkflowRuns _ => Bool
  | .hasRuns _ => Bool

abbrev store : Schema where
  Key := Key
  Row := Row
  Stmt := Stmt
  exec
    | .workflow _ => execWorkflow
    | .version _ => execVersion
  Query := Query
  Result := Result
  answer := answer
  Ask := Ask
  Answer := Answer

abbrev Service := Script store Err

abbrev query (q : Query) : Service (Result q) := @Script.read store Err .database q
abbrev ask (q : Ask) : Service (Answer q) := @Script.ask store Err q
abbrev writeRow (missing : Err) (k : Key) (stmt : Stmt k) : Service (Option (Row k)) :=
  @Script.write store Err .database missing k stmt
abbrev execRow (k : Key) (stmt : Stmt k) : Service Unit := @Script.exec store Err .database k stmt
abbrev runInTxValidate {α : Type} (validateOnly : Bool) (body : Service α) : Service α :=
  @Script.transaction store Err α .database validateOnly body

def liveVersion : Option VersionSlot → Service WorkflowVersion
  | some (.live v) => pure v
  | _ => throw .noRows

def createWorkflow (id : Id) (w : Workflow) : Service (Id × Workflow) := do
  let row ← returned (← writeRow .database (.workflow id) (.createWorkflow w))
  pure (id, row)

def getWorkflowByParent (p : GetWorkflowByParentParams) : Service (Id × Workflow) :=
  mapError handleResourceError do
    found (← query (.getWorkflowByParent p))

/- SELECT … FOR UPDATE: the row is found, then locked if it still meets the WHERE clause. -/
def lockWorkflowByParent (p : GetWorkflowByParentParams) : Service (Id × Workflow) :=
  mapError handleResourceError do
    let w ← found (← query (.getWorkflowByParent p))
    let row ← returned (← writeRow .noRows (.workflow w.1) (.getWorkflowByParentForUpdate p))
    pure (w.1, row)

def updateWorkflow (id : Id) (p : UpdateWorkflowParams) : Service Workflow := do
  let etag ← ask .etag
  returned (← writeRow .noRows (.workflow id) (.updateWorkflow p etag))

def getWorkflowVersion (id : Id) : Service (Id × WorkflowVersion) := do
  found (← query (.getWorkflowVersion id))

def getWorkflowVersionByNumber (workflowId : Id) (n : Nat) : Service (Id × WorkflowVersion) := do
  found (← query (.getWorkflowVersionByNumber workflowId n))

/- The join of the UPDATE makes sure that the version is one of the workflow's own. -/
def setWorkflowVersion (id version : Id) : Service Workflow := do
  let etag ← ask .etag
  let v ← found (← query (.versionOf id version))
  returned (← writeRow .noRows (.workflow id) (.setWorkflowVersion v.1 etag))

/- A workflow takes its versions (and its runs) with it. -/
def deleteWorkflow (id : Id) : Service Unit := do
  execRow (.workflow id) .deleteWorkflow
  let vs ← query (.versionsOfWorkflow id)
  Script.forEach (fun v => execRow (.version v) (.cascade id)) vs

def nextWorkflowVersionNumber (id : Id) : Service Nat := query (.nextWorkflowVersionNumber id)

def createWorkflowVersion (id : Id) (v : WorkflowVersion) : Service WorkflowVersion := do
  liveVersion (← writeRow .database (.version id) (.createWorkflowVersion v))

/- A version with runs stays; else the workflows that point at it lose their pointer. -/
def deleteWorkflowVersion (id : Id) : Service Unit := do
  if ← ask (.hasRuns id) then throw (.failedPrecondition "version has runs; it cannot be deleted")
  else
    execRow (.version id) .deleteWorkflowVersion
    let ws ← query (.workflowsAt id)
    Script.forEach (fun w => execRow (.workflow w) (.unsetVersion id)) ws

end Pivox.WorkflowVersions
