import Pivox.WorkflowVersions.Store

/-!
The handlers of the workflow service that write containers or versions, and the reading of a pinned
version by the run_workflow step.
-/

namespace Pivox.WorkflowVersions
open ReadCommitted
open Workflows (Origin Workflow WorkflowVersion)

/- The scope that the interceptors put on the request's context. -/
structure RequestScope where
  orgId : Id
  spaceId : Option Id

structure CreateWorkflowRequest where
  workflowId : String
  origin : Origin
  displayName : String
  description : String
  enabled : Bool
  config : Marshalled
  annotations : Marshalled
  validateOnly : Bool

def createWorkflowHandler (scope : RequestScope) (req : CreateWorkflowRequest) :
    Service (Id × Workflow) := do
  if req.workflowId = "" then throw (.invalidArgument "workflow_id")
  else if req.origin = .managed then throw (.invalidArgument "workflow.origin")
  else
    match ← ask .newId, req.config, req.annotations with
    | none, _, _ => throw (.internal "generate workflow id")
    | _, .error _, _ => throw (.invalidArgument "workflow.config")
    | _, _, .error _ => throw (.invalidArgument "workflow.annotations")
    | some id, .ok config, .ok annotations =>
      let etag ← ask .etag
      mapError handleResourceError (runInTxValidate req.validateOnly
        (createWorkflow id
          { orgId := scope.orgId, spaceId := scope.spaceId, slug := req.workflowId,
            displayName := req.displayName, description := req.description, enabled := req.enabled,
            config, origin := .owned, annotations, version := none, etag, xmax := 0 }))

/- A request's names are taken as parsed: none is a name that does not parse. -/
structure UpdateWorkflowRequest where
  slug : Option String
  updateMask : List String
  displayName : String
  description : String
  enabled : Bool
  config : Marshalled
  annotations : Marshalled
  etag : String
  validateOnly : Bool

def UpdateWorkflowRequest.inScope (req : UpdateWorkflowRequest) (field : String) : Bool :=
  req.updateMask = [] || req.updateMask.contains field

def updateWorkflowHandler (scope : RequestScope) (req : UpdateWorkflowRequest) :
    Service Workflow :=
  match req.slug with
  | none => throw .notFound
  | some slug => do
    let config ← maskedColumn "workflow.config" (req.inScope "config") req.config
    let annotations ←
      maskedColumn "workflow.annotations" (req.inScope "annotations") req.annotations
    runInTxValidate req.validateOnly do
      let existing ← lockWorkflowByParent ⟨scope.orgId, scope.spaceId, slug⟩
      checkEtag req.etag existing.2.etag
      mapError handleResourceError (updateWorkflow existing.1
        { displayName := masked (req.inScope "display_name") req.displayName
          description := masked (req.inScope "description") req.description
          enabled := masked (req.inScope "enabled") req.enabled
          config, annotations })

structure DeleteWorkflowRequest where
  slug : Option String
  etag : String
  force : Bool
  validateOnly : Bool

/- Active runs block the deletion, or are cancelled before it. -/
def stopActiveRuns (workflowId : Id) (force : Bool) : Service Unit := do
  match ← ask (.countActiveWorkflowRuns workflowId) with
  | none => throw (.internal "check active runs")
  | some active =>
    if 0 < active then
      if !force then
        throw (.failedPrecondition "workflow has active runs; cancel them or use force")
      else if ← ask (.cancelActiveWorkflowRuns workflowId) then pure ()
      else throw (.internal "cancel active runs")
    else pure ()

def deleteWorkflowHandler (scope : RequestScope) (req : DeleteWorkflowRequest) : Service Unit :=
  match req.slug with
  | none => throw .notFound
  | some slug =>
    runInTxValidate req.validateOnly do
      let existing ← lockWorkflowByParent ⟨scope.orgId, scope.spaceId, slug⟩
      checkEtag req.etag existing.2.etag
      stopActiveRuns existing.1 req.force
      deleteWorkflow existing.1

/- `sourceVersion`: none given, one that does not parse, or a workflow's slug and a number. -/
structure ForkWorkflowRequest where
  workflowId : String
  slug : Option String
  sourceVersion : Option (Option (String × Nat))
  displayName : String
  validateOnly : Bool

def resolveForkSource (src : Id × Workflow) (sourceVersion : Option (Option (String × Nat))) :
    Service (Id × WorkflowVersion) :=
  match sourceVersion with
  | some none => throw .notFound
  | some (some (slug, n)) =>
    if slug ≠ src.2.slug then throw (.invalidArgument "source_version")
    else mapError handleResourceError (getWorkflowVersionByNumber src.1 n)
  | none =>
    match src.2.version with
    | none =>
      throw (.failedPrecondition "source workflow has no promoted version; specify source_version")
    | some id =>
      mapError
        (fun
          | .noRows => .failedPrecondition
              "source workflow's promoted version is unavailable; specify source_version"
          | _ => .internal "load source version")
        (getWorkflowVersion id)

def forkWorkflow (scope : RequestScope) (req : ForkWorkflowRequest) : Service (Id × Workflow) := do
  if req.workflowId = "" then throw (.invalidArgument "workflow_id")
  else
    match req.slug with
    | none => throw .notFound
    | some srcSlug =>
      match ← ask .newId, ← ask .newId with
      | none, _ => throw (.internal "generate workflow id")
      | _, none => throw (.internal "generate version id")
      | some newId, some verId =>
        let etag ← ask .etag
        runInTxValidate req.validateOnly do
          let src ← getWorkflowByParent ⟨scope.orgId, scope.spaceId, srcSlug⟩
          let srcVer ← resolveForkSource src req.sourceVersion
          let newWf ← mapError handleResourceError (createWorkflow newId
            { orgId := scope.orgId, spaceId := scope.spaceId, slug := req.workflowId,
              displayName := req.displayName, description := "", enabled := false,
              config := src.2.config, origin := .owned, annotations := "\x7b\x7d", version := none,
              etag, xmax := 0 })
          let _ ← mapError handleResourceError (createWorkflowVersion verId
            { workflowId := newWf.1, versionNumber := 1, note := "",
              definition := srcVer.2.definition })
          pure newWf

structure PromoteWorkflowVersionRequest where
  slug : Option String
  version : Option (String × Nat)
  validateOnly : Bool

def notOfThisWorkflow (other : Err → Err) : Err → Err
  | .noRows => .failedPrecondition "version does not belong to this workflow"
  | e => other e

def promoteWorkflowVersion (scope : RequestScope) (req : PromoteWorkflowVersionRequest) :
    Service Workflow :=
  match req.slug, req.version with
  | none, _ => throw .notFound
  | _, none => throw .notFound
  | some wfSlug, some (verWfSlug, verNum) =>
    runInTxValidate req.validateOnly do
      let wf ← lockWorkflowByParent ⟨scope.orgId, scope.spaceId, wfSlug⟩
      if verWfSlug ≠ wfSlug then
        throw (.failedPrecondition "version does not belong to this workflow")
      else
        let ver ← mapError (notOfThisWorkflow fun _ => .internal "load version")
          (getWorkflowVersionByNumber wf.1 verNum)
        mapError (notOfThisWorkflow handleResourceError) (setWorkflowVersion wf.1 ver.1)

structure CreateWorkflowVersionRequest where
  slug : Option String
  hasRoot : Bool
  definition : Marshalled
  note : String
  validateOnly : Bool

def createWorkflowVersionHandler (scope : RequestScope) (req : CreateWorkflowVersionRequest) :
    Service WorkflowVersion := do
  match req.slug, req.hasRoot, req.definition with
  | none, _, _ => throw .notFound
  | _, false, _ => throw (.invalidArgument "workflow_version.root")
  | _, _, .error _ => throw (.invalidArgument "workflow_version")
  | some wfSlug, true, .ok definition =>
    match ← ask .newId with
    | none => throw (.internal "generate version id")
    | some verId =>
      runInTxValidate req.validateOnly do
        let wf ← lockWorkflowByParent ⟨scope.orgId, scope.spaceId, wfSlug⟩
        let next ← mapError (fun _ => .internal "allocate version number")
          (nextWorkflowVersionNumber wf.1)
        mapError handleResourceError (createWorkflowVersion verId
          { workflowId := wf.1, versionNumber := next, note := req.note, definition })

structure DeleteWorkflowVersionRequest where
  version : Option (String × Nat)
  validateOnly : Bool

def deleteWorkflowVersionHandler (scope : RequestScope) (req : DeleteWorkflowVersionRequest) :
    Service Unit :=
  match req.version with
  | none => throw .notFound
  | some (wfSlug, verNum) =>
    runInTxValidate req.validateOnly do
      let wf ← lockWorkflowByParent ⟨scope.orgId, scope.spaceId, wfSlug⟩
      let ver ← mapError handleResourceError (getWorkflowVersionByNumber wf.1 verNum)
      if wf.2.version = some ver.1 then
        throw (.failedPrecondition
          "version is the workflow's promoted version; promote another first")
      else deleteWorkflowVersion ver.1

inductive Op where
  | createWorkflow (scope : RequestScope) (req : CreateWorkflowRequest)
  | updateWorkflow (scope : RequestScope) (req : UpdateWorkflowRequest)
  | deleteWorkflow (scope : RequestScope) (req : DeleteWorkflowRequest)
  | forkWorkflow (scope : RequestScope) (req : ForkWorkflowRequest)
  | promoteWorkflowVersion (scope : RequestScope) (req : PromoteWorkflowVersionRequest)
  | createWorkflowVersion (scope : RequestScope) (req : CreateWorkflowVersionRequest)
  | deleteWorkflowVersion (scope : RequestScope) (req : DeleteWorkflowVersionRequest)

def code : Op → Prog store
  | .createWorkflow scope req => (createWorkflowHandler scope req).run
  | .updateWorkflow scope req => (updateWorkflowHandler scope req).run
  | .deleteWorkflow scope req => (deleteWorkflowHandler scope req).run
  | .forkWorkflow scope req => (forkWorkflow scope req).run
  | .promoteWorkflowVersion scope req => (promoteWorkflowVersion scope req).run
  | .createWorkflowVersion scope req => (createWorkflowVersionHandler scope req).run
  | .deleteWorkflowVersion scope req => (deleteWorkflowVersionHandler scope req).run

/- `decode` is none for a corrupt definition, and some none for one without a root sequence. -/
def targetFromVersion {δ : Type} (decode : Json → Option (Option δ)) (wfId : Id)
    (ver : WorkflowVersion) : Except Err (Id × δ) :=
  match decode ver.definition with
  | none => .error (.terminalDefinition "has a corrupt definition")
  | some none => .error (.terminalDefinition "version has no root sequence")
  | some (some definition) => .ok (wfId, definition)

/-- The pinned branch of resolveTarget: its two reads are statements of their own, so the version is
read from later rows than the workflow. A statement that fails sees none. -/
def resolveTarget {δ : Type} (decode : Json → Option (Option δ)) (scope : RequestScope)
    (wfSlug : String) (versionNumber : Nat) (rows laterRows : Option (Db store)) :
    Except Err (Id × δ) :=
  match rows with
  | none => .error .retryable
  | some rows =>
    match answer (.getWorkflowByParent ⟨scope.orgId, scope.spaceId, wfSlug⟩) rows with
    | none => .error .notFound
    | some wf =>
      match laterRows with
      | none => .error .retryable
      | some laterRows =>
        match answer (.getWorkflowVersionByNumber wf.1 versionNumber) laterRows with
        | none => .error .notFound
        | some ver => targetFromVersion decode wf.1 ver.2

end Pivox.WorkflowVersions
