import Pivox.WorkflowVersions.Outlines

/-!
Each operation keeps the contract: its transaction locks the workflow before it writes the pointer
or a version, and a fork writes only what it creates.
-/

namespace Pivox.WorkflowVersions
open ReadCommitted
open Workflows (Workflow)

variable {numbers : Bool} {J P : Assertion (contract numbers)} {α : Type}

/- Before its transaction an operation has written nothing. -/
def ready (numbers : Bool) : Assertion (contract numbers) := (pends numbers).and .unwritten

theorem between_runInTx {validateOnly : Bool} {body : Service α}
    (hbody : Outline (pends numbers) .unwritten body fun _ => .top) :
    Between (ready numbers) (runInTxValidate validateOnly body) fun _ => .top := by
  refine Between.validated (hbody.conseq (fun _ _ _ _ _ h => h.2) fun _ _ _ _ _ _ h => h)
    (fun _ _ h => h.1) fun a own log db hinv hpends _ hfit => ?_
  exact ⟨⟨⟨hpends.held.loc, fun h => hpends.numbered (hinv.2 h) (hfit h)⟩, hpends.held.grows⟩,
    hpends.createsAbove⟩

theorem safe_operation {m : Service α} (h : Between (ready numbers) m fun _ => .top) {op : Op}
    {db : Db store} (hdb : (contract numbers).Inv db) :
    Safe (contract numbers) m.run .idle ∅ (.start op) db := by
  have hempty : guarded.Held ∅ db := Guarded.held_empty hdb.1
  refine h.run ⟨⟨hempty, ?_, ?_, ?_⟩, rfl⟩
  · exact fun _ _ h => by simp at h
  · exact fun _ _ _ _ h => by simp at h
  · exact fun _ _ h => by simp at h

theorem outline_stopActiveRuns (workflowId : Id) (force : Bool) :
    Outline J P (stopActiveRuns workflowId force) fun _ => P := by
  refine outline_ask.bind fun active => ?_
  cases active with
  | none => exact .throw _
  | some active =>
    change Outline J P (if 0 < (show Nat from active) then _ else _) _
    split_ifs
    · exact .throw _
    · refine outline_ask.bind fun cancelled => ?_
      split_ifs
      · exact .ret ()
      · exact .throw _
    · exact .ret ()

theorem outline_resolveForkSource (src : Id × Workflow)
    (sourceVersion : Option (Option (String × Nat))) :
    Outline J P (resolveForkSource src sourceVersion) fun _ => P := by
  obtain _ | _ | ⟨slug, n⟩ := sourceVersion
  · unfold resolveForkSource
    cases src.2.version with
    | none => exact .throw _
    | some id => exact outline_mapError _ (outline_look.bind fun _ => outline_seen)
  · exact .throw _
  · unfold resolveForkSource
    dsimp only
    split_ifs
    · exact .throw _
    · exact outline_mapError _ (outline_look.bind fun _ => outline_seen)

theorem between_createWorkflow (scope : RequestScope) (req : CreateWorkflowRequest) :
    Between (ready numbers) (createWorkflowHandler scope req) fun _ => .top := by
  unfold createWorkflowHandler
  split_ifs
  · exact .throw _
  · exact .throw _
  · refine between_ask.bind fun newId => ?_
    split
    · exact .throw _
    · exact .throw _
    · exact .throw _
    · refine between_ask.bind fun etag => between_mapError _ (between_runInTx ?_)
      exact (outline_createWorkflow rfl).conseq (fun _ _ _ _ _ h => h) fun _ _ _ _ _ _ _ => trivial

theorem between_updateWorkflow (scope : RequestScope) (req : UpdateWorkflowRequest) :
    Between (ready numbers) (updateWorkflowHandler scope req) fun _ => .top := by
  unfold updateWorkflowHandler
  cases req.slug with
  | none => exact .throw _
  | some slug =>
    refine (between_maskedColumn _ _ _).bind fun config =>
      (between_maskedColumn _ _ _).bind fun annotations => between_runInTx ?_
    refine (outline_lockWorkflowByParent _).bind fun existing =>
      (outline_checkEtag _ _).bind fun _ => ?_
    exact outline_mapError _ (outline_updateWorkflow _)

theorem between_deleteWorkflow (scope : RequestScope) (req : DeleteWorkflowRequest) :
    Between (ready numbers) (deleteWorkflowHandler scope req) fun _ => .top := by
  unfold deleteWorkflowHandler
  cases req.slug with
  | none => exact .throw _
  | some slug =>
    refine between_runInTx ((outline_lockWorkflowByParent _).bind fun existing =>
      (outline_checkEtag _ _).bind fun _ => (outline_stopActiveRuns _ _).bind fun _ => ?_)
    exact outline_deleteWorkflow

theorem between_forkWorkflow (scope : RequestScope) (req : ForkWorkflowRequest) :
    Between (ready numbers) (forkWorkflow scope req) fun _ => .top := by
  unfold forkWorkflow
  split_ifs
  · exact .throw _
  · cases req.slug with
    | none => exact .throw _
    | some srcSlug =>
      refine between_ask.bind fun newId => between_ask.bind fun verId => ?_
      split
      · exact .throw _
      · exact .throw _
      · refine between_ask.bind fun etag => between_runInTx ?_
        have hread : Outline (pends numbers) .unwritten
            (getWorkflowByParent ⟨scope.orgId, scope.spaceId, srcSlug⟩) fun _ => .unwritten :=
          outline_mapError _ (outline_look.bind fun _ => outline_seen)
        refine hread.bind fun src => (outline_resolveForkSource _ _).bind fun srcVer => ?_
        refine (outline_mapError _ (outline_createWorkflow rfl)).bind fun newWf => ?_
        exact (outline_mapError _ (outline_createWorkflowVersion)).bind fun _ => .ret _

theorem between_promoteWorkflowVersion (scope : RequestScope)
    (req : PromoteWorkflowVersionRequest) :
    Between (ready numbers) (promoteWorkflowVersion scope req) fun _ => .top := by
  unfold promoteWorkflowVersion
  split
  · exact .throw _
  · exact .throw _
  · refine between_runInTx ((outline_lockWorkflowByParent _).bind fun wf => ?_)
    split_ifs
    · exact .throw _
    · refine (outline_mapError _ (outline_getWorkflowVersionByNumber _)).bind fun ver => ?_
      refine outline_mapError _ (outline_setWorkflowVersion.conseq ?_ fun _ _ _ _ _ _ h => h)
      exact fun _ _ _ _ _ h => h.1

theorem between_createWorkflowVersion (scope : RequestScope) (req : CreateWorkflowVersionRequest) :
    Between (ready numbers) (createWorkflowVersionHandler scope req) fun _ => .top := by
  unfold createWorkflowVersionHandler
  split
  · exact .throw _
  · exact .throw _
  · exact .throw _
  · refine between_ask.bind fun verId => ?_
    cases verId with
    | none => exact .throw _
    | some verId =>
      refine between_runInTx ((outline_lockWorkflowByParent _).bind fun wf => ?_)
      refine (outline_mapError _ outline_nextWorkflowVersionNumber).bind fun next => ?_
      exact outline_mapError _ (outline_createWorkflowVersion)

theorem between_deleteWorkflowVersion (scope : RequestScope) (req : DeleteWorkflowVersionRequest) :
    Between (ready numbers) (deleteWorkflowVersionHandler scope req) fun _ => .top := by
  unfold deleteWorkflowVersionHandler
  split
  · exact .throw _
  · refine between_runInTx ((outline_lockWorkflowByParent _).bind fun wf => ?_)
    refine (outline_mapError _ (outline_getWorkflowVersionByNumber _)).bind fun ver => ?_
    split_ifs with hpointer
    · exact .throw _
    · exact outline_deleteWorkflowVersion hpointer

/-- Every operation keeps the contract, with the numbers or without. -/
theorem contract_safe (op : Op) (db : Db store) (hdb : (contract numbers).Inv db) :
    Safe (contract numbers) (code op) .idle ∅ (.start op) db := by
  cases op with
  | createWorkflow scope req => exact safe_operation (between_createWorkflow scope req) hdb
  | updateWorkflow scope req => exact safe_operation (between_updateWorkflow scope req) hdb
  | deleteWorkflow scope req => exact safe_operation (between_deleteWorkflow scope req) hdb
  | forkWorkflow scope req => exact safe_operation (between_forkWorkflow scope req) hdb
  | promoteWorkflowVersion scope req =>
    exact safe_operation (between_promoteWorkflowVersion scope req) hdb
  | createWorkflowVersion scope req =>
    exact safe_operation (between_createWorkflowVersion scope req) hdb
  | deleteWorkflowVersion scope req =>
    exact safe_operation (between_deleteWorkflowVersion scope req) hdb

end Pivox.WorkflowVersions
