import Pivox.Workflows.RunPrograms

/-!
A workflow run that has reached a terminal state keeps its row, whoever writes next.
-/

namespace Pivox.Workflows
open ReadCommitted Transition

/-- How the writers of a run may change its row. -/
structure RunChange (old new : Option (Slot WorkflowRun)) : Prop where
  terminal : ∀ run, old = some (.live run) → isTerminalState run.state = true →
    new = some (.live run) ∨ new = some .gone
  startTime : ∀ run run' t, old = some (.live run) → new = some (.live run') →
    run.startTime = some t → run'.startTime = some t
  gone : old = some .gone → new = some .gone
  used : old ≠ none → new ≠ none

theorem RunChange.refl (old : Option (Slot WorkflowRun)) : RunChange old old where
  terminal _ h _ := .inl h
  startTime _ _ _ h h' hs := by
    rw [h] at h'
    cases h'
    exact hs
  gone h := h
  used h := h

theorem RunChange.trans {a b c : Option (Slot WorkflowRun)} (h : RunChange a b)
    (h' : RunChange b c) : RunChange a c where
  terminal run ha ht := by
    obtain hb | hb := h.terminal run ha ht
    · exact h'.terminal run hb ht
    · exact .inr (h'.gone hb)
  startTime run run' t ha hc hs := by
    cases b with
    | none => exact absurd rfl (h.used (by simp [ha]))
    | some slot =>
      cases slot with
      | gone => simp [h'.gone rfl] at hc
      | live mid => exact h'.startTime mid run' t rfl hc (h.startTime run mid t ha rfl hs)
  gone ha := h'.gone (h.gone ha)
  used ha := h'.used (h.used ha)

theorem RunChange.create (run : WorkflowRun) : RunChange none (some (.live run)) where
  terminal _ h := by cases h
  startTime _ _ _ h := by cases h
  gone h := by cases h
  used _ := by simp

theorem RunChange.delete (run : WorkflowRun) : RunChange (some (.live run)) (some .gone) where
  terminal _ _ _ := .inr rfl
  startTime _ _ _ _ h := by cases h
  gone _ := rfl
  used _ := by simp

theorem RunChange.update {run run' : WorkflowRun} (hactive : isTerminalState run.state = false)
    (hstart : ∀ t, run.startTime = some t → run'.startTime = some t) :
    RunChange (some (.live run)) (some (.live run')) where
  terminal _ h ht := by
    cases h
    simp [hactive] at ht
  startTime _ _ t h h' ht := by
    cases h
    cases h'
    exact hstart t ht
  gone h := by cases h
  used _ := by simp

/- A run that has not started carries no start time: begin may stamp it. -/
def GoodRun (row : Option (Slot WorkflowRun)) : Prop :=
  ∀ run, row = some (.live run) → run.state = .pending → run.startTime = none

theorem goodRun_live {run : WorkflowRun} :
    GoodRun (some (.live run)) ↔ (run.state = .pending → run.startTime = none) := by
  simp [GoodRun]

theorem goodRun_gone : GoodRun (some .gone) := by
  simp [GoodRun]

def runContract : Rowwise store Op where
  good
    | .run _, row => GoodRun row
    | _, _ => True
  change
    | _, .run _, old, new => RunChange old new
    | _, _, _, _ => True
  stays
    | .run _, old, new => RunChange old new
    | _, _, _ => True
  allow _ _ _ := True
  accept _ _ _ := True
  change_refl
    | _, .run _, _ => .refl _
    | _, .workflow _, _ => trivial
    | _, .version _, _ => trivial
  change_trans
    | _, .run _, _, _, _ => .trans
    | _, .workflow _, _, _, _ => fun _ _ => trivial
    | _, .version _, _, _, _ => fun _ _ => trivial
  change_mono
    | _, _, .run _, _, _, _ => id
    | _, _, .workflow _, _, _, _ => id
    | _, _, .version _, _, _, _ => id
  stays_refl
    | .run _, _ => .refl _
    | .workflow _, _ => trivial
    | .version _, _ => trivial
  stays_trans
    | .run _, _, _, _ => .trans
    | .workflow _, _, _, _ => fun _ _ => trivial
    | .version _, _, _, _ => fun _ _ => trivial
  stays_of_change
    | _, .run _, _, _ => id
    | _, .workflow _, _, _ => id
    | _, .version _, _, _ => id

variable {op : Op} {log : Log store Op} {own : Pending store} {α : Type}

theorem safe_getWorkflowRunForUpdate {id : Id} {k : Except Err WorkflowRun → Prog store}
    (hfail : runContract.Safe (k (.error .database)) .aborted ∅ log)
    (hmiss : runContract.Safe (k (.error .noRows)) .active own log)
    (hrow : ∀ run, GoodRun (some (.live run)) →
      runContract.Safe (k (.ok run)) .active (own.insert (.run id) (some (.live run))) log) :
    runContract.Safe (getWorkflowRunForUpdate id k) .active own log := by
  refine Rowwise.safe_bind (Rowwise.safe_write hfail hmiss fun cur new hgood _ hx _ => ?_)
  obtain _ | run | _ := cur
  · cases hx
  · cases hx
    exact ⟨hgood, .refl _, hrow run hgood⟩
  · cases hx

theorem safe_updateWorkflowRunState {id : Id} {p : UpdateWorkflowRunStateParams}
    {run : WorkflowRun} {k : Except Err WorkflowRun → Prog store}
    (hlock : own.lookup (.run id) = some (some (.live run)))
    (hactive : isTerminalState run.state = false) (hstate : p.state ≠ .pending)
    (hstart : ∀ t, run.startTime = some t → p.startTime = none)
    (hk : ∀ r mode own, runContract.Safe (k r) mode own log) :
    runContract.Safe (updateWorkflowRunState id p k) .active own log := by
  refine Rowwise.safe_bind (Rowwise.safe_write (hk _ _ _) (hk _ _ _) fun cur new _ hcur hx _ => ?_)
  rw [hcur _ hlock] at hx ⊢
  cases hx
  refine ⟨goodRun_live.mpr fun hp => absurd hp hstate, .update hactive fun t ht => ?_, hk _ _ _⟩
  simp [UpdateWorkflowRunStateParams.apply, hstart t ht, ht]

theorem kept_finalizeRun (runId : Id) (state : RunState) (output steps errJSON : Option Json)
    (hstate : state ≠ .pending) :
    runContract.KeptBy op (finalizeRun runId state output steps errJSON) := by
  refine Rowwise.kept_transaction fun log k _ hk => ?_
  refine Rowwise.safe_bind (Rowwise.safe_attempt (safe_getWorkflowRunForUpdate ?_ ?_ ?_))
  · exact hk _ _ _
  · exact hk _ _ _
  · intro run hgood
    cases ht : isTerminalState run.state with
    | true =>
      simp only [ht]
      exact hk _ _ _
    | false =>
      simp only [ht]
      refine Rowwise.safe_bind (Rowwise.safe_ask fun now => ?_)
      refine Rowwise.safe_bind (safe_updateWorkflowRunState (AList.lookup_insert _) ht hstate
        (fun _ _ => rfl) fun r mode own => ?_)
      cases r with
      | ok _ => exact (hk _ _ _).log_subset (log.extends_add _)
      | error _ => exact (hk _ _ _).log_subset (log.extends_add _)

theorem kept_begin (runId : Id) : runContract.KeptBy op (begin runId) := by
  refine Rowwise.kept_transaction fun log k _ hk => ?_
  refine Rowwise.safe_bind (Rowwise.safe_attempt (safe_getWorkflowRunForUpdate ?_ ?_ ?_))
  · exact hk _ _ _
  · exact hk _ _ _
  · intro run hgood
    cases ht : isTerminalState run.state with
    | true =>
      simp only [ht]
      exact hk _ _ _
    | false =>
      have hupdate : ∀ (startTime : Option Time) (log' : Log store Op), log'.Extends log →
          (∀ t, run.startTime = some t → startTime = none) →
          runContract.Safe ((do
            let updated ← updateWorkflowRunState runId
              { state := .running, output := none, steps := none, error := none, startTime,
                endTime := none }
            pure ⟨some updated, true⟩ : Service BeginResult) k) .active
            ((∅ : Pending store).insert (.run runId) (some (.live run))) log' := by
        intro startTime log' hlog hstart
        refine Rowwise.safe_bind (safe_updateWorkflowRunState (AList.lookup_insert _) ht nofun
          hstart fun r mode own => ?_)
        cases r with
        | ok _ => exact (hk _ _ _).log_subset hlog
        | error _ => exact (hk _ _ _).log_subset hlog
      simp only [ht]
      refine Rowwise.safe_bind ?_
      by_cases hp : run.state = .pending
      · simp only [startTimeOf, hp]
        have hnone := goodRun_live.mp hgood hp
        exact fun _ _ now _ => hupdate (some now) _ (log.extends_add _)
          fun t h => by simp [hnone] at h
      · simp only [startTimeOf, hp]
        exact hupdate none log (.refl log) fun _ _ => rfl

theorem lawful_createWorkflowRun {id : Id} {run : WorkflowRun} (h : run.startTime = none) :
    runContract.Lawful op (.run id) (.createWorkflowRun run) := by
  intro cur new _ hx _
  cases cur with
  | some _ => cases hx
  | none =>
    cases hx
    exact ⟨goodRun_live.mpr fun _ => h, fun _ _ => .create run⟩

theorem lawful_updateWorkflowRunSteps (id : Id) (steps : Json) :
    runContract.Lawful op (.run id) (.updateWorkflowRunSteps steps) := by
  intro cur new hgood hx _
  obtain _ | run | _ := cur
  · cases hx
  · change (if run.state = .running then _ else _) = some new at hx
    split at hx
    · rename_i hr
      cases hx
      exact ⟨goodRun_live.mpr fun hp => by simp [hr] at hp,
        fun _ _ => .update (by simp [hr, isTerminalState]) fun _ ht => ht⟩
    · cases hx
  · cases hx

theorem not_terminal_of_active {state : RunState} (h : isActiveState state = true) :
    isTerminalState state = false := by
  cases state <;> simp_all [isActiveState, isTerminalState]

theorem lawful_cancelActiveWorkflowRuns (id workflowId : Id) (now : Time) :
    runContract.Lawful op (.run id) (.cancelActiveWorkflowRuns workflowId now) := by
  intro cur new hgood hx _
  obtain _ | run | _ := cur
  · cases hx
  · change (if _ then _ else _) = some new at hx
    split at hx
    · rename_i hr
      cases hx
      exact ⟨goodRun_live.mpr nofun, fun _ _ =>
        .update (not_terminal_of_active (by simpa using (Bool.and_eq_true _ _ ▸ hr).2)) fun _ ht => ht⟩
    · cases hx
  · cases hx

theorem lawful_cascade (id workflowId : Id) :
    runContract.Lawful op (.run id) (.cascade workflowId) := by
  intro cur new hgood hx _
  obtain _ | run | _ := cur
  · cases hx
  · change (if _ then _ else _) = some new at hx
    split at hx
    · cases hx
      exact ⟨goodRun_gone, fun _ _ => .delete run⟩
    · cases hx
  · cases hx

theorem lawful_workflow (id : Id) (stmt : WorkflowStmt) :
    runContract.Lawful op (.workflow id) stmt :=
  fun _ _ _ _ _ => ⟨trivial, fun _ _ => trivial⟩

theorem lawful_version (id : Id) (stmt : VersionStmt) : runContract.Lawful op (.version id) stmt :=
  fun _ _ _ _ _ => ⟨trivial, fun _ _ => trivial⟩

theorem kept_query (q : Query) : runContract.KeptBy op (query q) :=
  @Rowwise.kept_read store Op Err runContract .database op q

theorem kept_query_found {β : Type} (q : Query) (f : Result q → Option β) :
    runContract.KeptBy op (do found (f (← query q))) :=
  (kept_query q).bind fun row => kept_found (f row)

theorem kept_getWorkflowByParent (p : GetWorkflowByParentParams) :
    runContract.KeptBy op (getWorkflowByParent p) :=
  kept_mapError _ (kept_query_found (.getWorkflowByParent p) id)

theorem kept_lockWorkflowByParent (p : GetWorkflowByParentParams) :
    runContract.KeptBy op (lockWorkflowByParent p) :=
  kept_mapError _ ((kept_query_found (.getWorkflowByParent p) id).bind fun w =>
    (Rowwise.kept_write (lawful_workflow w.1 _)).bind fun _ => (kept_returned _).bind fun _ =>
      Rowwise.kept_pure _)

theorem kept_resolveRunVersion (wf : Id × Workflow) (reqVersion : Option (Option (String × Nat))) :
    runContract.KeptBy op (resolveRunVersion wf reqVersion) := by
  obtain _ | _ | ⟨slug, n⟩ := reqVersion
  · cases h : wf.2.version with
    | none =>
      simp only [resolveRunVersion, h]
      exact Rowwise.kept_throw _
    | some id =>
      simp only [resolveRunVersion, h]
      exact kept_mapError _ (kept_query_found (.getWorkflowVersion id) fun v => v)
  · exact Rowwise.kept_throw _
  · simp only [resolveRunVersion]
    split
    · exact Rowwise.kept_throw _
    · exact kept_mapError _ (kept_query_found (.getWorkflowVersionByNumber wf.1 n) fun v => v)

theorem kept_runWorkflow (scope : RequestScope) (req : RunWorkflowRequest) :
    runContract.KeptBy op (runWorkflow scope req) := by
  unfold runWorkflow
  split
  · exact Rowwise.kept_throw _
  · exact Rowwise.kept_throw _
  · refine (Rowwise.kept_ask _).bind fun id => ?_
    cases id with
    | none => exact Rowwise.kept_throw _
    | some runId =>
      refine Rowwise.kept_transaction (Rowwise.KeptBy.body ?_)
      refine (kept_getWorkflowByParent _).bind fun wf =>
        (kept_resolveRunVersion wf req.version).bind fun ver => ?_
      refine Rowwise.KeptBy.bind ?_ fun created => (Rowwise.kept_ask _).bind fun queued => ?_
      · exact (Rowwise.kept_write (lawful_createWorkflowRun rfl)).bind fun _ => kept_returned _
      · cases queued with
        | true => exact Rowwise.kept_pure created
        | false => exact Rowwise.kept_throw _

theorem kept_finalizeRunFailed (runId : Id) (steps : Option Json) (cause : String) :
    runContract.KeptBy op (finalizeRunFailed runId steps cause) :=
  (Rowwise.kept_ask _).bind fun errJSON =>
    kept_finalizeRun runId .failed none steps errJSON (by decide)

theorem kept_finalizeFailed (runId : Id) (steps : Option Json) (cause : String) :
    runContract.KeptBy op (finalizeFailed runId steps cause) :=
  (kept_finalizeRunFailed runId steps cause).bind fun _ => Rowwise.kept_pure ()

theorem kept_finalizeSucceeded (runId : Id) (output steps : Option Json) :
    runContract.KeptBy op (finalizeSucceeded runId output steps) :=
  (kept_finalizeRun runId .succeeded output steps none (by decide)).bind
    fun _ => Rowwise.kept_pure ()

theorem kept_checkpoint (runId : Id) (payload : Json) :
    runContract.KeptBy op (checkpoint runId payload) :=
  (Rowwise.kept_exec (lawful_updateWorkflowRunSteps runId payload)).attempt.bind
    fun _ => Rowwise.kept_pure ()

theorem kept_loadDefinition (versionId : Id) : runContract.KeptBy op (loadDefinition versionId) := by
  refine (kept_mapError _ (kept_query_found (.getWorkflowVersion versionId) id)).bind fun ver =>
    (Rowwise.kept_ask _).bind fun loads => ?_
  cases loads with
  | true => exact Rowwise.kept_pure _
  | false => exact Rowwise.kept_throw _

theorem kept_execute (run : WorkflowRun) : runContract.KeptBy op (execute run) := by
  refine (kept_loadDefinition run.versionId).attempt.bind fun loaded => ?_
  split
  · exact kept_finalizeFailed _ _ _
  · exact Rowwise.kept_throw _
  · refine ((kept_query_found (.getWorkflow run.workflowId) id).bind
      fun wf => Rowwise.kept_pure _).bind fun ⟨orgId, spaceId⟩ => ?_
    refine (Rowwise.kept_ask _).bind fun decodes => ?_
    cases decodes with
    | false => exact kept_finalizeFailed _ _ _
    | true =>
      refine (Rowwise.kept_ask _).bind fun ⟨checkpoints, result⟩ =>
        (Rowwise.kept_forEach (kept_checkpoint run.id) checkpoints).bind fun _ => ?_
      cases result with
      | retryable => exact Rowwise.kept_throw _
      | completed output steps => exact kept_finalizeSucceeded _ _ _
      | failed cause steps => exact kept_finalizeFailed _ _ _
      | cancelled => exact Rowwise.kept_throw _

theorem kept_work (runId : Id) : runContract.KeptBy op (work runId) := by
  refine (kept_begin runId).bind fun res => ?_
  split
  · exact kept_execute _
  · exact Rowwise.kept_pure ()

theorem kept_finalizeIfExhausted (job : Job) (cause : String) :
    runContract.KeptBy op (finalizeIfExhausted job cause) := by
  unfold finalizeIfExhausted
  split
  · exact Rowwise.kept_pure ()
  · split
    · exact Rowwise.kept_pure ()
    · split
      · exact Rowwise.kept_pure ()
      · exact (kept_finalizeRunFailed _ _ _).attempt.bind fun _ => Rowwise.kept_pure ()

theorem kept_reapOne (runId : Option Id) : runContract.KeptBy op (reapOne runId) := by
  cases runId with
  | none => exact Rowwise.kept_pure ()
  | some runId =>
    exact (kept_finalizeRunFailed _ _ _).attempt.bind fun _ => Rowwise.kept_pure ()

theorem kept_reapPages (remaining : Nat) (cursor : Option Nat) :
    runContract.KeptBy op (reapPages remaining cursor) := by
  induction remaining using Nat.strong_induction_on generalizing cursor with
  | _ remaining ih =>
    rw [reapPages]
    split
    · exact Rowwise.kept_pure ()
    · rename_i hcap
      refine (Rowwise.kept_ask _).bind fun page => ?_
      cases page with
      | none => exact Rowwise.kept_throw _
      | some page =>
        refine (Rowwise.kept_forEach kept_reapOne page.jobs).bind fun _ => ?_
        split
        · exact Rowwise.kept_pure ()
        · rename_i hshort
          refine ih _ ?_ _
          simp only [reapStrandedRunsPageSize] at hshort
          omega

theorem safe_getWorkflowByParent {p : GetWorkflowByParentParams} {mode : Mode}
    {k : Except Err (Id × Workflow) → Prog store}
    (herr : ∀ e mode own, runContract.Safe (k (.error e)) mode own log)
    (hok : ∀ wf, runContract.Safe (k (.ok wf)) mode own log) :
    runContract.Safe (getWorkflowByParent p k) mode own log := by
  refine safe_mapError (Rowwise.safe_bind (Rowwise.safe_read (herr _ _ _) fun db _ => ?_))
  generalize store.answer (Query.getWorkflowByParent p) (overlay own db) = row
  cases row with
  | none => exact (herr _ _ _).log_subset (log.extends_add _)
  | some wf => exact (hok wf).log_subset (log.extends_add _)

theorem kept_cancelWorkflowRun (scope : RequestScope) (name : Option (String × Id)) :
    runContract.KeptBy op (cancelWorkflowRun scope name) := by
  cases name with
  | none => exact Rowwise.kept_throw _
  | some name =>
    obtain ⟨slug, runId⟩ := name
    refine Rowwise.kept_transaction fun log k _ hk => ?_
    refine Rowwise.safe_bind (safe_getWorkflowByParent (fun e mode own => hk _ _ _) fun wf => ?_)
    refine Rowwise.safe_bind (safe_mapError
      (safe_getWorkflowRunForUpdate (hk _ _ _) (hk _ _ _) fun run hgood => ?_))
    dsimp only
    by_cases hwf : run.workflowId ≠ wf.1
    · rw [if_pos hwf]
      exact hk _ _ _
    · rw [if_neg hwf]
      cases ht : isTerminalState run.state with
      | true => exact hk _ _ _
      | false =>
        refine Rowwise.safe_bind (Rowwise.safe_ask fun now => ?_)
        refine safe_mapError (safe_updateWorkflowRunState (AList.lookup_insert _) ht nofun
          (fun _ _ => rfl) fun r mode own => ?_)
        cases r with
        | ok _ => exact (hk _ _ _).log_subset (log.extends_add _)
        | error _ => exact (hk _ _ _).log_subset (log.extends_add _)

theorem kept_cancelActiveWorkflowRuns (workflowId : Id) :
    runContract.KeptBy op (cancelActiveWorkflowRuns workflowId) :=
  (Rowwise.kept_ask _).bind fun now => (kept_query _).bind fun ids =>
    Rowwise.kept_forEach
      (fun id => Rowwise.kept_exec (lawful_cancelActiveWorkflowRuns id workflowId now)) ids

theorem kept_deleteWorkflowRow (workflowId : Id) :
    runContract.KeptBy op (deleteWorkflowRow workflowId) := by
  refine (Rowwise.kept_exec (lawful_workflow workflowId _)).bind fun _ => ?_
  refine (kept_query _).bind fun ids => Rowwise.KeptBy.bind ?_ fun _ => ?_
  · exact Rowwise.kept_forEach (fun id => Rowwise.kept_exec (lawful_cascade id workflowId)) ids
  · exact (kept_query _).bind fun ids =>
      Rowwise.kept_forEach (fun id => Rowwise.kept_exec (lawful_version id _)) ids

theorem kept_deleteWorkflow (scope : RequestScope) (req : DeleteWorkflowRequest) :
    runContract.KeptBy op (deleteWorkflow scope req) := by
  unfold deleteWorkflow
  split
  · exact Rowwise.kept_throw _
  · refine Rowwise.kept_transaction (Rowwise.KeptBy.body ?_)
    refine (kept_lockWorkflowByParent _).bind fun existing => ?_
    split
    · exact Rowwise.kept_throw _
    · refine (kept_query _).bind fun active => ?_
      split
      · split
        · exact (kept_cancelActiveWorkflowRuns _).bind fun _ => kept_deleteWorkflowRow _
        · exact Rowwise.kept_throw _
      · exact kept_deleteWorkflowRow _

theorem keeps_code : runContract.Keeps code := by
  intro op db _
  cases op with
  | runWorkflow scope req => exact (kept_runWorkflow scope req).run _
  | work runId => exact (kept_work runId).run _
  | handleError job cause => exact (kept_finalizeIfExhausted job cause).run _
  | reapStrandedRuns maxPerTick => exact (kept_reapPages _ none).run _
  | cancelWorkflowRun scope name => exact (kept_cancelWorkflowRun scope name).run _
  | deleteWorkflow scope req => exact (kept_deleteWorkflow scope req).run _

/- The runs of the service: any operations, redelivered or not, interleaved in any way, with
   statements that fail, transactions that are retried and processes that die. -/
abbrev Reaches (st st' : State store Op) : Prop := Runs (step code) (fun _ _ => True) st st'

theorem goodRuns {db : Db store} (hnew : ∀ id, db.lookup (Key.run id) = none) :
    runContract.Good db := by
  intro k
  cases k with
  | run id =>
    rw [hnew id]
    exact fun _ h => by cases h
  | workflow id => trivial
  | version id => trivial

theorem runs_change {db : Db store} (hnew : ∀ id, db.lookup (Key.run id) = none)
    {st st' : State store Op} (h : Reaches (.rest db) st) (h' : Reaches st st') (id : Id) :
    RunChange (st.db.lookup (Key.run id)) (st'.db.lookup (Key.run id)) :=
  Rowwise.stays_of_runs (goodRuns hnew) keeps_code (fun _ _ _ =>
    ⟨fun _ _ _ _ _ _ _ _ _ _ => trivial, fun _ _ _ _ => trivial⟩) h h' (Key.run id)

/-- A run that is terminal in one state of the service has the same state, output, error, end time
and steps in every later one, and a start time, once written, stays. -/
theorem run_terminally_stable {db : Db store} (hnew : ∀ id, db.lookup (Key.run id) = none)
    {st st' : State store Op} (h : Reaches (.rest db) st) (h' : Reaches st st') {id : Id}
    {run run' : WorkflowRun} (hrun : st.db.lookup (Key.run id) = some (.live run))
    (hrun' : st'.db.lookup (Key.run id) = some (.live run')) :
    (isTerminalState run.state = true → run'.state = run.state ∧ run'.output = run.output ∧
      run'.error = run.error ∧ run'.endTime = run.endTime ∧ run'.steps = run.steps) ∧
    ∀ t, run.startTime = some t → run'.startTime = some t := by
  have hchange : RunChange (st.db.lookup (Key.run id)) (st'.db.lookup (Key.run id)) :=
    runs_change hnew h h' id
  rw [hrun, hrun'] at hchange
  refine ⟨fun ht => ?_, fun t => hchange.startTime run run' t rfl rfl⟩
  obtain heq | heq := hchange.terminal run rfl ht
  · cases heq
    exact ⟨rfl, rfl, rfl, rfl, rfl⟩
  · cases heq

/- A run is created and started, and cancelled while the interpreter is at work on it; then the
   interpreter ends, and the worker checkpoints and finalizes. -/
def promotedWorkflow : Db store :=
  ((∅ : Db store).insert (Key.workflow 1)
    (.live ⟨10, none, "w", "", "", true, "", .owned, "", some 2, "e", 0⟩)).insert
    (Key.version 2) (.live ⟨1, 1, "", "d"⟩)

def cancelledRun : WorkflowRun :=
  { id := 7, workflowId := 1, orgId := 10, spaceId := none, versionId := 2, state := .cancelled,
    trigger := manualTrigger, subject := "s", input := none, output := none, steps := "[]",
    error := none, triggeredBy := some 5, startTime := some 50, endTime := some 100 }

def cancelTrace : List (Label store Op) :=
  [.spawn (.runWorkflow ⟨10, none, 5⟩ ⟨some "w", none, "s", .ok none, false⟩),
   .told 0 Ask.newId (some 7), .run 0, .run 0, .run 0, .run 0, .told 0 (Ask.insertJob 7) true,
   .run 0, .spawn (.work 7), .run 1, .run 1, .told 1 Ask.now (50 : Nat), .run 1, .run 1, .run 1,
   .told 1 (Ask.loadsRoot "d") true, .run 1, .told 1 (Ask.decodesContext manualTrigger none) true,
   .spawn (.cancelWorkflowRun ⟨10, none, 5⟩ (some ("w", 7))), .run 2, .run 2, .run 2,
   .told 2 Ask.now (100 : Nat), .run 2, .run 2]

def finishTrace : List (Label store Op) :=
  [.told 1 (Ask.interpret { cancelledRun with state := .running, endTime := none } "d" 10 none)
     (["x"], .completed (some "out") (some "x")), .run 1, .run 1, .run 1, .run 1]

def cancelledState : State store Op :=
  (exec (step code) (.rest promotedWorkflow) cancelTrace).get (by decide)

def finishedState : State store Op := (exec (step code) cancelledState finishTrace).get (by decide)

theorem run_terminally_stable_cancelled :
    ∃ run', finishedState.db.lookup (Key.run 7) = some (.live run') ∧ run'.state = .cancelled ∧
      run'.output = none := by
  have h := @run_terminally_stable promotedWorkflow (fun _ => rfl) cancelledState finishedState
    (Runs.of_exec_free cancelTrace (Option.some_get _).symm)
    (Runs.of_exec_free finishTrace (Option.some_get _).symm) 7 cancelledRun cancelledRun rfl rfl
  obtain ⟨hstate, houtput, -⟩ := h.1 rfl
  exact ⟨cancelledRun, rfl, hstate, houtput⟩

end Pivox.Workflows
