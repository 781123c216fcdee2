import Pivox.Workflows.RunStability

/-!
What DeleteWorkflow without force takes with it: of the runs of the workflow it counts the RUNNING
and the WAITING ones, and a PENDING one goes uncounted.
-/

namespace Pivox.Workflows
open ReadCommitted Transition

theorem mem_runs {db : Db store} {id : Id} {run : WorkflowRun}
    (h : db.lookup (Key.run id) = some (.live run)) : run ∈ runs db := by
  refine List.mem_filterMap.mpr ⟨⟨.run id, .live run⟩, ?_, rfl⟩
  exact AList.mem_lookup_iff.mp h

def NoPending (workflowId : Id) (rows : AList Row) : Prop :=
  ∀ run ∈ runs rows, run.workflowId = workflowId → run.state ≠ .pending

instance (workflowId : Id) (rows : AList Row) : Decidable (NoPending workflowId rows) :=
  inferInstanceAs (Decidable (∀ run ∈ runs rows, _ → _))

def isUnforcedDelete : Op → Bool
  | .deleteWorkflow _ req => !req.force
  | _ => false

/-- When an unforced delete counts the active runs of its workflow, none is PENDING. -/
def SeesNoPending (log : Log store Op) (rows : AList Row) : Query → Prop
  | .countActiveWorkflowRuns workflowId =>
    isUnforcedDelete log.op = true → NoPending workflowId rows
  | _ => True

instance (log : Log store Op) (rows : AList Row) : (q : Query) → Decidable (SeesNoPending log rows q)
  | .countActiveWorkflowRuns _ => inferInstanceAs (Decidable (_ → _))
  | .getWorkflow _ => isTrue trivial
  | .getWorkflowByParent _ => isTrue trivial
  | .getWorkflowVersion _ => isTrue trivial
  | .getWorkflowVersionByNumber _ _ => isTrue trivial
  | .runsOfWorkflow _ => isTrue trivial
  | .versionsOfWorkflow _ => isTrue trivial

/- Nothing that a commit does to the runs of the workflow upsets a count of its active ones: no run
   is added, and a terminal one stays as it is. -/
structure Undisturbed (workflowId : Id) (db db' : Db store) : Prop where
  change : ∀ id, RunChange (db.lookup (Key.run id)) (db'.lookup (Key.run id))
  known : ∀ id run', db'.lookup (Key.run id) = some (.live run') → run'.workflowId = workflowId →
    ∃ run, db.lookup (Key.run id) = some (.live run) ∧ run.workflowId = workflowId

theorem Undisturbed.refl (workflowId : Id) (db : Db store) : Undisturbed workflowId db db :=
  ⟨fun _ => .refl _, fun _ run' hrun hw => ⟨run', hrun, hw⟩⟩

theorem Undisturbed.trans {workflowId : Id} {db₁ db₂ db₃ : Db store}
    (h : Undisturbed workflowId db₁ db₂) (h' : Undisturbed workflowId db₂ db₃) :
    Undisturbed workflowId db₁ db₃ where
  change id := (h.change id).trans (h'.change id)
  known id run' hrun hw := by
    obtain ⟨run, hrun, hw⟩ := h'.known id run' hrun hw
    exact h.known id run hrun hw

def counted (workflowId : Id) (log : Log store Op) : Prop :=
  ∃ n, Event.read (Query.countActiveWorkflowRuns workflowId) n ∈ log.events

/-- A run that was there and is there no more was terminal. -/
def DropsTerminal (db db' : Db store) : Prop :=
  ∀ id run, db.lookup (Key.run id) = some (.live run) →
    (∀ run', db'.lookup (Key.run id) ≠ some (.live run')) → isTerminalState run.state = true

def deleteContract : Contract store Op where
  Inv _ := True
  rely log db db' := ∀ workflowId, counted workflowId log → Undisturbed workflowId db db'
  guar log db db' := isUnforcedDelete log.op = true → DropsTerminal db db'
  allow _ _ _ := True
  accept _ _ _ := True
  see := SeesNoPending
  fit _ _ _ := True
  spared log db db' := ∀ workflowId, counted workflowId log → Undisturbed workflowId db db'
  rely_refl _ _ _ _ := .refl _ _
  rely_trans _ _ _ _ h h' w hw := (h w hw).trans (h' w hw)
  rely_mono _ _ _ _ h w hw := h w (hw.imp fun _ hn => List.mem_cons_of_mem _ hn)
  inv_guar _ _ _ _ _ := trivial
  rely_guar _ _ _ _ _ _ h := h

/-! The statements of the delete -/

/- An unforced delete, whose pending removals are all of terminal runs. -/
def removesTerminal : Assertion deleteContract where
  holds own log db := isUnforcedDelete log.op = true ∧
    ∀ id row, own.lookup (Key.run id) = some row → row = some .gone ∧
      ∀ run, db.lookup (Key.run id) = some (.live run) → isTerminalState run.state = true
  later own log db db' h hl := by
    refine ⟨h.1, fun id row hrow => ?_⟩
    have hmem : (Key.run id) ∈ own := AList.lookup_isSome.mp (by simp [hrow])
    obtain ⟨hgone, hterminal⟩ := h.2 id row hrow
    refine ⟨hgone, fun run hrun => hterminal run ?_⟩
    rw [← hl.own _ hmem]
    exact hrun
  add _ _ _ _ h := h

/- The runs of the workflow were counted, and are all terminal. -/
def settled (workflowId : Id) : Assertion deleteContract where
  holds _ log db := counted workflowId log ∧
    ∀ id run, db.lookup (Key.run id) = some (.live run) → run.workflowId = workflowId →
      isTerminalState run.state = true
  later own log db db' h hl := by
    refine ⟨h.1, fun id run' hrun' hw => ?_⟩
    have hstill : Undisturbed workflowId db db' := hl.rely workflowId h.1
    obtain ⟨run, hrun, hw⟩ := hstill.known id run' hrun' hw
    have hterminal : isTerminalState run.state = true := h.2 id run hrun hw
    have hkeep := (hstill.change id).terminal run hrun hterminal
    simp only [hrun', Option.some.injEq, Slot.live.injEq, reduceCtorEq, or_false] at hkeep
    rw [hkeep]
    exact hterminal
  add _ _ _ _ h := ⟨h.1.imp fun _ hn => List.mem_cons_of_mem _ hn, h.2⟩

theorem lookup_run_insert {own : Pending store} {key : Key} {row : Option (Row key)}
    (h : ∀ id, key ≠ .run id) (id : Id) :
    (own.insert key row).lookup (Key.run id) = own.lookup (Key.run id) :=
  AList.lookup_insert_ne (h id).symm

theorem lookup_run_of_none {own : Pending store} {db : Db store} {id : Id}
    (h : own.lookup (Key.run id) = none) :
    (overlay own db).lookup (Key.run id) = db.lookup (Key.run id) :=
  @lookup_overlay_of_none store own db (.run id) h

/- A write to another table. -/
theorem removesTerminal_aside {own : Pending store} {log : Log store Op} {db : Db store} {key : Key}
    {row : Option (Row key)} (h : ∀ id, key ≠ .run id) (hJ : removesTerminal.holds own log db) :
    removesTerminal.holds (own.insert key row) log db := by
  refine ⟨hJ.1, fun id r hr => hJ.2 id r ?_⟩
  rwa [lookup_run_insert h] at hr

section statements
variable {P : Assertion deleteContract} {α : Type}

/- What is known whatever is pending. -/
def Unwritten (P : Assertion deleteContract) : Prop :=
  ∀ own own' log db, P.holds own log db → P.holds own' log db

theorem unwritten_settled (workflowId : Id) : Unwritten (settled workflowId) :=
  fun _ _ _ _ h => h

theorem unwritten_top : Unwritten .top := fun _ _ _ _ h => h

theorem hits_aside {key : Key} {stmt : Stmt key} (h : ∀ id, key ≠ .run id) (hP : Unwritten P) :
    Outline.Hits removesTerminal P key stmt fun _ => P :=
  fun _ _ _ _ _ hJ hp _ => ⟨removesTerminal_aside h hJ, hP _ _ _ _ hp⟩

theorem outline_lockWorkflowByParent (p : GetWorkflowByParentParams) :
    Outline removesTerminal .top (lockWorkflowByParent p) fun _ => .top := by
  refine outline_mapError _ ((outline_look.bind fun row => outline_seen).bind fun w => ?_)
  refine Outline.bind ?_ fun row => outline_handed.bind fun row => .ret _
  exact Outline.write (hits_aside nofun unwritten_top)

end statements

/-- The count is of RUNNING and WAITING runs, so that with no PENDING one seen, zero says it all. -/
theorem settled_of_count {workflowId : Id} {own : Pending store} {log : Log store Op} {db : Db store}
    (hJ : removesTerminal.holds own log db) (hpending : NoPending workflowId (overlay own db))
    (hcount : answer (.countActiveWorkflowRuns workflowId) (overlay own db) = 0) :
    (settled workflowId).holds own (log.add (.read (.countActiveWorkflowRuns workflowId)
      (answer (.countActiveWorkflowRuns workflowId) (overlay own db)))) db := by
  refine ⟨⟨_, List.mem_cons_self⟩, fun id run hrun hw => ?_⟩
  cases hown : own.lookup (Key.run id) with
  | some row => exact (hJ.2 id row hown).2 run hrun
  | none =>
    have hseen : run ∈ runs (overlay own db) :=
      mem_runs ((lookup_run_of_none hown).trans hrun)
    have hinactive := List.countP_eq_zero.mp hcount run hseen
    have hnew : run.state ≠ .pending := hpending run hseen hw
    cases hstate : run.state <;> simp_all [isActiveState, isTerminalState]

theorem outline_countActiveWorkflowRuns (workflowId : Id) :
    Outline removesTerminal .top (query (.countActiveWorkflowRuns workflowId))
      fun n => .given (n = 0) (settled workflowId) :=
  Outline.read_seen fun _ _ _ _ hsee hJ _ hcount => settled_of_count hJ (hsee hJ.1) hcount

theorem execRun_cascade {workflowId : Id} {row : Option (Slot WorkflowRun)}
    {new : Option (Slot WorkflowRun)} (h : execRun (.cascade workflowId) row = some new) :
    new = some .gone ∧ ∃ run, row = some (.live run) ∧ run.workflowId = workflowId := by
  obtain _ | run | _ := row
  · cases h
  · simp only [execRun, Option.ite_none_right_eq_some, Option.some.injEq] at h
    exact ⟨h.2.symm, run, rfl, h.1⟩
  · cases h

theorem hits_cascade (id workflowId : Id) :
    Outline.Hits removesTerminal (settled workflowId) (.run id) (.cascade workflowId)
      fun _ => settled workflowId := by
  intro own log db new _ hJ hP hx
  obtain ⟨hnew, run, hrow, hw⟩ := execRun_cascade hx
  refine ⟨⟨hJ.1, fun id' row hrow' => ?_⟩, hP⟩
  by_cases heq : id' = id
  · subst heq
    rw [AList.lookup_insert, Option.some.injEq] at hrow'
    refine ⟨hrow'.symm.trans hnew, fun run' hrun' => hP.2 id' run' hrun' ?_⟩
    cases hown : own.lookup (Key.run id') with
    | none =>
      have hsame : some (Slot.live run) = some (Slot.live run') :=
        hrow.symm.trans ((lookup_run_of_none hown).trans hrun')
      cases hsame
      exact hw
    | some r =>
      have hr : r = some (Slot.live run) := (lookup_overlay_of_some hown).symm.trans hrow
      have hgone : r = some .gone := (hJ.2 id' r hown).1
      simp [hgone] at hr
  · rw [AList.lookup_insert_ne (by simpa using heq)] at hrow'
    exact hJ.2 id' row hrow'

theorem outline_deleteWorkflowRow (workflowId : Id) :
    Outline removesTerminal (settled workflowId) (deleteWorkflowRow workflowId)
      fun _ => settled workflowId := by
  have hkeep : Unwritten (settled workflowId) := unwritten_settled workflowId
  refine Outline.bind (Outline.exec (hits_aside nofun hkeep)) fun _ => ?_
  refine outline_look.bind fun ids => ?_
  refine (Outline.forEach fun id _ => Outline.exec (hits_cascade id workflowId)).bind fun _ => ?_
  exact outline_look.bind fun ids =>
    Outline.forEach fun id _ => Outline.exec (hits_aside nofun hkeep)

/-- What the transaction of an unforced delete commits. -/
theorem dropsTerminal_overlay {own : Pending store} {log : Log store Op} {db : Db store}
    (hJ : removesTerminal.holds own log db) : DropsTerminal db (overlay own db) := by
  intro id run hrun hgone
  cases hown : own.lookup (Key.run id) with
  | some row => exact (hJ.2 id row hown).2 run hrun
  | none => exact absurd ((lookup_run_of_none hown).trans hrun) (hgone run)

def unforced : Assertion deleteContract :=
  ⟨fun _ log _ => isUnforcedDelete log.op = true, fun _ _ _ _ h _ => h, fun _ _ _ _ h => h⟩

theorem between_deleteWorkflow (scope : RequestScope) {req : DeleteWorkflowRequest}
    (hforce : req.force = false) :
    Between unforced (deleteWorkflow scope req) fun _ => .top := by
  unfold deleteWorkflow
  split
  · exact Between.throw _
  · refine Between.validated (J := removesTerminal) (R := fun _ => .top) ?_ ?_ ?_
    · refine Outline.conseq (?_ : Outline removesTerminal .top _ _) (fun _ _ _ _ _ _ => trivial)
        fun _ _ _ _ _ _ h => h
      refine (outline_lockWorkflowByParent _).bind fun existing => ?_
      split
      · exact Outline.throw _
      · refine (outline_countActiveWorkflowRuns existing.1).bind fun active => ?_
        split
        · rw [if_neg (by simp [hforce])]
          exact Outline.throw _
        · rename_i hactive
          have hzero : active = 0 := Nat.eq_zero_of_not_pos hactive
          exact (outline_deleteWorkflowRow existing.1).conseq (fun _ _ _ _ _ h => h hzero)
            fun _ _ _ _ _ _ _ => trivial
    · exact fun log db hop => ⟨hop, fun id row hrow => by simp at hrow⟩
    · exact fun _ own log db _ hJ _ _ _ => dropsTerminal_overlay hJ

theorem delete_safe (op : Op) (db : Db store) (_ : deleteContract.Inv db) :
    Safe deleteContract (code op) .idle ∅ (.start op) db := by
  cases hop : isUnforcedDelete op with
  | false =>
    refine safe_of_guar fun log' hlog _ _ hunforced => ?_
    rw [hlog, Log.start, hop] at hunforced
    cases hunforced
  | true =>
    cases op with
    | deleteWorkflow scope req =>
      exact (between_deleteWorkflow scope (by simpa [isUnforcedDelete] using hop)).run hop
    | runWorkflow _ _ => cases hop
    | work _ => cases hop
    | handleError _ _ => cases hop
    | reapStrandedRuns _ => cases hop
    | cancelWorkflowRun _ _ => cases hop

/-! Every reachable state -/

/- The ids of the runs of a workflow. -/
def runIds (workflowId : Id) (rows : AList Row) : List Id :=
  rows.entries.filterMap fun
    | ⟨.run id, .live run⟩ => if run.workflowId = workflowId then some id else none
    | _ => none

theorem mem_runIds {workflowId : Id} {db : Db store} {id : Id} :
    id ∈ runIds workflowId db ↔
      ∃ run, db.lookup (Key.run id) = some (.live run) ∧ run.workflowId = workflowId := by
  simp only [runIds, List.mem_filterMap]
  constructor
  · rintro ⟨⟨key, row⟩, hmem, hid⟩
    split at hid
    · rename_i id' run heq
      cases heq
      simp only [Option.ite_none_right_eq_some, Option.some.injEq] at hid
      obtain ⟨hw, rfl⟩ := hid
      exact ⟨run, AList.mem_lookup_iff.mpr hmem, hw⟩
    · cases hid
  · rintro ⟨run, hrun, hw⟩
    exact ⟨⟨.run id, .live run⟩, AList.mem_lookup_iff.mp hrun, by simp [hw]⟩

def countedBy : Event store → Option Id
  | .read (.countActiveWorkflowRuns workflowId) _ => some workflowId
  | _ => none

/-- A commit adds no run to a workflow whose runs a session under way has counted: the check of the
foreign key waits for the lock on the workflow's row. -/
def KeepsLocked (st : State store Op) : Label store Op → Prop
  | .act p a => ∀ st' ∈ step code st (.act p a), ∀ t ∈ st.sessions.eraseIdx p,
    t.code.isDone = false → ∀ e ∈ t.log.events, ∀ workflowId ∈ countedBy e,
      runIds workflowId st'.db ⊆ runIds workflowId st.db
  | .spawn _ => True

def CountsNoPending (st : State store Op) : Label store Op → Prop
  | .act p .run => ∀ s ∈ st.sessions[p]?, ∀ q ∈ s.code.nextQuery,
    SeesNoPending s.log (overlay s.own st.db) q
  | _ => True

instance (st : State store Op) : (l : Label store Op) → Decidable (KeepsLocked st l)
  | .act p a => inferInstanceAs (Decidable (∀ st' ∈ step code st (.act p a), _))
  | .spawn _ => isTrue trivial

instance (st : State store Op) : (l : Label store Op) → Decidable (CountsNoPending st l)
  | .act p .run => inferInstanceAs (Decidable (∀ s ∈ st.sessions[p]?, _))
  | .act _ .fail => isTrue trivial
  | .act _ .lose => isTrue trivial
  | .act _ (.answer _ _) => isTrue trivial
  | .act _ .retry => isTrue trivial
  | .act _ .crash => isTrue trivial
  | .spawn _ => isTrue trivial

theorem mem_eraseIdx {sessions : List (Session store Op)} {p q : Nat} {t : Session store Op}
    (hpq : p ≠ q) (ht : sessions[q]? = some t) : t ∈ sessions.eraseIdx p :=
  List.mem_eraseIdx_iff_getElem?.mpr ⟨q, hpq.symm, ht⟩

theorem deleteContract_meets {db : Db store} (hnew : ∀ id, db.lookup (Key.run id) = none)
    {st : State store Op} {l : Label store Op} (hlocked : KeepsLocked st l)
    (hpending : CountsNoPending st l) (h : Reaches (.rest db) st) :
    deleteContract.Meets code st l where
  allows _ _ _ _ _ _ _ _ _ _ := trivial
  accepts _ _ _ _ := trivial
  sees p s q next hl hp hcode _ := by
    subst hl
    exact hpending s hp q (by simp [hcode, Prog.nextQuery])
  fits _ _ _ _ _ _ _ _ := trivial
  spares st' p q a t hl hs hpq ht hd workflowId hcounted := by
    subst hl
    obtain ⟨n, hn⟩ := hcounted
    have hadds := hlocked st' hs t (mem_eraseIdx hpq ht) hd _ hn workflowId rfl
    refine ⟨runs_change hnew h ((Runs.refl st).tail trivial hs), fun id run' hrun' hw => ?_⟩
    exact mem_runIds.mp (hadds (mem_runIds.mpr ⟨run', hrun', hw⟩))

/-- As long as an unforced delete finds no PENDING run when it counts, all it takes with it is
terminal. -/
theorem unforced_delete_drops_terminal {db : Db store}
    (hnew : ∀ id, db.lookup (Key.run id) = none) {st st' : State store Op} {p : Nat} {a : Act store}
    {s : Session store Op}
    (h : Runs (step code) (fun st l => KeepsLocked st l ∧ CountsNoPending st l) (.rest db) st)
    (hc : KeepsLocked st (.act p a) ∧ CountsNoPending st (.act p a))
    (hs : step code st (.act p a) = some st') (hp : st.sessions[p]? = some s)
    {scope : RequestScope} {req : DeleteWorkflowRequest}
    (hop : s.log.op = .deleteWorkflow scope req) (hforce : req.force = false) :
    DropsTerminal st.db st'.db := by
  have hall : ∀ {st : State store Op}, Runs (step code)
      (fun st l => KeepsLocked st l ∧ CountsNoPending st l) (.rest db) st → Reaches (.rest db) st :=
    fun hr => hr.mono fun _ _ _ => trivial
  have hok : st.Ok deleteContract := (State.ok_rest trivial).runs delete_safe
    (fun st l hmeets => deleteContract_meets hnew hmeets.1.1 hmeets.1.2 (hall hmeets.2)) h.reached
  obtain ⟨-, heq | ⟨p', s', a', hl, hp', hguar⟩⟩ :=
    hok.step delete_safe (deleteContract_meets hnew hc.1 hc.2 (hall h)) hs
  · exact fun id run hrun hgone => absurd (heq ▸ hrun) (hgone run)
  · cases hl
    obtain rfl : s = s' := Option.some.inj (hp.symm.trans hp')
    exact hguar (by simp [hop, isUnforcedDelete, hforce])

/- A run is created, and cancelled or not, before its workflow is deleted without force. -/
def deleteRequest : DeleteWorkflowRequest := ⟨some "w", "", false, false⟩

def createTrace : List (Label store Op) :=
  [.spawn (.runWorkflow ⟨10, none, 5⟩ ⟨some "w", none, "s", .ok none, false⟩),
   .told 0 Ask.newId (some 7), .run 0, .run 0, .run 0, .run 0, .told 0 (Ask.insertJob 7) true,
   .run 0]

def cancelPendingTrace : List (Label store Op) :=
  [.spawn (.cancelWorkflowRun ⟨10, none, 5⟩ (some ("w", 7))), .run 1, .run 1, .run 1,
   .told 1 Ask.now (100 : Nat), .run 1, .run 1]

def deleteTrace (p : Nat) : List (Label store Op) :=
  .spawn (.deleteWorkflow ⟨10, none, 5⟩ deleteRequest) :: List.replicate 9 (.run p)

def pendingRun : WorkflowRun :=
  { cancelledRun with state := .pending, startTime := none, endTime := none }

/- Both end right before the COMMIT of the delete. -/
def pendingDeleted : State store Op :=
  (exec (step code) (.rest promotedWorkflow) (createTrace ++ deleteTrace 1)).get (by decide)

def cancelledDeleted : State store Op :=
  (exec (step code) (.rest promotedWorkflow)
    (createTrace ++ cancelPendingTrace ++ deleteTrace 2)).get (by decide)

theorem unforced_delete_drops_terminal_cancelled :
    DropsTerminal cancelledDeleted.db ((step code cancelledDeleted (.run 2)).get (by decide)).db :=
  @unforced_delete_drops_terminal promotedWorkflow (fun _ => rfl) cancelledDeleted _ 2 .run
    ((cancelledDeleted.sessions[2]?).get (by decide))
    (Runs.of_exec (createTrace ++ cancelPendingTrace ++ deleteTrace 2) (Option.some_get _).symm
      (by decide))
    (by decide) (Option.some_get _).symm (Option.some_get _).symm ⟨10, none, 5⟩ deleteRequest rfl rfl

/-- An unforced delete takes a run along that has yet to start. -/
theorem unforced_delete_drops_pending :
    ¬ ∀ (db : Db store), (∀ id, db.lookup (Key.run id) = none) →
      ∀ (st st' : State store Op) (p : Nat) (a : Act store) (s : Session store Op),
      Runs (step code) KeepsLocked (.rest db) st → KeepsLocked st (.act p a) →
      step code st (.act p a) = some st' → st.sessions[p]? = some s →
      isUnforcedDelete s.log.op = true → DropsTerminal st.db st'.db := by
  intro hclaim
  have hruns : Runs (step code) KeepsLocked (.rest promotedWorkflow) pendingDeleted :=
    Runs.of_exec (createTrace ++ deleteTrace 1) (Option.some_get _).symm (by decide)
  have hgone (run' : WorkflowRun) : ((step code pendingDeleted (.run 1)).get (by decide)).db.lookup
      (Key.run 7) ≠ some (.live run') := fun hrun => by
    have hrow : some Slot.gone = some (Slot.live run') := hrun
    cases hrow
  have hdrops := hclaim promotedWorkflow (fun _ => rfl) pendingDeleted
    ((step code pendingDeleted (.run 1)).get (by decide)) 1 .run
    ((pendingDeleted.sessions[1]?).get (by decide)) hruns (by decide) (Option.some_get _).symm
    (Option.some_get _).symm rfl 7 pendingRun rfl hgone
  cases hdrops

end Pivox.Workflows
