import Pivox.WorkflowVersions.Contract

/-!
Proof outlines of the handlers of containers and versions.
-/

namespace Pivox.WorkflowVersions
open ReadCommitted
open Workflows (Workflow WorkflowVersion GetWorkflowByParentParams touched)

section moves
variable {own : Pending store} {rows : Db store} {id version : Id} {w w' : Workflow}
  {v : WorkflowVersion}

theorem lookup_put_workflow (new : Option (Slot Workflow)) :
    (put rows (Key.workflow id) new).lookup (Key.version version) =
      rows.lookup (Key.version version) :=
  @lookup_put_ne store rows (.workflow id) (.version version) new (by simp)

theorem lookup_put_version (new : Option VersionSlot) :
    (put rows (Key.version version) new).lookup (Key.workflow id) =
      rows.lookup (Key.workflow id) :=
  @lookup_put_ne store rows (.version version) (.workflow id) new (by simp)

theorem workflowOk_put {new : Slot Workflow}
    (hpointer : ∀ w version, new = .live w → w.version = some version →
      ∃ v, rows.lookup (.version version) = some (.live v) ∧ v.workflowId = id) :
    WorkflowOk id (put rows (.workflow id) (some new)) where
  pointer w version hw hv := by
    have hnew : some new = some (Slot.live w) := (lookup_put rows (Key.workflow id) _).symm.trans hw
    rw [lookup_put_workflow]
    exact hpointer w version (Option.some.inj hnew) hv
  owned _ _ := by
    rw [lookup_put rows (Key.workflow id)]
    simp

theorem not_guarded_workflow {g : Key} {old new : Option (Slot Workflow)} :
    ¬ guarded.guards g (.workflow id) old new := by
  cases g <;> exact False.elim

theorem moves_workflow {old : Option (Slot Workflow)} {new : Slot Workflow}
    (hrow : rows.lookup (.workflow id) = old)
    (hstamp : workflowStamp old < workflowStamp (some new)) (hstays : WorkflowStays old (some new))
    (hpointer : ∀ w version, new = .live w → w.version = some version →
      ∃ v, rows.lookup (.version version) = some (.live v) ∧ v.workflowId = id) :
    guarded.Moves own rows (.workflow id) (some new) where
  stamp := by
    rw [hrow]
    exact hstamp
  stays := by
    rw [hrow]
    exact hstays
  guarded _ h := absurd h not_guarded_workflow
  loc g hg := by
    obtain rfl : g = .workflow id := hg.resolve_right not_guarded_workflow
    exact workflowOk_put hpointer

theorem moves_create (hrow : rows.lookup (.workflow id) = none)
    (hversion : w.version = none) : guarded.Moves own rows (.workflow id) (some (.live w)) := by
  refine moves_workflow hrow (WithTop.coe_lt_coe.mpr (Nat.succ_pos _)) ⟨?_, ?_, ?_⟩ ?_
  · exact fun _ => by simp
  · exact nofun
  · exact nofun
  · intro w' version hw hv
    cases hw
    rw [hversion] at hv
    cases hv

theorem moves_touch (hok : WorkflowOk id rows) (hrow : rows.lookup (.workflow id) = some (.live w))
    (hxmax : w'.xmax = w.xmax) (hversion : w'.version = w.version) :
    guarded.Moves own rows (.workflow id) (some (.live (touched w'))) := by
  refine moves_workflow hrow (workflowStamp_touched w w' hxmax) ⟨?_, ?_, ?_⟩ ?_
  · exact fun _ => by simp
  · exact nofun
  · rintro w₀ ⟨⟩ hne
    exact .inr ⟨_, rfl, hversion ▸ hne⟩
  · rintro w₀ version ⟨⟩ hv
    exact hok.pointer w version hrow (hversion ▸ hv)

theorem moves_promote (hrow : rows.lookup (.workflow id) = some (.live w))
    (hversion : rows.lookup (.version version) = some (.live v)) (hid : v.workflowId = id)
    (etag : String) : guarded.Moves own rows (.workflow id)
      (some (.live (touched { w with version := some version, etag := etag }))) := by
  refine moves_workflow hrow (workflowStamp_touched w _ rfl) ⟨?_, ?_, ?_⟩ ?_
  · exact fun _ => by simp
  · exact nofun
  · rintro w₀ ⟨⟩ -
    exact .inr ⟨_, rfl, by simp [touched]⟩
  · rintro w₀ version' ⟨⟩ hv
    cases hv
    exact ⟨v, hversion, hid⟩

theorem moves_delete (hrow : rows.lookup (.workflow id) = some (.live w)) :
    guarded.Moves own rows (.workflow id) (some .gone) := by
  refine moves_workflow hrow (workflowStamp_gone w) ⟨?_, ?_, ?_⟩ nofun
  · exact fun _ => by simp
  · exact nofun
  · exact fun _ _ _ => .inl rfl

theorem moves_version {old : Option VersionSlot} {new : VersionSlot}
    (hrow : rows.lookup (.version version) = old)
    (hstamp : versionStamp old < versionStamp (some new)) (hstays : VersionStays old (some new))
    (howner : ∀ i, owner old = some i ∨ owner (some new) = some i → i = id)
    (hlock : Key.workflow id ∈ own) (hok : WorkflowOk id (put rows (.version version) (some new))) :
    guarded.Moves own rows (.version version) (some new) where
  stamp := by
    rw [hrow]
    exact hstamp
  stays := by
    rw [hrow]
    exact hstays
  guarded g h := by
    cases g with
    | version _ => exact h.elim
    | workflow i =>
      obtain ⟨-, hi⟩ := h
      rw [hrow] at hi
      obtain rfl := howner i hi
      exact .inr hlock
  loc g hg := by
    cases g with
    | version _ => trivial
    | workflow i =>
      obtain hg | ⟨-, hi⟩ := hg
      · cases hg
      · rw [hrow] at hi
        obtain rfl := howner i hi
        exact hok

theorem moves_createVersion (hrow : rows.lookup (.version version) = none)
    (hlock : Key.workflow v.workflowId ∈ own) (hok : WorkflowOk v.workflowId rows)
    (hused : rows.lookup (.workflow v.workflowId) ≠ none) :
    guarded.Moves own rows (.version version) (some (.live v)) := by
  refine moves_version hrow (WithTop.coe_lt_coe.mpr Nat.one_pos) ⟨nofun, nofun⟩ ?_ hlock ?_
  · intro i hi
    obtain hi | hi := hi
    · cases hi
    · exact (Option.some.inj hi).symm
  · refine ⟨fun w version' hw hv => ?_, fun version' _ => ?_⟩
    · rw [lookup_put_version] at hw
      obtain ⟨v', hlive, hid⟩ := hok.pointer w version' hw hv
      have hne : version' ≠ version := by
        rintro rfl
        rw [hrow] at hlive
        cases hlive
      exact ⟨v', (lookup_put_ne rows _ (by simpa using hne)).trans hlive, hid⟩
    · rw [lookup_put_version]
      exact hused

theorem moves_deleteVersion (hrow : rows.lookup (.version version) = some (.live v))
    (hlock : Key.workflow v.workflowId ∈ own) (hok : WorkflowOk v.workflowId rows)
    (hfree : ∀ w, rows.lookup (.workflow v.workflowId) = some (.live w) →
      w.version ≠ some version) :
    guarded.Moves own rows (.version version) (some (.gone v)) := by
  refine moves_version hrow (versionStamp_gone v) ⟨?_, nofun⟩ ?_ hlock ?_
  · rintro v' ⟨⟩
    exact .inr rfl
  · intro i hi
    obtain hi | hi := hi
    · exact (Option.some.inj hi).symm
    · exact (Option.some.inj hi).symm
  · refine ⟨fun w version' hw hv => ?_, fun version' howner => ?_⟩
    · rw [lookup_put_version] at hw
      obtain ⟨v', hlive, hid⟩ := hok.pointer w version' hw hv
      have hne : version' ≠ version := by
        rintro rfl
        exact hfree w hw hv
      exact ⟨v', (lookup_put_ne rows _ (by simpa using hne)).trans hlive, hid⟩
    · rw [lookup_put_version]
      by_cases heq : version' = version
      · subst heq
        exact hok.owned version' (by rw [hrow]; rfl)
      · refine hok.owned version' ?_
        rwa [lookup_put_ne rows _ (by simpa using heq)] at howner

end moves

variable {numbers : Bool} {J P : Assertion (contract numbers)} {α : Type} {id version : Id}

/-! What a transaction knows between its statements -/

def pends (numbers : Bool) : Assertion (contract numbers) where
  holds own _ db := Pends own db
  later _ _ _ _ h hl := h.later hl
  add _ _ _ _ h := h

/- The row of the workflow is locked, and nothing else is written. -/
def opened (numbers : Bool) (w : Id × Workflow) : Assertion (contract numbers) :=
  .wrote fun own => own = (∅ : Pending store).insert (Key.workflow w.1) (some (.live w.2))

/- Under the lock of its workflow, a version. -/
def has (numbers : Bool) (id : Id) (v : Id × WorkflowVersion) : Assertion (contract numbers) where
  holds own _ db := Key.workflow id ∈ own ∧
    (overlay own db).lookup (.version v.1) = some (.live v.2) ∧ v.2.workflowId = id
  later own _ db db' h hl := by
    obtain ⟨hlock, hrow, hid⟩ := h
    refine ⟨hlock, ?_, hid⟩
    rw [lookup_overlay own db (Key.version v.1)] at hrow
    rw [lookup_overlay own db' (Key.version v.1)]
    cases hown : own.lookup (Key.version v.1) with
    | some row => rwa [hown] at hrow
    | none =>
      rw [hown] at hrow
      have howner : owner (db.lookup (Key.version v.1)) = some id := by
        rw [show db.lookup (Key.version v.1) = some (.live v.2) from hrow]
        simp [owner, slotVersion, hid]
      exact (same_of_locked hl.rely (hl.own _ hlock) (.inl howner)).symm.trans hrow
  add _ _ _ _ h := h

def above (numbers : Bool) (n : Nat) (id : Id) : Assertion (contract numbers) where
  holds own _ db := Key.workflow id ∈ own ∧ Above n id db
  later _ _ _ _ h hl := ⟨h.1, h.2.of_locked hl.rely (hl.own _ h.1)⟩
  add _ _ _ _ h := h

/- The workflow is deleted, and so far nothing but versions of it. -/
def closed (numbers : Bool) (id : Id) : Assertion (contract numbers) :=
  .wrote fun own => own.lookup (.workflow id) = some (some .gone) ∧ Deletes own

/- The version is deleted under the lock. -/
def removed (numbers : Bool) (v : Id × WorkflowVersion) : Assertion (contract numbers) :=
  .wrote fun own => own.lookup (.version v.1) = some (some (.gone v.2))

theorem opened_lookup {w : Id × Workflow} {own : Pending store} {log : Log store Op} {db : Db store}
    (h : (opened numbers w).holds own log db) :
    own.lookup (Key.workflow w.1) = some (some (.live w.2)) := by
  obtain rfl := h
  exact AList.lookup_insert (∅ : Pending store)

theorem opened_version {w : Id × Workflow} {own : Pending store} {log : Log store Op}
    {db : Db store} (h : (opened numbers w).holds own log db) (version : Id) :
    own.lookup (Key.version version) = none := by
  obtain rfl := h
  rw [lookup_insert_workflow]
  rfl

/-! Statements -/

theorem hits_workflow {stmt : WorkflowStmt}
    {Q : Option (Slot Workflow) → Assertion (contract numbers)}
    (h : ∀ own log db new, Pends own db → P.holds own log db →
      execWorkflow stmt ((overlay own db).lookup (.workflow id)) = some new →
      guarded.Moves own (overlay own db) (.workflow id) new ∧
        (Q new).holds (own.insert (Key.workflow id) new) log db) :
    @Outline.Hits store Op (contract numbers) (pends numbers) P (.workflow id) stmt Q := by
  intro own log db new _ hJ hP hx
  obtain ⟨hmoves, hQ⟩ := h own log db new hJ hP hx
  exact ⟨hJ.workflow hmoves, hQ⟩

theorem hits_version {stmt : VersionStmt}
    {Q : Option VersionSlot → Assertion (contract numbers)}
    (h : ∀ own log db new, Pends own db → P.holds own log db →
      execVersion stmt ((overlay own db).lookup (.version version)) = some new →
      Pends (own.insert (Key.version version) new) db ∧
        (Q new).holds (own.insert (Key.version version) new) log db) :
    @Outline.Hits store Op (contract numbers) (pends numbers) P (.version version) stmt Q :=
  fun own log db new _ hJ hP hx => h own log db new hJ hP hx

theorem outline_createWorkflow {w : Workflow} (hversion : w.version = none) :
    Outline (pends numbers) .unwritten (createWorkflow id w) fun row =>
      (opened numbers row).and (above numbers 1 row.1) := by
  let R := handed fun row => (opened numbers (id, row)).and (above numbers 1 id)
  have hwrite : Outline (pends numbers) .unwritten
      (writeRow .database (.workflow id) (.createWorkflow w)) R := by
    refine .write (hits_workflow fun own log db new hpends hown hx => ?_)
    cases hrow : (overlay own db).lookup (Key.workflow id) with
    | some row => simp [hrow, execWorkflow] at hx
    | none =>
      simp only [hrow, execWorkflow, Option.some.injEq] at hx
      subst hx
      obtain rfl : own = ∅ := hown
      refine ⟨moves_create hrow hversion, rfl, (AList.mem_insert _).mpr (.inl rfl), ?_⟩
      -- A version has a workflow, so there is none of one that is not there.
      intro version l hl hid
      have howned := (hpends.held.loc (.workflow id)).owned version (by
        rw [overlay_empty, hl]
        simp [owner, slotVersion, hid])
      exact absurd hrow howned
  have hreturned : ∀ row, Outline (pends numbers) (R row) (returned row) fun row =>
      (opened numbers (id, row)).and (above numbers 1 id) :=
    fun row => outline_returned fun _ _ _ _ h => h
  exact hwrite.bind fun row => (hreturned row).bind fun row =>
    Outline.pure (Q := fun row => (opened numbers row).and (above numbers 1 row.1))

theorem outline_lockWorkflowByParent (p : GetWorkflowByParentParams) :
    Outline (pends numbers) .unwritten (lockWorkflowByParent p) (opened numbers) := by
  refine outline_mapError _ (outline_look.bind fun row => outline_seen.bind fun w => ?_)
  let R := handed fun row => opened numbers (w.1, row)
  have hwrite : Outline (pends numbers) .unwritten
      (writeRow .noRows (.workflow w.1) (.getWorkflowByParentForUpdate p)) R := by
    refine .write (hits_workflow fun own log db new hpends hown hx => ?_)
    cases hrow : (overlay own db).lookup (Key.workflow w.1) with
    | none => simp [hrow, execWorkflow] at hx
    | some row =>
      cases row with
      | gone => simp [hrow, execWorkflow] at hx
      | live row =>
        simp only [hrow, execWorkflow] at hx
        split_ifs at hx
        cases hx
        obtain rfl : own = ∅ := hown
        exact ⟨moves_touch (hpends.held.loc (.workflow w.1)) hrow rfl rfl, rfl⟩
  have hreturned : ∀ row, Outline (pends numbers) (R row) (returned row) fun row =>
      opened numbers (w.1, row) :=
    fun row => outline_returned fun _ _ _ _ h => h
  exact hwrite.bind fun row => (hreturned row).bind fun row => Outline.pure (Q := opened numbers)

theorem outline_updateWorkflow (p : UpdateWorkflowParams) :
    Outline (pends numbers) P (updateWorkflow id p) fun _ => .top := by
  refine outline_ask.bind fun etag => Outline.bind (.write (hits_workflow ?_)) fun _ =>
    outline_handed
  intro own log db new hpends _ hx
  cases hrow : (overlay own db).lookup (Key.workflow id) with
  | none => simp [hrow, execWorkflow] at hx
  | some row =>
    cases row with
    | gone => simp [hrow, execWorkflow] at hx
    | live row =>
      simp only [hrow, execWorkflow, Option.some.injEq] at hx
      subst hx
      exact ⟨moves_touch (hpends.held.loc (.workflow id)) hrow rfl rfl, trivial⟩

theorem outline_getWorkflowVersionByNumber {w : Id × Workflow} (n : Nat) :
    Outline J (opened numbers w) (getWorkflowVersionByNumber w.1 n) fun v =>
      (opened numbers w).and (has numbers w.1 v) := by
  let R : Option (Id × WorkflowVersion) → Assertion (contract numbers)
    | some v => (opened numbers w).and (has numbers w.1 v)
    | none => .top
  have hread : Outline J (opened numbers w) (query (.getWorkflowVersionByNumber w.1 n)) R := by
    refine outline_query fun own log db row _ hown hrow => ?_
    cases row with
    | none => trivial
    | some v =>
      have hmem := mem_versionsOf.mp (List.mem_of_find?_eq_some hrow)
      exact ⟨hown, Guarded.mem_of_lookup (opened_lookup hown), hmem⟩
  exact hread.bind fun row => outline_found fun _ _ _ _ h => h

/-- The foreign key lets the pointer be to any version; the join leaves only the workflow's own. -/
theorem outline_setWorkflowVersion {w : Id × Workflow} :
    Outline (pends numbers) (opened numbers w) (setWorkflowVersion w.1 version) fun _ => .top := by
  let R : Option (Id × WorkflowVersion) → Assertion (contract numbers)
    | some v => has numbers w.1 v
    | none => .top
  have hread : Outline (pends numbers) (opened numbers w) (query (.versionOf w.1 version)) R := by
    refine outline_query fun own log db row _ hown hrow => ?_
    cases row with
    | none => trivial
    | some v =>
      have hmem := mem_versionsOf.mp (List.mem_of_find?_eq_some hrow)
      exact ⟨Guarded.mem_of_lookup (opened_lookup hown), hmem⟩
  have hfound : ∀ row, Outline (pends numbers) (R row) (found row) (has numbers w.1) :=
    fun row => outline_found fun _ _ _ _ h => h
  refine outline_ask.bind fun etag => hread.bind fun row => (hfound row).bind fun v => ?_
  refine Outline.bind (.write (hits_workflow ?_)) fun _ => outline_handed
  rintro own log db new hpends ⟨-, hv, hid⟩ hx
  cases hrow : (overlay own db).lookup (Key.workflow w.1) with
  | none => simp [hrow, execWorkflow] at hx
  | some row =>
    cases row with
    | gone => simp [hrow, execWorkflow] at hx
    | live row =>
      simp only [hrow, execWorkflow, Option.some.injEq] at hx
      subst hx
      exact ⟨moves_promote hrow hv hid etag, trivial⟩

theorem le_foldl_max {ns : List Nat} {m n : Nat} (h : n ≤ m ∨ n ∈ ns) : n ≤ ns.foldl max m := by
  induction ns generalizing m with
  | nil => simpa using h
  | cons k ns ih =>
    refine ih ?_
    obtain h | h := h
    · exact .inl (h.trans (le_max_left m k))
    · obtain rfl | h := List.mem_cons.mp h
      · exact .inl (le_max_right m n)
      · exact .inr h

theorem above_next {w : Id × Workflow} {own : Pending store} {log : Log store Op} {db : Db store}
    (hown : (opened numbers w).holds own log db) :
    Above (answer (.nextWorkflowVersionNumber w.1) (overlay own db)) w.1 db := by
  intro version l hl hid
  have hover : (overlay own db).lookup (Key.version version) = some (.live l) :=
    (@lookup_overlay_of_none store own db (Key.version version) (opened_version hown version)).trans
      hl
  have hmem : l.versionNumber ∈ (versionsOf (overlay own db) w.1).map (·.2.versionNumber) :=
    List.mem_map.mpr ⟨(version, l), mem_versionsOf.mpr ⟨hover, hid⟩, rfl⟩
  exact Nat.lt_succ_of_le (le_foldl_max (.inr hmem))

theorem outline_nextWorkflowVersionNumber {w : Id × Workflow} :
    Outline J (opened numbers w) (nextWorkflowVersionNumber w.1) fun n =>
      (opened numbers w).and (above numbers n w.1) := by
  have hread : Outline J (opened numbers w) (query (.nextWorkflowVersionNumber w.1)) fun n : Nat =>
      (opened numbers w).and (above numbers n w.1) := by
    refine outline_query fun own log db (n : Nat) _ hown hn => ?_
    exact ⟨hown, Guarded.mem_of_lookup (opened_lookup hown), hn ▸ above_next hown⟩
  exact hread

theorem outline_createWorkflowVersion {w : Id × Workflow} {n : Nat} {note : String}
    {definition : Json} :
    Outline (pends numbers) ((opened numbers w).and (above numbers n w.1))
      (createWorkflowVersion version ⟨w.1, n, note, definition⟩) fun _ => .top := by
  refine Outline.bind (R := fun _ => .top) (.write (hits_version ?_)) fun row => ?_
  · rintro own log db new hpends ⟨hown, hlock, habove⟩ hx
    cases hrow : (overlay own db).lookup (Key.version version) with
    | some row => cases row <;> simp [hrow, execVersion] at hx
    | none =>
      simp only [hrow, execVersion, Option.some.injEq] at hx
      subst hx
      have hused : (overlay own db).lookup (Key.workflow w.1) ≠ none := by
        rw [show (overlay own db).lookup (Key.workflow w.1) = _ from
          @lookup_overlay_of_some store own db (Key.workflow w.1) _ (opened_lookup hown)]
        simp
      have hmoves := @moves_createVersion own _ version ⟨w.1, n, note, definition⟩ hrow hlock
        (hpends.held.loc (.workflow w.1)) hused
      exact ⟨hpends.createVersion (opened_version hown) habove hmoves, trivial⟩
  · obtain _ | v' | v' := row
    · exact .throw _
    · exact .ret _
    · exact .throw _

theorem lookup_insert_version_workflow {own : Pending store} (new : Option VersionSlot) :
    (own.insert (Key.version version) new).lookup (Key.workflow id) =
      own.lookup (Key.workflow id) :=
  AList.lookup_insert_ne (by simp)

theorem hits_cascade :
    @Outline.Hits store Op (contract numbers) (pends numbers) (closed numbers id)
      (.version version) (.cascade id) fun _ => closed numbers id := by
  refine hits_version ?_
  rintro own log db new hpends ⟨hgone, hdeletes⟩ hx
  cases hrow : (overlay own db).lookup (Key.version version) with
  | none => simp [hrow, execVersion] at hx
  | some row =>
    cases row with
    | gone v => simp [hrow, execVersion] at hx
    | live v =>
      simp only [hrow, execVersion] at hx
      split_ifs at hx with hid
      cases hx
      subst hid
      have hover : (overlay own db).lookup (Key.workflow v.workflowId) = some .gone :=
        @lookup_overlay_of_some store own db (Key.workflow v.workflowId) _ hgone
      have hmoves := moves_deleteVersion hrow (Guarded.mem_of_lookup hgone)
        (hpends.held.loc (.workflow v.workflowId)) fun w hw => by
          rw [hover] at hw
          cases hw
      refine ⟨hpends.deleteVersion hdeletes hrow hmoves, ?_, hdeletes.afterDelete version v⟩
      rwa [lookup_insert_version_workflow]

theorem outline_deleteWorkflow {w : Id × Workflow} :
    Outline (pends numbers) (opened numbers w) (deleteWorkflow w.1) fun _ => .top := by
  have hdelete : Outline (pends numbers) (opened numbers w)
      (execRow (.workflow w.1) .deleteWorkflow) fun _ => closed numbers w.1 := by
    refine .exec_cases (hits_workflow fun own log db new hpends hown hx => ?_)
      fun own log db _ hown hx => ?_
    · have hover : (overlay own db).lookup (Key.workflow w.1) = some (.live w.2) :=
        @lookup_overlay_of_some store own db (Key.workflow w.1) _ (opened_lookup hown)
      rw [hover] at hx
      cases hx
      refine ⟨moves_delete hover, AList.lookup_insert own, Deletes.workflow ?_ _⟩
      intro version v hv
      rw [opened_version hown] at hv
      cases hv
    · have hover : (overlay own db).lookup (Key.workflow w.1) = some (.live w.2) :=
        @lookup_overlay_of_some store own db (Key.workflow w.1) _ (opened_lookup hown)
      rw [hover] at hx
      cases hx
  refine hdelete.bind fun _ => outline_look.bind fun vs => ?_
  exact (Outline.forEach fun v _ => .exec hits_cascade).conseq (fun _ _ _ _ _ h => h)
    fun _ _ _ _ _ _ _ => trivial

/-- No workflow points at a version that is deleted while its own lock is held. -/
theorem workflowsAt_removed {v : Id × WorkflowVersion} {own : Pending store} {db : Db store}
    {log : Log store Op} (hpends : Pends own db) (h : (removed numbers v).holds own log db) :
    answer (.workflowsAt v.1) (overlay own db) = [] := by
  simp only [answer, List.map_eq_nil_iff, List.filter_eq_nil_iff]
  rintro ⟨id, w⟩ hmem hversion
  obtain ⟨v', hv', -⟩ := (hpends.held.loc (.workflow id)).pointer w v.1 (mem_workflows.mp hmem)
    (of_decide_eq_true hversion)
  have hover : (overlay own db).lookup (Key.version v.1) = some (.gone v.2) :=
    @lookup_overlay_of_some store own db (Key.version v.1) _ h
  cases hover.symm.trans hv'

theorem outline_deleteWorkflowVersion {w : Id × Workflow} {v : Id × WorkflowVersion}
    (hfree : w.2.version ≠ some v.1) :
    Outline (pends numbers) ((opened numbers w).and (has numbers w.1 v)) (deleteWorkflowVersion v.1)
      fun _ => .top := by
  refine outline_ask.bind fun hasRuns => ?_
  cases hasRuns with
  | true => exact .throw _
  | false =>
    have hdelete : Outline (pends numbers) ((opened numbers w).and (has numbers w.1 v))
        (execRow (.version v.1) .deleteWorkflowVersion) fun _ => removed numbers v := by
      refine .exec_cases (hits_version ?_) fun own log db _ h hx => ?_
      · rintro own log db new hpends ⟨hown, hlock, hrow, hid⟩ hx
        rw [hrow] at hx
        cases hx
        have hover : (overlay own db).lookup (Key.workflow w.1) = some (.live w.2) :=
          @lookup_overlay_of_some store own db (Key.workflow w.1) _ (opened_lookup hown)
        have hdeletes : Deletes own := by
          intro id v' hv'
          rw [opened_version hown] at hv'
          cases hv'
        rw [← hid] at hlock hover
        have hmoves := moves_deleteVersion hrow hlock
          (hpends.held.loc (.workflow v.2.workflowId)) fun w' hw' => by
            rw [hover] at hw'
            cases hw'
            exact hfree
        exact ⟨hpends.deleteVersion hdeletes hrow hmoves, AList.lookup_insert own⟩
      · obtain ⟨-, -, hrow, -⟩ := h
        rw [hrow] at hx
        cases hx
    have hnone : Outline (pends numbers) (removed numbers v) (query (.workflowsAt v.1))
        fun ws : List Id => .always (ws = []) := by
      refine outline_query fun own log db ws hpends hremoved hws => ?_
      exact hws.symm.trans (workflowsAt_removed hpends hremoved)
    refine hdelete.bind fun _ => hnone.bind fun (ws : List Id) => ?_
    refine (Outline.forEach fun w hw => .exec ?_).conseq (fun _ _ _ _ _ h => h)
      fun _ _ _ _ _ _ _ => trivial
    intro own log db new _ _ hws _
    rw [show ws = [] from hws] at hw
    cases hw

end Pivox.WorkflowVersions
