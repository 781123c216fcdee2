import Pivox.Sql.Pages
import Pivox.WorkflowVersions.Versions

/-!
The listing of a workflow's versions, which goes by their ids: the order of their numbers, and what
a scan of it page by page comes to, as long as each version is created with an id above those so far.
-/

namespace Pivox.WorkflowVersions
open ReadCommitted Transition Sql
open Workflows (WorkflowVersion)

def clampPageSize (pageSize : Int) : Nat :=
  if pageSize ≤ 0 then 100 else if 1000 < pageSize then 1000 else pageSize.toNat

/- The page token is taken as what it decodes to: none is one that does not decode. -/
structure ListWorkflowVersionsRequest where
  slug : Option String
  pageSize : Int
  pageToken : Option (Option Id)

def versionsPage (db : Db store) (workflowId : Id) (cursor : Option Id) (pageSize : Int) :
    List (Id × WorkflowVersion) × Option Id :=
  page Prod.fst (versionsOf db workflowId) cursor (clampPageSize pageSize)

/- Its two reads are statements of their own. -/
def listWorkflowVersions (scope : RequestScope) (req : ListWorkflowVersionsRequest)
    (rows laterRows : Db store) : Except Err (List (Id × WorkflowVersion) × Option Id) :=
  match req.slug with
  | none => .error .notFound
  | some slug =>
    match answer (.getWorkflowByParent ⟨scope.orgId, scope.spaceId, slug⟩) rows with
    | none => .error .notFound
    | some wf =>
      match req.pageToken with
      | none => .error (.invalidArgument "page_token")
      | some cursor => .ok (versionsPage laterRows wf.1 cursor req.pageSize)

/-! Ids and numbers -/

/-- Of a workflow, the version with the greater id has the greater number. -/
def Ordered (db : Db store) : Prop :=
  ∀ id id' v v', db.lookup (.version id) = some (.live v) →
    db.lookup (.version id') = some (.live v') → v.workflowId = v'.workflowId → id < id' →
    v.versionNumber < v'.versionNumber

/-- A version is created with an id above those that its workflow has had. -/
def IdsGrow (db db' : Db store) : Prop :=
  ∀ id v, Created db db' id v → ∀ id' v', slotVersion (db.lookup (.version id')) = some v' →
    v'.workflowId = v.workflowId → id' < id

/-- No version is created after one of its workflow that has drawn a later id. -/
def CreatesLast (st : State store Op) (l : Label store Op) : Prop :=
  ∀ st' ∈ step code st l, IdsGrow st.db st'.db

/- What has come between two states is after what was there. -/
def After (db db' : Db store) : Prop :=
  ∀ id v id' v', slotVersion (db.lookup (.version id)) = some v →
    db.lookup (.version id') = none → db'.lookup (.version id') = some (.live v') →
    v.workflowId = v'.workflowId → id < id'

variable {db db' : Db store} {st st' : State store Op}

/- A version that is there now was there before, or is created. -/
theorem live_or_created (hgrows : guarded.Grows db db') {id : Id} {v : WorkflowVersion}
    (hlive : db'.lookup (.version id) = some (.live v)) :
    db.lookup (.version id) = some (.live v) ∨ Created db db' id v := by
  have hstays : VersionStays (db.lookup (.version id)) (db'.lookup (.version id)) :=
    hgrows.stays (.version id)
  cases hrow : db.lookup (.version id) with
  | none => exact .inr ⟨hrow, hlive⟩
  | some slot =>
    left
    cases slot with
    | gone g =>
      rw [hstays.gone g hrow] at hlive
      cases hlive
    | live l =>
      obtain hnow | hnow := hstays.live l hrow
      · rw [← hnow, hlive]
      · rw [hnow] at hlive
        cases hlive

theorem Ordered.step (h : Ordered db) (hgrows : guarded.Grows db db') (hnew : CreatesAbove db db')
    (hids : IdsGrow db db') : Ordered db' := by
  intro id id' v v' hv hv' hwf hlt
  obtain hold | hcreated := live_or_created hgrows hv
  · obtain hold' | hcreated' := live_or_created hgrows hv'
    · exact h id id' v v' hold hold' hwf hlt
    · exact hnew.above id' v' hcreated' id v hold hwf
  · obtain hold' | hcreated' := live_or_created hgrows hv'
    · have hbefore := hids id v hcreated id' v' (by rw [hold']; rfl) hwf.symm
      exact absurd hlt hbefore.asymm
    · exact absurd (hnew.one id id' v v' hcreated hcreated') hlt.ne

theorem After.trans {a b c : Db store} (hab : After a b) (hbc : After b c)
    (hgrows : guarded.Grows a b) (hgrows' : guarded.Grows b c) : After a c := by
  intro id v id' v' hv hnone hlive hwf
  have hthere : slotVersion (b.lookup (.version id)) = some v :=
    VersionStays.slotVersion (hgrows.stays (.version id)) hv
  obtain hold | hcreated := live_or_created hgrows' hlive
  · exact hab id v id' v' hv hnone hold hwf
  · exact hbc id v id' v' hthere hcreated.before hlive hwf

theorem IdsGrow.after (h : IdsGrow db db') : After db db' :=
  fun id v id' v' hv hnone hlive hwf => h id' v' ⟨hnone, hlive⟩ id v hv hwf

theorem After.refl (db : Db store) : After db db := by
  intro id v id' v' _ hnone hlive
  rw [hnone] at hlive
  cases hlive

/-! Runs -/

theorem meets_contract (st : State store Op) (l : Label store Op) :
    (contract false).Meets code st l :=
  Guarded.meets_of_fit fun _ _ => nofun

theorem ok_step {l : Label store Op} (hok : st.Ok (contract false))
    (hstep : step code st l = some st') :
    st'.Ok (contract false) ∧ guarded.Grows st.db st'.db ∧ CreatesAbove st.db st'.db := by
  obtain ⟨hok', heq | ⟨p, s, a, -, -, hguar⟩⟩ := hok.step contract_safe (meets_contract st l) hstep
  · refine ⟨hok', heq ▸ .refl _, ?_⟩
    have hnone : ∀ id v, ¬ Created st.db st'.db id v := by
      intro id v hcreated
      have hnow := hcreated.now
      rw [heq, hcreated.before] at hnow
      cases hnow
    exact ⟨fun id v h => absurd h (hnone id v), fun id _ v _ h => absurd h (hnone id v)⟩
  · exact ⟨hok', hguar.1.2, hguar.2⟩

/-- What holds of the states of a run that creates its versions in the order of their ids. -/
theorem ordered_runs (hok : st.Ok (contract false)) (hordered : Ordered st.db)
    (h : Runs (step code) CreatesLast st st') :
    st'.Ok (contract false) ∧ Ordered st'.db ∧ guarded.Grows st.db st'.db ∧ After st.db st'.db := by
  refine h.invariant (I := fun st' => st'.Ok (contract false) ∧ Ordered st'.db ∧
    guarded.Grows st.db st'.db ∧ After st.db st'.db) ⟨hok, hordered, .refl _, .refl _⟩ ?_
  rintro st' l st'' ⟨hok', hordered', hgrows, hafter⟩ hlast hstep
  obtain ⟨hok'', hgrows', hnew⟩ := ok_step hok' hstep
  have hids := hlast st'' hstep
  exact ⟨hok'', hordered'.step hgrows' hnew hids, hgrows.trans hgrows',
    hafter.trans hids.after hgrows hgrows'⟩

/-! Pages -/

theorem one_le_clampPageSize (pageSize : Int) : 1 ≤ clampPageSize pageSize := by
  unfold clampPageSize
  split_ifs <;> omega

theorem nodup_versionsOf (db : Db store) (workflowId : Id) :
    ((versionsOf db workflowId).map Prod.fst).Nodup := by
  have hversions : (versions db).Nodup := by
    refine nodup_collected (fun v => ⟨.version v.1, .live v.2⟩) fun e v h => ?_
    split at h <;> cases h
    rfl
  refine (hversions.filter _).map_on fun v hv v' hv' hid => ?_
  have hrow := (mem_versionsOf.mp hv).1
  have hrow' := (mem_versionsOf.mp hv').1
  rw [hid, hrow'] at hrow
  simp only [Option.some.injEq, VersionSlot.live.injEq] at hrow
  exact Prod.ext hid hrow.symm

theorem mem_versionsPage {workflowId : Id} {cursor : Option Id} {pageSize : Int}
    {row : Id × WorkflowVersion} (h : row ∈ (versionsPage db workflowId cursor pageSize).1) :
    row ∈ versionsOf db workflowId :=
  (mem_remaining.mp ((page_isBeginning (one_le_clampPageSize pageSize)).subset h)).1

/-- A page of ordered versions goes by their numbers. -/
theorem Ordered.pairwise_page (h : Ordered db) (workflowId : Id) (cursor : Option Id)
    (pageSize : Int) : (versionsPage db workflowId cursor pageSize).1.Pairwise
      fun v v' => v.2.versionNumber < v'.2.versionNumber := by
  have hids : (versionsPage db workflowId cursor pageSize).1.Pairwise fun v v' => v.1 < v'.1 :=
    (pairwise_remaining (nodup_versionsOf db workflowId)).sublist
      (page_isBeginning (one_le_clampPageSize pageSize)).sublist
  refine hids.imp_of_mem fun hv hv' hlt => ?_
  obtain ⟨hlive, hwf⟩ := mem_versionsOf.mp (mem_versionsPage hv)
  obtain ⟨hlive', hwf'⟩ := mem_versionsOf.mp (mem_versionsPage hv')
  exact h _ _ _ _ hlive hlive' (hwf.trans hwf'.symm) hlt

/-- A scan: a page after the other, each of a later state, until there is no next one. -/
inductive Scan (workflowId : Id) : State store Op → Option Id → List (Id × WorkflowVersion) →
    State store Op → Prop where
  | last {st : State store Op} {cursor : Option Id} {rows : List (Id × WorkflowVersion)}
      {pageSize : Int} (h : versionsPage st.db workflowId cursor pageSize = (rows, none)) :
      Scan workflowId st cursor rows st
  | next {st st' st'' : State store Op} {cursor : Option Id} {c : Id}
      {rows rest : List (Id × WorkflowVersion)} {pageSize : Int}
      (h : versionsPage st.db workflowId cursor pageSize = (rows, some c))
      (hlater : Runs (step code) CreatesLast st st')
      (hrest : Scan workflowId st' (some c) rest st'') :
      Scan workflowId st cursor (rows ++ rest) st''

theorem Scan.runs {workflowId : Id} {cursor : Option Id} {rows : List (Id × WorkflowVersion)}
    (h : Scan workflowId st cursor rows st') : Runs (step code) CreatesLast st st' := by
  induction h with
  | last _ => exact .refl _
  | next _ hlater _ ih => exact hlater.trans ih

/-- A scan returns every version after its cursor that is there at its end. -/
theorem Scan.mem_rows {workflowId : Id} {cursor : Option Id} {rows : List (Id × WorkflowVersion)}
    (h : Scan workflowId st cursor rows st') (hok : st.Ok (contract false))
    (hordered : Ordered st.db) {row : Id × WorkflowVersion}
    (hrow : row ∈ versionsOf st'.db workflowId) (hafter : isAfter Prod.fst cursor row = true) :
    row ∈ rows := by
  induction h with
  | last hpage =>
    obtain hmem | ⟨c, hnext, -⟩ := mem_page_or_lt (one_le_clampPageSize _)
      (nodup_versionsOf _ workflowId) (mem_remaining.mpr ⟨hrow, hafter⟩)
    · rw [← versionsPage, hpage] at hmem
      exact hmem
    · rw [← versionsPage, hpage] at hnext
      cases hnext
  | @next st₁ st₂ st₃ cursor c rows rest pageSize hpage hlater hrest ih =>
    obtain ⟨hok₂, hordered₂, -, -⟩ := ordered_runs hok hordered hlater
    obtain ⟨-, -, hgrows, hnew⟩ := ordered_runs hok hordered (hlater.trans hrest.runs)
    obtain ⟨hlive, hwf⟩ := mem_versionsOf.mp hrow
    suffices h : row ∈ rows ∨ c < row.1 by
      obtain hmem | hlt := h
      · exact List.mem_append_left _ hmem
      · exact List.mem_append_right _ (ih hok₂ hordered₂ hrow (decide_eq_true hlt))
    obtain hold | hcreated := live_or_created hgrows hlive
    · obtain hmem | ⟨c', hnext, hlt⟩ := mem_page_or_lt (one_le_clampPageSize pageSize)
        (nodup_versionsOf st₁.db workflowId)
        (mem_remaining.mpr ⟨mem_versionsOf.mpr ⟨hold, hwf⟩, hafter⟩)
      · rw [← versionsPage, hpage] at hmem
        exact .inl hmem
      · rw [← versionsPage, hpage] at hnext
        cases hnext
        exact .inr hlt
    · -- The cursor is the id of a version that was there before this one.
      have hcursor : (versionsPage st₁.db workflowId cursor pageSize).2 = some c := by rw [hpage]
      obtain ⟨last, hlast, rfl⟩ := next_mem_page (one_le_clampPageSize pageSize) hcursor
      obtain ⟨hthere, hlastwf⟩ := mem_versionsOf.mp (mem_versionsPage hlast)
      exact .inr (hnew _ last.2 _ row.2 (by rw [hthere]; rfl) hcreated.before hlive
        (hlastwf.trans hwf.symm))

/-- The versions are listed in the order of their numbers, and a scan that has come to the version
with some number returns every one with a greater number that is there at its end. -/
structure ListsInOrder (st : State store Op) : Prop where
  page : ∀ scope req rows page next,
    listWorkflowVersions scope req rows st.db = .ok (page, next) →
      page.Pairwise fun v v' => v.2.versionNumber < v'.2.versionNumber
  scan : ∀ id v st' st'' rows, st.db.lookup (.version id) = some (.live v) →
    Runs (step code) CreatesLast st st' → Scan v.workflowId st' (some id) rows st'' →
      ∀ row ∈ versionsOf st''.db v.workflowId, v.versionNumber < row.2.versionNumber → row ∈ rows

theorem listsInOrder (hok : st.Ok (contract false)) (hordered : Ordered st.db) :
    ListsInOrder st where
  page scope req rows page next h := by
    unfold listWorkflowVersions at h
    split at h
    · cases h
    · split at h
      · cases h
      · split at h
        · cases h
        · rename_i wf _ _ cursor _
          have hpage := hordered.pairwise_page wf.1 cursor req.pageSize
          rw [Except.ok.inj h] at hpage
          exact hpage
  scan id v st' st'' rows hlive hrun hscan row hrow hlt := by
    obtain ⟨hok', hordered', -, -⟩ := ordered_runs hok hordered hrun
    obtain ⟨-, -, hgrows, hnew⟩ := ordered_runs hok hordered (hrun.trans hscan.runs)
    obtain ⟨hrowlive, hwf⟩ := mem_versionsOf.mp hrow
    have hid : id < row.1 := by
      obtain hold | hcreated := live_or_created hgrows hrowlive
      · by_contra hge
        obtain heq | hlt' := (not_lt.mp hge).eq_or_lt
        · rw [heq, hlive] at hold
          simp only [Option.some.injEq, VersionSlot.live.injEq] at hold
          rw [hold] at hlt
          exact lt_irrefl _ hlt
        · exact lt_asymm hlt (hordered _ _ _ _ hold hlive hwf hlt')
      · exact hnew _ v _ row.2 (by rw [hlive]; rfl) hcreated.before hrowlive hwf.symm
    exact hscan.mem_rows hok' hordered' hrow (decide_eq_true hid)

/-- In every run that creates its versions in the order of their ids. -/
theorem versions_in_order (hdb : Intact db) (hordered : Ordered db)
    (h : Runs (step code) CreatesLast (.rest db) st) : ListsInOrder st := by
  have hrest : (State.rest db).Ok (contract false) := State.ok_rest ⟨intact_local hdb, nofun⟩
  obtain ⟨hok, hordered', -, -⟩ := ordered_runs hrest hordered h
  exact listsInOrder hok hordered'

/-! Two creates that overlap -/

def idsGrow (db db' : Db store) : Bool :=
  (versions db').all fun v => (db.lookup (.version v.1)).isSome ||
    (versions db ++ deletedVersions db).all fun o =>
      o.2.workflowId ≠ v.2.workflowId || decide (o.1 < v.1)

theorem slotVersion_iff {id : Id} {v : WorkflowVersion} :
    slotVersion (db.lookup (.version id)) = some v ↔
      (id, v) ∈ versions db ++ deletedVersions db := by
  rw [List.mem_append, mem_versions, mem_deletedVersions]
  cases db.lookup (.version id) with
  | none => simp [slotVersion]
  | some slot => cases slot <;> simp [slotVersion]

theorem idsGrow_iff : IdsGrow db db' ↔ idsGrow db db' = true := by
  simp only [idsGrow, List.all_eq_true, Bool.or_eq_true, decide_eq_true_eq, Prod.forall,
    ← slotVersion_iff, mem_versions]
  constructor
  · intro h id v hv
    cases hrow : db.lookup (.version id) with
    | some row => exact .inl rfl
    | none =>
      refine .inr fun id' o ho => ?_
      by_cases hwf : o.workflowId = v.workflowId
      · exact .inr (h id v ⟨hrow, hv⟩ id' o ho hwf)
      · exact .inl hwf
  · intro h id v hcreated id' o ho hwf
    obtain hsome | hall := h id v hcreated.now
    · rw [hcreated.before] at hsome
      cases hsome
    · exact (hall id' o ho).resolve_left (not_not.mpr hwf)

instance (db db' : Db store) : Decidable (IdsGrow db db') :=
  decidable_of_iff _ idsGrow_iff.symm

instance (st : State store Op) (l : Label store Op) : Decidable (CreatesLast st l) :=
  inferInstanceAs (Decidable (∀ st' ∈ step code st l, _))

theorem ordered_empty : Ordered ∅ := fun _ _ _ _ h => by cases h

/- Both draw their ids before the first of them locks the workflow. -/
def alignedTrace : List (Label store Op) :=
  createTrace ++ (versionTrace 1 21 "a").take 2 ++ (versionTrace 2 22 "b").take 2 ++
    (versionTrace 1 21 "a").drop 2 ++ (versionTrace 2 22 "b").drop 2

def aligned : State store Op := (exec (step code) (.rest ∅) alignedTrace).get (by decide)

theorem versions_in_order_aligned :
    listWorkflowVersions acme ⟨some "deploy", 0, some none⟩ aligned.db aligned.db =
        .ok ([(21, ⟨10, 1, "", "a"⟩), (22, ⟨10, 2, "", "b"⟩)], none) ∧
      ListsInOrder aligned :=
  ⟨by decide, versions_in_order intact_empty ordered_empty
    (Runs.of_exec alignedTrace (Option.some_get _).symm (by decide))⟩

/- The first draws its id and waits; the second draws a later one, and commits before the first. -/
def overlapTrace : List (Label store Op) :=
  createTrace ++ (versionTrace 1 21 "a").take 2 ++ versionTrace 2 22 "b" ++
    (versionTrace 1 21 "a").drop 2

def overlapped : State store Op := (exec (step code) (.rest ∅) overlapTrace).get (by decide)

theorem versions_not_in_order :
    ¬ ∀ st : State store Op, Runs (step code) (fun _ _ => True) (.rest ∅) st →
      ListsInOrder st := by
  intro h
  have hrun : Runs (step code) (fun _ _ => True) (.rest ∅) overlapped :=
    Runs.of_exec_free overlapTrace (Option.some_get _).symm
  have hpage := (h overlapped hrun).page acme ⟨some "deploy", 0, some none⟩ overlapped.db
    [(21, ⟨10, 2, "", "a"⟩), (22, ⟨10, 1, "", "b"⟩)] none (by decide)
  revert hpage
  decide

end Pivox.WorkflowVersions
