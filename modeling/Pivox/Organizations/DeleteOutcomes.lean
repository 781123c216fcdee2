import Pivox.Organizations.WriteOnce
import Pivox.ReadCommitted.Triple

/-!
What the jobs of DeleteOrganization and DeleteSpace commit: all of a deletion, or a refusal. The
cancellations with which DeleteOrganization begins are committed either way.
-/

namespace Pivox.Organizations
open ReadCommitted Transition

/-! The rows of operations -/

/-- What any statement leaves of the row of an operation. -/
structure OperationKept (old new : Option (Slot Operation)) : Prop where
  done : ∀ o o', old = some (.live o) → new = some (.live o') → o.done = true → o'.done = true
  org : ∀ o o', old = some (.live o) → new = some (.live o') → o'.orgId = o.orgId ∨ o'.orgId = none
  gone : old = some .gone → new = some .gone
  used : old ≠ none → new ≠ none

theorem OperationKept.refl (row : Option (Slot Operation)) : OperationKept row row where
  done o o' h h' hd := by
    cases h.symm.trans h'
    exact hd
  org o o' h h' := by
    cases h.symm.trans h'
    exact .inl rfl
  gone h := h
  used h := h

theorem OperationKept.live {a b : Option (Slot Operation)} (h : OperationKept a b) {o' : Operation}
    (hb : b = some (.live o')) (ha : a ≠ none) : ∃ o, a = some (.live o) := by
  obtain _ | o | _ := a
  · contradiction
  · exact ⟨o, rfl⟩
  · simp [h.gone rfl] at hb

theorem OperationKept.trans {a b c : Option (Slot Operation)} (h : OperationKept a b)
    (h' : OperationKept b c) : OperationKept a c where
  done o o'' ha hc hd := by
    obtain ⟨o', hb⟩ := h'.live hc (h.used (by simp [ha]))
    exact h'.done o' o'' hb hc (h.done o o' ha hb hd)
  org o o'' ha hc := by
    obtain ⟨o', hb⟩ := h'.live hc (h.used (by simp [ha]))
    obtain hsame | hnone := h'.org o' o'' hb hc
    · rw [hsame]
      exact h.org o o' ha hb
    · exact .inr hnone
  gone ha := h'.gone (h.gone ha)
  used ha := h'.used (h.used ha)

theorem OperationKept.fresh (new : Option (Slot Operation)) : OperationKept none new where
  done _ _ h := by cases h
  org _ _ h := by cases h
  gone h := by cases h
  used h := absurd rfl h

theorem OperationKept.of_live {o o' : Operation} (hd : o.done = true → o'.done = true)
    (horg : o'.orgId = o.orgId ∨ o'.orgId = none) :
    OperationKept (some (.live o)) (some (.live o')) where
  done _ _ h h' := by
    cases h
    cases h'
    exact hd
  org _ _ h h' := by
    cases h
    cases h'
    exact horg
  gone h := by cases h
  used _ := by simp

theorem OperationKept.delete (o : Operation) : OperationKept (some (.live o)) (some .gone) where
  done _ _ _ h := by cases h
  org _ _ _ h := by cases h
  gone _ := rfl
  used _ := by simp

theorem execOperation_kept {stmt : OperationStmt} {cur new : Option (Slot Operation)}
    (h : execOperation stmt cur = some new) : OperationKept cur new := by
  obtain _ | o | _ := cur
  · exact .fresh new
  · cases stmt with
    | createOperation p now => cases h
    | completeOperation result =>
      cases h
      exact .of_live (fun _ => rfl) (.inl rfl)
    | failOperation code message =>
      cases h
      exact .of_live (fun _ => rfl) (.inl rfl)
    | updateOperationMetadata metadata =>
      cases h
      exact .of_live id (.inl rfl)
    | cancelOperation =>
      simp only [execOperation] at h
      split at h
      · cases h
      · cases h
        exact .of_live (fun _ => rfl) (.inl rfl)
    | cancelRunningOpsForOrg orgId =>
      simp only [execOperation, Option.ite_none_right_eq_some, Option.some.injEq] at h
      rw [← h.2]
      exact .of_live (fun _ => rfl) (.inl rfl)
    | cancelDomainOpsForDomain domainResource =>
      simp only [execOperation, Option.ite_none_right_eq_some, Option.some.injEq] at h
      rw [← h.2]
      exact .of_live (fun _ => rfl) (.inl rfl)
    | deleteOperation =>
      cases h
      exact .delete o
    | deleteExpiredOperations now =>
      simp only [execOperation, Option.ite_none_right_eq_some, Option.some.injEq] at h
      rw [← h.2]
      exact .delete o
    | orgPurged orgId =>
      simp only [execOperation, Option.ite_none_right_eq_some, Option.some.injEq] at h
      rw [← h.2]
      exact .of_live id (.inr rfl)
    | spacePurged spaceId =>
      simp only [execOperation, Option.ite_none_right_eq_some, Option.some.injEq] at h
      rw [← h.2]
      exact .of_live id (.inl rfl)
  · cases stmt <;> cases h

def keptContract : Rowwise store Op where
  good _ _ := True
  change
    | _, .operation _, old, new => OperationKept old new
    | _, _, _, _ => True
  stays
    | .operation _, old, new => OperationKept old new
    | _, _, _ => True
  allow _ _ _ := True
  accept _ _ _ := True
  change_refl log k r := by
    cases k with
    | operation id => exact .refl r
    | _ => trivial
  change_trans log k a b c h h' := by
    cases k with
    | operation id => exact OperationKept.trans h h'
    | _ => trivial
  change_mono log log' k a b _ h := by
    cases k with
    | operation id => exact h
    | _ => trivial
  stays_refl k r := by
    cases k with
    | operation id => exact .refl r
    | _ => trivial
  stays_trans k a b c h h' := by
    cases k with
    | operation id => exact OperationKept.trans h h'
    | _ => trivial
  stays_of_change log k a b h := by
    cases k with
    | operation id => exact h
    | _ => trivial

theorem keptContract_lawful (op : Op) (k : Key) (stmt : Stmt k) : keptContract.Lawful op k stmt := by
  cases k with
  | operation id => exact fun _ _ _ hx _ => ⟨trivial, fun _ _ => execOperation_kept hx⟩
  | _ => exact fun _ _ _ _ _ => ⟨trivial, fun _ _ => trivial⟩

def OperationsKept (db db' : Db store) : Prop :=
  ∀ id, OperationKept (db.lookup (Key.operation id)) (db'.lookup (Key.operation id))

theorem operations_kept {db : Db store} {st st' : State store Op}
    (h : Runs (step code) (fun _ _ => True) (.rest db) st)
    (h' : Runs (step code) (fun _ _ => True) st st') : OperationsKept st.db st'.db := by
  have hkeeps : keptContract.Keeps code :=
    code_keeps (fun op k stmt _ => keptContract_lawful op k stmt)
      (fun _ _ _ => keptContract_lawful _ _ _) fun _ _ _ => keptContract_lawful _ _ _
  intro id
  exact Rowwise.stays_of_runs (fun _ => trivial) hkeeps (fun _ _ _ =>
    ⟨fun _ _ _ _ _ _ _ _ _ _ => trivial, fun _ _ _ _ => trivial⟩) h h' (Key.operation id)

/-! The outcomes -/

/- The query by which DeleteOrganization finds what to cancel. -/
def runningOpsForOrg (orgId : Id) : Query :=
  .operationsWhere fun o => !o.done && o.orgId = some orgId

def ListedRunning (orgId : Id) (ids : List Id) (log : Log store Op) : Prop :=
  Event.read (runningOpsForOrg orgId) ids ∈ log.events

def RunningOf (orgId : Id) (row : Option (Slot Operation)) : Prop :=
  ∃ o, row = some (.live o) ∧ o.done = false ∧ o.orgId = some orgId

/- An operation that is the organization's is done in its new row. -/
def Ended (orgId : Id) (old new : Option (Slot Operation)) : Prop :=
  ∀ o o', old = some (.live o) → o.orgId = some orgId → new = some (.live o') → o'.done = true

def Finished (row : Option (Slot Operation)) : Prop :=
  ∃ o result, row = some (.live o) ∧ o.done = true ∧ o.result = some result

def Failed (row : Option (Slot Operation)) : Prop :=
  ∃ o, row = some (.live o) ∧ o.done = true ∧ o.errorCode = some codeFailedPrecondition

/- The statement of the job has hit the row, and this is what it leaves of it. -/
def OrgDeleted (args : DeleteOrgArgs) (old new : Option (Slot Organization)) : Prop :=
  if args.force then execOrganization (.purgeOrganization args.expectedEtag) old = some new
  else ∃ now, execOrganization (.softDeleteOrganization args.deletedBy now) old = some new

def SpaceDeleted (args : DeleteSpaceArgs) (old new : Option (Slot Space)) : Prop :=
  if args.force then execSpace (.purgeSpace args.expectedEtag) old = some new
  else ∃ now, execSpace (.softDeleteSpace args.deletedBy now) old = some new

/-- Nothing but the row of the operation is changed. -/
def OnlyOwn (operationId : Id) (db db' : Db store) : Prop :=
  ∀ k, k ≠ .operation operationId → db'.lookup k = db.lookup k

structure OrgCompleted (args : DeleteOrgArgs) (ids : List Id) (db db' : Db store) : Prop where
  deleted : OrgDeleted args (db.lookup (Key.organization args.orgId))
    (db'.lookup (Key.organization args.orgId))
  cancelled : ∀ id ∈ ids, Ended args.orgId (db.lookup (Key.operation id))
    (db'.lookup (Key.operation id))
  finished : Finished (db'.lookup (Key.operation args.operationId))

structure SpaceCompleted (args : DeleteSpaceArgs) (db db' : Db store) : Prop where
  deleted : SpaceDeleted args (db.lookup (Key.space args.spaceId))
    (db'.lookup (Key.space args.spaceId))
  finished : Finished (db'.lookup (Key.operation args.operationId))

/- None of the operations listed, other than that of the job, is still running. -/
def NoneRunning (args : DeleteOrgArgs) (ids : List Id) (db : Db store) : Prop :=
  ∀ id ∈ ids, id ≠ args.operationId → ¬ RunningOf args.orgId (db.lookup (Key.operation id))

/-- What a job commits: the whole deletion, or a refusal. -/
def Outcome (log : Log store Op) (db db' : Db store) : Prop :=
  match log.op with
  | .deleteOrg args => ∃ ids, ListedRunning args.orgId ids log ∧ (OrgCompleted args ids db db' ∨
    Failed (db'.lookup (Key.operation args.operationId)) ∧
      (OnlyOwn args.operationId db db' ↔ NoneRunning args ids db))
  | .deleteSpace args => SpaceCompleted args db db' ∨
    Failed (db'.lookup (Key.operation args.operationId)) ∧ OnlyOwn args.operationId db db'
  | _ => True

theorem OperationsKept.trans {db₁ db₂ db₃ : Db store} (h : OperationsKept db₁ db₂)
    (h' : OperationsKept db₂ db₃) : OperationsKept db₁ db₃ :=
  fun id => (h id).trans (h' id)

def outcomeContract : Contract store Op where
  Inv _ := True
  rely _ := OperationsKept
  guar := Outcome
  allow _ _ _ := True
  accept _ _ _ := True
  fit _ _ _ := True
  spared _ := OperationsKept
  rely_refl _ _ _ := .refl _
  rely_trans _ _ _ _ h h' := h.trans h'
  rely_mono _ _ _ _ h := h
  inv_guar _ _ _ _ _ := trivial
  rely_guar _ _ _ _ _ _ h := h

/-! What a job has written -/

variable {own : Pending store} {log : Log store Op} {db db' : Db store}

theorem lookup_operation_of_none {id : Id} (h : own.lookup (Key.operation id) = none)
    (db : Db store) :
    (overlay own db).lookup (Key.operation id) = db.lookup (Key.operation id) :=
  @lookup_overlay_of_none store own db (.operation id) h

theorem lookup_operation_of_some {id : Id} {row : Option (Slot Operation)}
    (h : own.lookup (Key.operation id) = some row) (db : Db store) :
    (overlay own db).lookup (Key.operation id) = row :=
  @lookup_overlay_of_some store own db (.operation id) row h

/- The operations listed are there, and ended in the rows that the job sees. -/
structure Accounted (orgId : Id) (ids : List Id) (own : Pending store) (db : Db store) : Prop where
  known : ∀ id ∈ ids, db.lookup (Key.operation id) ≠ none
  ended : ∀ id ∈ ids, Ended orgId (db.lookup (Key.operation id))
    ((overlay own db).lookup (Key.operation id))

theorem ended_later {orgId id : Id} (hl : Later outcomeContract own log db db')
    (hknown : db.lookup (Key.operation id) ≠ none)
    (h : Ended orgId (db.lookup (Key.operation id)) ((overlay own db).lookup (Key.operation id))) :
    Ended orgId (db'.lookup (Key.operation id)) ((overlay own db').lookup (Key.operation id)) := by
  intro o o' ho horg ho'
  cases hown : own.lookup (Key.operation id) with
  | some row =>
    have hmem : (Key.operation id) ∈ own := AList.lookup_isSome.mp (by simp [hown])
    rw [hl.own _ hmem] at ho
    rw [lookup_operation_of_some hown] at ho'
    exact h o o' ho horg ((lookup_operation_of_some hown db).trans ho')
  | none =>
    rw [lookup_operation_of_none hown, ho] at ho'
    cases ho'
    have hkept : OperationKept (db.lookup (Key.operation id)) (db'.lookup (Key.operation id)) :=
      hl.rely id
    obtain ⟨o₀, ho₀⟩ := hkept.live ho hknown
    have horg₀ : o₀.orgId = some orgId := by
      obtain hsame | hnone := hkept.org o₀ o ho₀ ho
      · exact hsame ▸ horg
      · simp [hnone] at horg
    have hd := h o₀ o₀ ho₀ horg₀ ((lookup_operation_of_none hown db).trans ho₀)
    exact hkept.done o₀ o ho₀ ho hd

theorem Accounted.later {orgId : Id} {ids : List Id} (h : Accounted orgId ids own db)
    (hl : Later outcomeContract own log db db') : Accounted orgId ids own db' where
  known id hid := (hl.rely id).used (h.known id hid)
  ended id hid := ended_later hl (h.known id hid) (h.ended id hid)

theorem lookup_operation_insert (own : Pending store) (db : Db store) (id : Id)
    (row : Option (Slot Operation)) :
    (overlay (own.insert (Key.operation id) row) db).lookup (Key.operation id) = row :=
  lookup_overlay_insert own db (Key.operation id) row

theorem lookup_operation_insert_ne {key : Key} {id : Id} (h : key ≠ .operation id)
    (own : Pending store) (db : Db store) (row : Option (Row key)) :
    (overlay (own.insert key row) db).lookup (Key.operation id) =
      (overlay own db).lookup (Key.operation id) :=
  @lookup_overlay_insert_ne store own db key (.operation id) row h.symm

theorem Accounted.aside {orgId : Id} {ids : List Id} (h : Accounted orgId ids own db) {key : Key}
    (hkey : ∀ id, key ≠ .operation id) (row : Option (Row key)) :
    Accounted orgId ids (own.insert key row) db where
  known := h.known
  ended id hid := by
    rw [lookup_operation_insert_ne (hkey id)]
    exact h.ended id hid

/- A statement on the row of an operation that is there keeps it done. -/
theorem Accounted.insert {orgId id : Id} {ids : List Id} (h : Accounted orgId ids own db)
    {o : Operation} {new : Option (Slot Operation)}
    (hrow : (overlay own db).lookup (Key.operation id) = some (.live o))
    (hkept : OperationKept (some (.live o)) new) :
    Accounted orgId ids (own.insert (.operation id) new) db where
  known := h.known
  ended id' hid := by
    by_cases heq : id' = id
    · subst heq
      rw [lookup_operation_insert]
      exact fun o₀ o' ho horg ho' => hkept.done o o' rfl ho' (h.ended id' hid o₀ o ho horg hrow)
    · rw [lookup_operation_insert_ne (by simpa using Ne.symm heq)]
      exact h.ended id' hid

def OperationStmt.inserts : OperationStmt → Bool
  | .createOperation _ _ => true
  | _ => false

theorem execOperation_live {stmt : OperationStmt} {cur new : Option (Slot Operation)}
    (h : execOperation stmt cur = some new) (hstmt : stmt.inserts = false) :
    ∃ o, cur = some (.live o) := by
  obtain _ | o | _ := cur
  · cases stmt <;> simp [execOperation, OperationStmt.inserts] at h hstmt
  · exact ⟨o, rfl⟩
  · cases stmt <;> cases h

theorem Accounted.operation {orgId id : Id} {ids : List Id} (h : Accounted orgId ids own db)
    {stmt : OperationStmt} {new : Option (Slot Operation)} (hstmt : stmt.inserts = false)
    (hx : execOperation stmt ((overlay own db).lookup (Key.operation id)) = some new) :
    Accounted orgId ids (own.insert (.operation id) new) db := by
  obtain ⟨o, ho⟩ := execOperation_live hx hstmt
  exact h.insert ho (ho ▸ execOperation_kept hx)

/- The pending writes are cancellations of operations listed, and those out of `rest` are ended. -/
structure Cancelling (orgId : Id) (ids rest : List Id) (own : Pending store) (db : Db store) :
    Prop where
  only : ∀ k ∈ own, ∃ id ∈ ids, k = .operation id ∧ RunningOf orgId (db.lookup (Key.operation id))
  done : ∀ id o, own.lookup (Key.operation id) = some (some (.live o)) → o.done = true
  known : ∀ id ∈ ids, db.lookup (Key.operation id) ≠ none
  ended : ∀ id ∈ ids, id ∉ rest → Ended orgId (db.lookup (Key.operation id))
    ((overlay own db).lookup (Key.operation id))

theorem Cancelling.later {orgId : Id} {ids rest : List Id} (h : Cancelling orgId ids rest own db)
    (hl : Later outcomeContract own log db db') : Cancelling orgId ids rest own db' where
  only k hk := by
    obtain ⟨id, hid, rfl, hrunning⟩ := h.only k hk
    exact ⟨id, hid, rfl, (hl.own _ hk).symm ▸ hrunning⟩
  done := h.done
  known id hid := (hl.rely id).used (h.known id hid)
  ended id hid hrest := ended_later hl (h.known id hid) (h.ended id hid hrest)

theorem Cancelling.accounted {orgId : Id} {ids : List Id} (h : Cancelling orgId ids [] own db) :
    Accounted orgId ids own db :=
  ⟨h.known, fun id hid => h.ended id hid (by simp)⟩

theorem Cancelling.not_mem {orgId : Id} {ids rest : List Id} (h : Cancelling orgId ids rest own db)
    {key : Key} (hkey : ∀ id, key ≠ .operation id) : own.lookup key = none := by
  refine AList.lookup_eq_none.mpr fun hmem => ?_
  obtain ⟨id, -, heq, -⟩ := h.only key hmem
  exact hkey id heq

theorem Cancelling.hit {orgId id : Id} {ids rest : List Id} {new : Option (Slot Operation)}
    (h : Cancelling orgId ids (id :: rest) own db) (hid : id ∈ ids)
    (hx : execOperation (.cancelRunningOpsForOrg orgId)
      ((overlay own db).lookup (Key.operation id)) = some new) :
    Cancelling orgId ids rest (own.insert (.operation id) new) db := by
  obtain ⟨o, ho⟩ := execOperation_live hx rfl
  rw [ho] at hx
  simp only [execOperation, Option.ite_none_right_eq_some, Option.some.injEq] at hx
  obtain ⟨⟨hd, horg⟩, rfl⟩ := hx
  have hown : own.lookup (Key.operation id) = none := by
    cases hown : own.lookup (Key.operation id) with
    | none => rfl
    | some row =>
      have hrow : row = some (.live o) := (lookup_operation_of_some hown db).symm.trans ho
      have hdone := h.done id o (hrow ▸ hown)
      simp [hd] at hdone
  have hdb : db.lookup (Key.operation id) = some (.live o) :=
    (lookup_operation_of_none hown db).symm.trans ho
  refine ⟨fun k hk => ?_, fun id' o' hrow => ?_, h.known, fun id' hid' hrest => ?_⟩
  · obtain rfl | hk := (AList.mem_insert own).mp hk
    · exact ⟨id, hid, rfl, o, hdb, hd, horg⟩
    · exact h.only k hk
  · by_cases heq : id' = id
    · subst heq
      rw [AList.lookup_insert] at hrow
      cases hrow
      rfl
    · rw [AList.lookup_insert_ne (by simpa using heq)] at hrow
      exact h.done id' o' hrow
  · by_cases heq : id' = id
    · subst heq
      rw [lookup_operation_insert]
      rintro o₀ o' - - ⟨⟩
      rfl
    · rw [lookup_operation_insert_ne (by simpa using Ne.symm heq)]
      exact h.ended id' hid' (by simp [heq, hrest])

theorem Cancelling.miss {orgId id : Id} {ids rest : List Id}
    (h : Cancelling orgId ids (id :: rest) own db)
    (hx : execOperation (.cancelRunningOpsForOrg orgId)
      ((overlay own db).lookup (Key.operation id)) = none) : Cancelling orgId ids rest own db := by
  refine ⟨h.only, h.done, h.known, fun id' hid' hrest => ?_⟩
  by_cases heq : id' = id
  · subst heq
    intro o o' ho horg ho'
    cases hown : own.lookup (Key.operation id') with
    | some row =>
      rw [lookup_operation_of_some hown] at ho'
      exact h.done id' o' (ho' ▸ hown)
    | none =>
      rw [lookup_operation_of_none hown] at ho' hx
      cases ho.symm.trans ho'
      simpa [ho, execOperation, horg] using hx
  · exact h.ended id' hid' (by simp [heq, hrest])

/-! The jobs -/

def cancelling (args : DeleteOrgArgs) (ids rest : List Id) : Assertion outcomeContract where
  holds own log db := log.op = .deleteOrg args ∧ ListedRunning args.orgId ids log ∧ rest ⊆ ids ∧
    Cancelling args.orgId ids rest own db
  later _ _ _ _ h hl := ⟨h.1, h.2.1, h.2.2.1, h.2.2.2.later hl⟩
  add _ _ _ _ h := ⟨h.1, List.mem_cons_of_mem _ h.2.1, h.2.2⟩

/- What is known in a job of DeleteOrganization that has listed the running operations. -/
def inOrgJob (args : DeleteOrgArgs) (H : List Id → Pending store → Db store → Prop)
    (hlater : ∀ ids own log db db', H ids own db → Later outcomeContract own log db db' →
      H ids own db') : Assertion outcomeContract where
  holds own log db := log.op = .deleteOrg args ∧ ∃ ids, ListedRunning args.orgId ids log ∧ H ids own db
  later own log db db' h hl := by
    obtain ⟨hop, ids, hlisted, hH⟩ := h
    exact ⟨hop, ids, hlisted, hlater ids own log db db' hH hl⟩
  add _ _ _ _ h := ⟨h.1, h.2.imp fun _ hc => ⟨List.mem_cons_of_mem _ hc.1, hc.2⟩⟩

/- All that is pending is the cancellations. -/
def cancelled (args : DeleteOrgArgs) : Assertion outcomeContract :=
  inOrgJob args (fun ids => Cancelling args.orgId ids []) fun _ _ _ _ _ h hl => h.later hl

theorem known_of_listed {holds : Operation → Bool} {rows : Db store} {id : Id}
    (h : id ∈ idsWhere holds (operations rows)) : rows.lookup (Key.operation id) ≠ none := by
  simp only [idsWhere, List.mem_map, List.mem_filter, Prod.exists] at h
  obtain ⟨_, o, ⟨hmem, -⟩, rfl⟩ := h
  simp [mem_operations.mp hmem]

theorem triple_throw {α : Type} {P : Assertion outcomeContract} {Q : α → Assertion outcomeContract}
    (e : Err) : Triple P (throw e : Service α) Q fun _ => .top :=
  (@Triple.throw store Op Err α outcomeContract Q (fun _ => .top) e).conseq
    (fun _ _ _ _ => trivial) (fun _ _ _ _ h => h) fun _ _ _ _ h => h

/- Nothing is written yet by a session about `op`. -/
def jobOpening (op : Op) : Assertion outcomeContract := (Assertion.about op).and .unwritten

theorem triple_cancelRunningOpsForOrg (args : DeleteOrgArgs) :
    Triple (jobOpening (.deleteOrg args)) (cancelRunningOpsForOrg args.orgId) (fun _ => cancelled args)
      fun _ => .top := by
  have hquery : Triple (jobOpening (.deleteOrg args)) (query (runningOpsForOrg args.orgId))
      (fun ids => cancelling args ids ids) fun _ => .top := by
    refine Triple.read fun own log db ids _ hopen hids => ?_
    obtain ⟨hop, hown⟩ := hopen
    obtain rfl : own = ∅ := hown
    refine ⟨hop, List.mem_cons_self, List.Subset.refl _, ?_, ?_, fun id hid => ?_, ?_⟩
    · exact fun k hk => absurd hk (AList.notMem_empty k)
    · exact fun id o h => by simp at h
    · subst hids
      exact @known_of_listed (fun o => !o.done && o.orgId = some args.orgId) db id hid
    · exact fun id hid hrest => absurd hid hrest
  refine Triple.bind hquery fun (ids : List Id) => ?_
  refine (Triple.forEach (P := cancelling args ids) (fun id rest => Triple.exec ?_ ?_) ids).conseq
    (fun _ _ _ h => h) (fun _ own log db h => ⟨h.1, ids, h.2.1, h.2.2.2⟩) fun _ _ _ _ h => h
  · rintro own log db new - ⟨hop, hlisted, hrest, h⟩ hx
    have hids := List.cons_subset.mp hrest
    exact ⟨hop, hlisted, hids.2, h.hit hids.1 hx⟩
  · rintro own log db ⟨hop, hlisted, hrest, h⟩ hx
    exact ⟨hop, hlisted, (List.cons_subset.mp hrest).2, h.miss hx⟩

theorem triple_jobCompleteTx {Q : Assertion outcomeContract} :
    Triple Q jobCompleteTx (fun _ => Q) fun _ => .top := by
  refine Triple.bind (Triple.ask fun _ own log db h => Q.add own log db _ h) fun (completed : Bool) => ?_
  cases completed with
  | true => exact @Triple.pure store Op Err Unit outcomeContract (fun _ => Q) _ ()
  | false => exact triple_throw _

theorem triple_returned {α : Type} {row : Option (Slot α)} {P : Assertion outcomeContract} :
    Triple P (returned row : Service α) (fun _ => P) fun _ => .top := by
  obtain _ | a | _ := row
  · exact triple_throw _
  · exact @Triple.pure store Op Err α outcomeContract (fun _ => P) _ a
  · exact triple_throw _

theorem triple_failOperationTx {P Q : Assertion outcomeContract} {id : Id} {message : String}
    (h : Triple.Hits P (.operation id) (.failOperation codeFailedPrecondition message) fun _ => Q) :
    Triple P (failOperationTx id message) (fun _ => Q) fun _ => .top := by
  refine Triple.bind (Triple.bind (Triple.write h fun _ _ _ _ _ => trivial) fun _ => triple_returned)
    fun _ => triple_jobCompleteTx

theorem triple_completeOperationTx {P Q : Assertion outcomeContract} {id : Id} {payload : Payload}
    (h : ∀ result, Triple.Hits P (.operation id) (.completeOperation result) fun _ => Q) :
    Triple P (completeOperationTx id payload) (fun _ => Q) fun _ => .top := by
  refine Triple.bind (Triple.ask fun _ own log db h => P.add own log db _ h) fun result => ?_
  cases result with
  | none => exact triple_throw _
  | some result =>
    exact Triple.bind (Triple.bind (Triple.write (h result) fun _ _ _ _ _ => trivial)
      fun _ => triple_returned) fun _ => triple_jobCompleteTx

/- What is known when a deletion fails: with no row, what was known before. -/
def refusing (P : Assertion outcomeContract) : Err → Assertion outcomeContract
  | .noRows => P
  | _ => .top

/-- A job whose deletion fails without a row refuses; any other error ends it. -/
theorem triple_job {α : Type} {P D Q : Assertion outcomeContract} {m : Service α} {id : Id}
    {refusal : String} {g : α → Payload} {f : Except Err α → Service Unit}
    (hm : Triple P m (fun _ => D) (refusing P))
    (hfail : Triple.Hits P (.operation id) (.failOperation codeFailedPrecondition refusal) fun _ => Q)
    (hcomplete : ∀ result, Triple.Hits D (.operation id) (.completeOperation result) fun _ => Q)
    (hok : ∀ a, f (.ok a) = completeOperationTx id (g a))
    (hmissing : f (.error .noRows) = failOperationTx id refusal)
    (herror : ∀ e, e ≠ .noRows → f (.error e) = throw e) :
    Triple P (attempt m >>= f) (fun _ => Q) fun _ => .top := by
  have hattempt : Triple P (attempt m) (Triple.result (fun _ => D) (refusing P)) fun _ => .top :=
    Triple.attempt hm
  refine hattempt.bind fun r => ?_
  cases r with
  | ok a =>
    rw [hok]
    exact triple_completeOperationTx hcomplete
  | error e =>
    by_cases he : e = .noRows
    · subst he
      rw [hmissing]
      exact triple_failOperationTx hfail
    · rw [herror e he]
      exact triple_throw e

/-! What the foreign keys cascade to -/

/- The statements of a cascade: rows of other tables, and operations that lose a reference. -/
def SpaceCascades : (k : Key) → Stmt k → Prop
  | .organization _, _ => False
  | .space _, _ => False
  | .operation _, stmt => stmt.inserts = false
  | _, _ => True

def OrgCascades : (k : Key) → Stmt k → Prop
  | .organization _, _ => False
  | .operation _, stmt => stmt.inserts = false
  | _, _ => True

abbrev DatabaseError (e : Err) : Prop := e = .database

section cascades
variable {A : (k : Key) → Stmt k → Prop} {α : Type}

theorem confined_query (q : Query) : Confined A DatabaseError (query q) :=
  @Confined.read store Err A DatabaseError .database q

theorem confined_execAll {β : Type} {k : β → Key} {stmt : ∀ b, Stmt (k b)}
    (h : ∀ b, A (k b) (stmt b)) (bs : List β) :
    Confined A DatabaseError (Script.forEach (fun b => execRow (k b) (stmt b)) bs) :=
  Confined.forEach (fun b => Confined.exec (h b)) bs

theorem confined_deleteSpaceMembersWhere (h : ∀ spaceId p, A (.spaceMember spaceId p) .delete)
    (holds : Id → Principal → Bool) :
    Confined A DatabaseError (deleteSpaceMembersWhere holds) :=
  Confined.bind (confined_query _) fun rows =>
    confined_execAll (fun r : Id × Principal => h r.1 r.2) rows

theorem confined_deleteOrgMembersWhere (holds : Id → Principal → Bool) :
    Confined OrgCascades DatabaseError (deleteOrgMembersWhere holds) :=
  Confined.bind (confined_query _) fun rows =>
    confined_execAll (k := fun r : Id × Principal => .orgMember r.1 r.2) (fun _ => trivial) rows

theorem confined_spaceCascade (id : Id) : Confined SpaceCascades DatabaseError (spaceCascade id) := by
  refine Confined.bind (confined_deleteSpaceMembersWhere (fun _ _ => trivial) _) fun _ => ?_
  exact Confined.bind (confined_query _) fun ops => confined_execAll (fun _ => rfl) ops

theorem confined_cascadeFrom {key : Key} {stmt : Stmt key} {next : Service Unit}
    (hstmt : A key stmt) (hnext : Confined A DatabaseError next) :
    Confined A DatabaseError (cascadeFrom key stmt next) := by
  refine Confined.attempt_bind (T := (· = .noRows)) (Confined.write hstmt rfl) (fun _ => hnext)
    fun e => ?_
  cases e with
  | noRows => exact Confined.pure ()
  | _ => exact Confined.throw nofun

end cascades

theorem confined_purgeSpaceOf (orgId id : Id) :
    Confined OrgCascades DatabaseError (purgeSpaceOf orgId id) := by
  refine confined_cascadeFrom (by trivial) ((confined_spaceCascade id).mono fun k stmt h => ?_)
  cases k <;> first | exact h | trivial

theorem confined_purgeGroupOf (orgId id : Id) :
    Confined OrgCascades DatabaseError (purgeGroupOf orgId id) := by
  refine confined_cascadeFrom (by trivial) (Confined.bind ?_ fun _ => Confined.bind ?_ fun _ => ?_)
  · exact Confined.bind (confined_query _) fun rows => confined_execAll
      (k := fun r : Id × Id => .groupMember r.1 r.2) (fun _ => trivial) rows
  · exact confined_deleteOrgMembersWhere _
  · exact confined_deleteSpaceMembersWhere (fun _ _ => trivial) _

theorem confined_purgeRolesOf (orgId : Id) :
    Confined OrgCascades DatabaseError (purgeRolesOf orgId) := by
  refine Confined.bind (confined_query _) fun (referenced : Bool) => ?_
  cases referenced with
  | true => exact Confined.throw rfl
  | false =>
    exact Confined.bind (confined_query _) fun ids => confined_execAll (k := .role)
      (fun _ => trivial) ids

theorem confined_organizationCascade (orgId : Id) :
    Confined OrgCascades DatabaseError (organizationCascade orgId) := by
  refine Confined.bind (confined_query _) fun ids => ?_
  refine Confined.bind (Confined.forEach (confined_purgeSpaceOf orgId) ids) fun _ => ?_
  refine Confined.bind (confined_query _) fun ids => ?_
  refine Confined.bind (Confined.forEach (confined_purgeGroupOf orgId) ids) fun _ => ?_
  refine Confined.bind (confined_deleteOrgMembersWhere _) fun _ => ?_
  refine Confined.bind (confined_purgeRolesOf orgId) fun _ => ?_
  refine Confined.bind (confined_query _) fun ids => ?_
  refine Confined.bind (confined_execAll (k := .domain) (fun _ => trivial) ids) fun _ => ?_
  refine Confined.bind (@Confined.exec store Err OrgCascades DatabaseError .database
    (.ssoConfig orgId) .cascade trivial) fun _ => ?_
  exact Confined.bind (confined_query _) fun ids => confined_execAll (k := .operation)
    (fun _ => rfl) ids

/-! DeleteOrganization -/

/- The row of the organization is written as the job asks, and the operations listed are ended. -/
structure OrgDeleting (args : DeleteOrgArgs) (ids : List Id) (own : Pending store) (db : Db store) :
    Prop where
  deleted : ∃ new, own.lookup (Key.organization args.orgId) = some new ∧
    OrgDeleted args (db.lookup (Key.organization args.orgId)) new
  accounted : Accounted args.orgId ids own db

theorem OrgDeleting.later {args : DeleteOrgArgs} {ids : List Id} (h : OrgDeleting args ids own db)
    (hl : Later outcomeContract own log db db') : OrgDeleting args ids own db' where
  deleted := by
    obtain ⟨new, hown, hdeleted⟩ := h.deleted
    have hmem : (Key.organization args.orgId) ∈ own := AList.lookup_isSome.mp (by simp [hown])
    exact ⟨new, hown, (hl.own _ hmem).symm ▸ hdeleted⟩
  accounted := h.accounted.later hl

theorem lookup_organization_insert_ne {key : Key} {orgId : Id} (h : key ≠ .organization orgId)
    (row : Option (Row key)) :
    (own.insert key row).lookup (Key.organization orgId) = own.lookup (Key.organization orgId) :=
  AList.lookup_insert_ne h.symm

theorem OrgDeleting.cascade {args : DeleteOrgArgs} {ids : List Id} (h : OrgDeleting args ids own db)
    {key : Key} {stmt : Stmt key} (hstmt : OrgCascades key stmt) {new : Option (Row key)}
    (hx : store.exec key stmt ((overlay own db).lookup key) = some new) :
    OrgDeleting args ids (own.insert key new) db where
  deleted := by
    have hkey : key ≠ .organization args.orgId := by
      rintro rfl
      exact hstmt
    rw [lookup_organization_insert_ne hkey]
    exact h.deleted
  accounted := by
    cases key with
    | operation id => exact h.accounted.operation hstmt hx
    | _ => exact h.accounted.aside (by simp) new

def orgDeleting (args : DeleteOrgArgs) : Assertion outcomeContract :=
  inOrgJob args (OrgDeleting args) fun _ _ _ _ _ h hl => h.later hl

/- The row of the job's operation, as written. -/
def Wrote (operationId : Id) (own : Pending store) (H : Option (Slot Operation) → Prop) : Prop :=
  ∃ row, own.lookup (Key.operation operationId) = some row ∧ H row

/- A refusal on top of the cancellations. -/
structure OrgRefusing (args : DeleteOrgArgs) (ids : List Id) (own : Pending store) (db : Db store) :
    Prop where
  only : ∀ k ∈ own, k ≠ .operation args.operationId →
    ∃ id ∈ ids, k = .operation id ∧ RunningOf args.orgId (db.lookup (Key.operation id))
  accounted : Accounted args.orgId ids own db

theorem OrgRefusing.later {args : DeleteOrgArgs} {ids : List Id} (h : OrgRefusing args ids own db)
    (hl : Later outcomeContract own log db db') : OrgRefusing args ids own db' where
  only k hk hne := by
    obtain ⟨id, hid, rfl, hrunning⟩ := h.only k hk hne
    exact ⟨id, hid, rfl, (hl.own _ hk).symm ▸ hrunning⟩
  accounted := h.accounted.later hl

def OrgEnding (args : DeleteOrgArgs) (ids : List Id) (own : Pending store) (db : Db store) : Prop :=
  OrgDeleting args ids own db ∧ Wrote args.operationId own Finished ∨
  OrgRefusing args ids own db ∧ Wrote args.operationId own Failed

def orgEnding (args : DeleteOrgArgs) : Assertion outcomeContract :=
  inOrgJob args (OrgEnding args) fun _ _ _ _ _ h hl =>
    h.imp (fun h => ⟨h.1.later hl, h.2⟩) fun h => ⟨h.1.later hl, h.2⟩

theorem wrote_insert {id : Id} {row : Option (Slot Operation)} {H : Option (Slot Operation) → Prop}
    (h : H row) : Wrote id (own.insert (.operation id) row) H :=
  ⟨row, AList.lookup_insert own, h⟩

theorem hits_refuseOrg (args : DeleteOrgArgs) (message : String) :
    Triple.Hits (cancelled args) (.operation args.operationId)
      (.failOperation codeFailedPrecondition message) fun _ => orgEnding args := by
  rintro own log db new - ⟨hop, ids, hlisted, h⟩ hx
  obtain ⟨o, ho⟩ := execOperation_live hx rfl
  refine ⟨hop, ids, hlisted, .inr ⟨⟨fun k hk hne => ?_, h.accounted.operation rfl hx⟩, ?_⟩⟩
  · exact h.only k (((AList.mem_insert own).mp hk).resolve_left hne)
  · rw [ho] at hx
    cases hx
    exact wrote_insert ⟨_, rfl, rfl, rfl⟩

theorem hits_completeOrg (args : DeleteOrgArgs) (result : Json) :
    Triple.Hits (orgDeleting args) (.operation args.operationId) (.completeOperation result)
      fun _ => orgEnding args := by
  rintro own log db new - ⟨hop, ids, hlisted, h⟩ hx
  obtain ⟨o, ho⟩ := execOperation_live hx rfl
  have hcascade := @OrgDeleting.cascade own db args ids h (.operation args.operationId)
    (.completeOperation result) rfl new hx
  refine ⟨hop, ids, hlisted, .inl ⟨hcascade, ?_⟩⟩
  rw [ho] at hx
  cases hx
  exact wrote_insert ⟨_, _, rfl, rfl, rfl⟩

/- The statement on the organization hits a row that no cancellation has touched. -/
theorem orgDeleting_of_cancelled {args : DeleteOrgArgs} {stmt : OrganizationStmt}
    {new : Option (Slot Organization)} (h : (cancelled args).holds own log db)
    (hx : execOrganization stmt ((overlay own db).lookup (Key.organization args.orgId)) = some new)
    (hdeleted : execOrganization stmt (db.lookup (Key.organization args.orgId)) = some new →
      OrgDeleted args (db.lookup (Key.organization args.orgId)) new) :
    (orgDeleting args).holds (own.insert (.organization args.orgId) new) log db := by
  obtain ⟨hop, ids, hlisted, h⟩ := h
  refine ⟨hop, ids, hlisted, ⟨new, AList.lookup_insert own, hdeleted ?_⟩, h.accounted.aside (by simp) _⟩
  have hown : own.lookup (Key.organization args.orgId) = none := h.not_mem (by simp)
  rwa [@lookup_overlay_of_none store own db (.organization args.orgId) hown] at hx

theorem triple_purgeOrganization {args : DeleteOrgArgs} (hforce : args.force = true) :
    Triple (cancelled args) (purgeOrganization args.orgId args.expectedEtag)
      (fun _ => orgDeleting args) (refusing (cancelled args)) := by
  refine Triple.bind (R := fun _ => orgDeleting args) (Triple.write ?_ ?_) fun _ => ?_
  · intro own log db new _ h hx
    refine orgDeleting_of_cancelled h hx fun hdb => ?_
    simpa [OrgDeleted, hforce] using hdb
  · exact fun own log db h _ => h
  · refine ((confined_organizationCascade args.orgId).triple (orgDeleting args) ?_).conseq
      (fun _ _ _ h => h) (fun _ _ _ _ h => h) fun e own log db h => ?_
    · rintro k stmt hstmt own log db new - ⟨hop, ids, hlisted, h⟩ hx
      exact ⟨hop, ids, hlisted, h.cascade hstmt hx⟩
    · obtain rfl : e = .database := h.2
      trivial

theorem execOrganization_softDelete {deletedBy : Option Id} {now : Time}
    {cur new : Option (Slot Organization)}
    (h : execOrganization (.softDeleteOrganization deletedBy now) cur = some new) :
    ∃ o, new = some (.live o) := by
  obtain _ | o | _ := cur
  · cases h
  · simp only [execOrganization, Option.ite_none_right_eq_some, Option.some.injEq] at h
    exact ⟨_, h.2.symm⟩
  · cases h

/- A row that is handed back as it was written. -/
theorem triple_returned_live {α : Type} {row : Option (Slot α)} {P : Assertion outcomeContract}
    {F : Err → Assertion outcomeContract} :
    Triple (P.and (.always (∃ a, row = some (.live a)))) (returned row : Service α) (fun _ => P) F := by
  have hthrow : (¬ ∃ a, row = some (.live a)) → returned row = (throw .noRows : Service α) →
      Triple (P.and (.always (∃ a, row = some (.live a)))) (returned row : Service α)
        (fun _ => P) F := by
    intro hdead heq
    rw [heq]
    exact (@Triple.throw store Op Err α outcomeContract (fun _ => P) F .noRows).conseq
      (fun _ _ _ h => absurd h.2 hdead) (fun _ _ _ _ h => h) fun _ _ _ _ h => h
  obtain _ | a | _ := row
  · exact hthrow (by simp) rfl
  · exact (@Triple.pure store Op Err α outcomeContract (fun _ => P) F a).conseq
      (fun _ _ _ h => h.1) (fun _ _ _ _ h => h) fun _ _ _ _ h => h
  · exact hthrow (by simp) rfl

theorem triple_softDeleteOrganization {args : DeleteOrgArgs} (hforce : args.force = false) :
    Triple (cancelled args) (softDeleteOrganization args.orgId args.deletedBy)
      (fun _ => orgDeleting args) (refusing (cancelled args)) := by
  refine Triple.bind (Triple.ask fun _ own log db h => (cancelled args).add own log db _ h)
    fun (now : Time) => ?_
  refine Triple.bind (Triple.write ?_ ?_) fun row => triple_returned_live
  · intro own log db new _ h hx
    refine ⟨orgDeleting_of_cancelled h hx fun hdb => ?_, execOrganization_softDelete hx⟩
    simpa [OrgDeleted, hforce] using ⟨now, hdb⟩
  · exact fun own log db h _ => h

theorem Wrote.overlay {id : Id} {H : Option (Slot Operation) → Prop} (h : Wrote id own H) :
    H ((overlay own db).lookup (Key.operation id)) := by
  obtain ⟨row, hown, hH⟩ := h
  rwa [lookup_operation_of_some hown]

/- A refusal leaves everything else alone when its cancellations have found nothing to cancel. -/
theorem OrgRefusing.onlyOwn {args : DeleteOrgArgs} {ids : List Id} (h : OrgRefusing args ids own db) :
    OnlyOwn args.operationId db (overlay own db) ↔ NoneRunning args ids db := by
  constructor
  · rintro honly id hid hne ⟨o, ho, hd, horg⟩
    have hsame : (overlay own db).lookup (Key.operation id) = some (.live o) :=
      (honly (Key.operation id) (by simpa using hne)).trans ho
    have hdone := h.accounted.ended id hid o o ho horg hsame
    simp [hd] at hdone
  · intro hnone k hne
    by_cases hk : k ∈ own
    · obtain ⟨id, hid, rfl, hrunning⟩ := h.only k hk hne
      exact absurd hrunning (hnone id hid (by simpa using hne))
    · exact lookup_overlay_of_notMem hk db

theorem outcome_of_orgEnding {args : DeleteOrgArgs} (h : (orgEnding args).holds own log db) :
    Outcome log db (overlay own db) := by
  obtain ⟨hop, ids, hlisted, ⟨hdeleting, hfinished⟩ | ⟨hrefusing, hfailed⟩⟩ := h
  · unfold Outcome
    rw [hop]
    refine ⟨ids, hlisted, .inl ⟨?_, hdeleting.accounted.ended, hfinished.overlay⟩⟩
    obtain ⟨new, hown, hdeleted⟩ := hdeleting.deleted
    rwa [@lookup_overlay_of_some store own db (.organization args.orgId) new hown]
  · unfold Outcome
    rw [hop]
    exact ⟨ids, hlisted, .inr ⟨hfailed.overlay, hrefusing.onlyOwn⟩⟩

theorem between_deleteOrg (args : DeleteOrgArgs) :
    Between (jobOpening (.deleteOrg args)) (deleteOrg args) fun _ => .top := by
  refine Triple.transaction (Q := fun _ => orgEnding args) (F := fun _ => .top)
    (Triple.bind (triple_cancelRunningOpsForOrg args) fun _ => ?_)
    fun _ _ _ _ _ h _ => outcome_of_orgEnding h
  cases hforce : args.force with
  | true =>
    refine triple_job (triple_purgeOrganization hforce) (hits_refuseOrg args _)
      (hits_completeOrg args) (g := fun _ => .organizationName args.resource)
      (fun _ => rfl) rfl fun e he => ?_
    cases e <;> first | rfl | contradiction
  | false =>
    refine triple_job (triple_softDeleteOrganization hforce) (hits_refuseOrg args _)
      (hits_completeOrg args) (g := .organization) (fun _ => rfl) rfl fun e he => ?_
    cases e <;> first | rfl | contradiction

/-! DeleteSpace -/

def SpaceDeleting (args : DeleteSpaceArgs) (own : Pending store) (db : Db store) : Prop :=
  ∃ new, own.lookup (Key.space args.spaceId) = some new ∧
    SpaceDeleted args (db.lookup (Key.space args.spaceId)) new

theorem SpaceDeleting.later {args : DeleteSpaceArgs} (h : SpaceDeleting args own db)
    (hl : Later outcomeContract own log db db') : SpaceDeleting args own db' := by
  obtain ⟨new, hown, hdeleted⟩ := h
  have hmem : (Key.space args.spaceId) ∈ own := AList.lookup_isSome.mp (by simp [hown])
  exact ⟨new, hown, (hl.own _ hmem).symm ▸ hdeleted⟩

theorem SpaceDeleting.insert {args : DeleteSpaceArgs} (h : SpaceDeleting args own db) {key : Key}
    (hkey : key ≠ .space args.spaceId) (row : Option (Row key)) :
    SpaceDeleting args (own.insert key row) db := by
  obtain ⟨new, hown, hdeleted⟩ := h
  exact ⟨new, (AList.lookup_insert_ne hkey.symm).trans hown, hdeleted⟩

def inSpaceJob (args : DeleteSpaceArgs) (H : Pending store → Db store → Prop)
    (hlater : ∀ own log db db', H own db → Later outcomeContract own log db db' → H own db') :
    Assertion outcomeContract where
  holds own log db := log.op = .deleteSpace args ∧ H own db
  later own log db db' h hl := ⟨h.1, hlater own log db db' h.2 hl⟩
  add _ _ _ _ h := h

def spaceDeleting (args : DeleteSpaceArgs) : Assertion outcomeContract :=
  inSpaceJob args (SpaceDeleting args) fun _ _ _ _ h hl => h.later hl

def SpaceEnding (args : DeleteSpaceArgs) (own : Pending store) (db : Db store) : Prop :=
  SpaceDeleting args own db ∧ Wrote args.operationId own Finished ∨
  (∀ k ∈ own, k = .operation args.operationId) ∧ Wrote args.operationId own Failed

def spaceEnding (args : DeleteSpaceArgs) : Assertion outcomeContract :=
  inSpaceJob args (SpaceEnding args) fun _ _ _ _ h hl => h.imp (fun h => ⟨h.1.later hl, h.2⟩) id

theorem hits_refuseSpace (args : DeleteSpaceArgs) (message : String) :
    Triple.Hits (jobOpening (.deleteSpace args)) (.operation args.operationId)
      (.failOperation codeFailedPrecondition message) fun _ => spaceEnding args := by
  rintro own log db new - ⟨hop, hown⟩ hx
  obtain rfl : own = ∅ := hown
  obtain ⟨o, ho⟩ := execOperation_live hx rfl
  refine ⟨hop, .inr ⟨fun k hk => ?_, ?_⟩⟩
  · exact ((AList.mem_insert ∅).mp hk).resolve_right (AList.notMem_empty k)
  · rw [ho] at hx
    cases hx
    exact wrote_insert ⟨_, rfl, rfl, rfl⟩

theorem hits_completeSpace (args : DeleteSpaceArgs) (result : Json) :
    Triple.Hits (spaceDeleting args) (.operation args.operationId) (.completeOperation result)
      fun _ => spaceEnding args := by
  rintro own log db new - ⟨hop, h⟩ hx
  obtain ⟨o, ho⟩ := execOperation_live hx rfl
  have hinsert := @SpaceDeleting.insert own db args h (.operation args.operationId) (by simp) new
  refine ⟨hop, .inl ⟨hinsert, ?_⟩⟩
  rw [ho] at hx
  cases hx
  exact wrote_insert ⟨_, _, rfl, rfl, rfl⟩

theorem spaceDeleting_of_jobOpening {args : DeleteSpaceArgs} {stmt : SpaceStmt}
    {new : Option (Slot Space)} (h : (jobOpening (.deleteSpace args)).holds own log db)
    (hx : execSpace stmt ((overlay own db).lookup (Key.space args.spaceId)) = some new)
    (hdeleted : execSpace stmt (db.lookup (Key.space args.spaceId)) = some new →
      SpaceDeleted args (db.lookup (Key.space args.spaceId)) new) :
    (spaceDeleting args).holds (own.insert (.space args.spaceId) new) log db := by
  obtain ⟨hop, hown⟩ := h
  obtain rfl : own = ∅ := hown
  exact ⟨hop, new, AList.lookup_insert ∅, hdeleted hx⟩

theorem triple_purgeSpace {args : DeleteSpaceArgs} (hforce : args.force = true) :
    Triple (jobOpening (.deleteSpace args)) (purgeSpace args.spaceId args.expectedEtag)
      (fun _ => spaceDeleting args) (refusing (jobOpening (.deleteSpace args))) := by
  refine Triple.bind (R := fun _ => spaceDeleting args) (Triple.write ?_ ?_) fun _ => ?_
  · intro own log db new _ h hx
    refine spaceDeleting_of_jobOpening h hx fun hdb => ?_
    simpa [SpaceDeleted, hforce] using hdb
  · exact fun own log db h _ => h
  · refine ((confined_spaceCascade args.spaceId).triple (spaceDeleting args) ?_).conseq
      (fun _ _ _ h => h) (fun _ _ _ _ h => h) fun e own log db h => ?_
    · rintro k stmt hstmt own log db new - ⟨hop, h⟩ hx
      refine ⟨hop, h.insert ?_ new⟩
      rintro rfl
      exact hstmt
    · obtain rfl : e = .database := h.2
      trivial

theorem execSpace_softDelete {deletedBy : Option Id} {now : Time} {cur new : Option (Slot Space)}
    (h : execSpace (.softDeleteSpace deletedBy now) cur = some new) : ∃ s, new = some (.live s) := by
  obtain _ | s | _ := cur
  · cases h
  · simp only [execSpace, Option.ite_none_right_eq_some, Option.some.injEq] at h
    exact ⟨_, h.2.symm⟩
  · cases h

theorem triple_softDeleteSpace {args : DeleteSpaceArgs} (hforce : args.force = false) :
    Triple (jobOpening (.deleteSpace args)) (softDeleteSpace args.spaceId args.deletedBy)
      (fun _ => spaceDeleting args) (refusing (jobOpening (.deleteSpace args))) := by
  refine Triple.bind (Triple.ask fun _ own log db h => (jobOpening (.deleteSpace args)).add own log db _ h)
    fun (now : Time) => ?_
  refine Triple.bind (Triple.write ?_ ?_) fun row => triple_returned_live
  · intro own log db new _ h hx
    refine ⟨spaceDeleting_of_jobOpening h hx fun hdb => ?_, execSpace_softDelete hx⟩
    simpa [SpaceDeleted, hforce] using ⟨now, hdb⟩
  · exact fun own log db h _ => h

theorem outcome_of_spaceEnding {args : DeleteSpaceArgs} (h : (spaceEnding args).holds own log db) :
    Outcome log db (overlay own db) := by
  obtain ⟨hop, ⟨⟨new, hown, hdeleted⟩, hfinished⟩ | ⟨honly, hfailed⟩⟩ := h
  · unfold Outcome
    rw [hop]
    refine .inl ⟨?_, hfinished.overlay⟩
    rwa [@lookup_overlay_of_some store own db (.space args.spaceId) new hown]
  · unfold Outcome
    rw [hop]
    refine .inr ⟨hfailed.overlay, fun k hne => lookup_overlay_of_notMem (fun hk => ?_) db⟩
    exact hne (honly k hk)

theorem between_deleteSpace (args : DeleteSpaceArgs) :
    Between (jobOpening (.deleteSpace args)) (deleteSpace args) fun _ => .top := by
  refine Triple.transaction (Q := fun _ => spaceEnding args) (F := fun _ => .top) ?_
    fun _ _ _ _ _ h _ => outcome_of_spaceEnding h
  cases hforce : args.force with
  | true =>
    refine triple_job (triple_purgeSpace hforce) (hits_refuseSpace args _)
      (hits_completeSpace args) (g := fun _ => .spaceName args.resource)
      (fun _ => rfl) rfl fun e he => ?_
    cases e <;> first | rfl | contradiction
  | false =>
    refine triple_job (triple_softDeleteSpace hforce) (hits_refuseSpace args _)
      (hits_completeSpace args) (g := fun s => .space s args.orgSlug) (fun _ => rfl) rfl fun e he => ?_
    cases e <;> first | rfl | contradiction

/-! Every run -/

theorem outcome_safe (op : Op) (db : Db store) (_ : outcomeContract.Inv db) :
    Safe outcomeContract (code op) .idle ∅ (.start op) db := by
  cases op with
  | deleteOrg args => exact (between_deleteOrg args).run ⟨rfl, rfl⟩
  | deleteSpace args => exact (between_deleteSpace args).run ⟨rfl, rfl⟩
  | _ =>
    refine safe_of_guar fun log' hlog _ _ => ?_
    change Outcome log' _ _
    unfold Outcome
    rw [hlog]
    trivial

/-- Each commit of a deletion job is the whole deletion or a refusal; and a refusal leaves every row
but that of its operation as it was, unless DeleteOrganization found running operations to cancel. -/
theorem delete_outcome {db : Db store} {st st' : State store Op} {p : Nat} {a : Act store}
    {s : Session store Op} (h : Runs (step code) (fun _ _ => True) (.rest db) st)
    (hs : step code st (.act p a) = some st') (hp : st.sessions[p]? = some s)
    (hchanged : st'.db ≠ st.db) : Outcome s.log st.db st'.db := by
  have hmeets : ∀ (st : State store Op) l, Runs (step code) (fun _ _ => True) (.rest db) st →
      outcomeContract.Meets code st l := fun st l hr =>
    { allows := fun _ _ _ _ _ _ _ _ _ _ => trivial
      accepts := fun _ _ _ _ => trivial
      fits := fun _ _ _ _ _ _ _ _ => trivial
      spares := fun st' _ _ _ _ _ hs _ _ _ =>
        operations_kept hr ((Runs.refl st).tail trivial hs) }
  have hok : st.Ok outcomeContract := (State.ok_rest trivial).runs outcome_safe
    (fun st l hr => hmeets st l hr.2) h.reached
  obtain ⟨-, heq | ⟨p', s', a', hl, hp', hguar⟩⟩ := hok.step outcome_safe (hmeets st _ h) hs
  · exact absurd heq hchanged
  · cases hl
    obtain rfl : s = s' := Option.some.inj (hp.symm.trans hp')
    exact hguar

/- A deletion with a stale etag is refused, while an operation of the organization is running or
   not. -/
theorem acme_active : ResourceState.active = .active → (none : Option Time) = none := fun _ => rfl

def acmeRow : Organization :=
  { name := "acme", state := .active, deleteTime := none, purgeTime := none,
    deletedBy := none, revision := 1, etag := (5, 1), active := acme_active }

def runningOperation (orgId : Option Id) : Operation :=
  { parent := "organizations/acme", done := false, metadata := none, result := none,
    errorCode := none, errorMessage := none, orgId, spaceId := none, createdBy := none,
    expireTime := 100 }

def deletionRequested : Db store :=
  ((∅ : Db store).insert (Key.organization 10) (.live acmeRow)).insert (Key.operation 7)
    (.live (runningOperation none))

def importRunning : Db store :=
  deletionRequested.insert (Key.operation 8) (.live (runningOperation (some 10)))

def staleDeletion : DeleteOrgArgs := ⟨7, 10, "organizations/acme", none, true, (4, 1)⟩

/- Up to the COMMIT; `n` counts the cancellations. -/
def refusalTrace (n : Nat) : List (Label store Op) :=
  .spawn (.deleteOrg staleDeletion) :: (List.replicate (n + 4) (Label.run 0) ++
    [Label.told 0 Ask.completeJob true])

def refusedState : State store Op :=
  (exec (step code) (.rest deletionRequested) (refusalTrace 0)).get (by decide)

def refusedRunning : State store Op :=
  (exec (step code) (.rest importRunning) (refusalTrace 1)).get (by decide)

theorem delete_outcome_refused :
    Outcome ((refusedState.sessions[0]?).get (by decide)).log refusedState.db
      ((step code refusedState (.run 0)).get (by decide)).db :=
  @delete_outcome deletionRequested refusedState _ 0 .run _
    (Runs.of_exec_free (refusalTrace 0) (Option.some_get _).symm) (Option.some_get _).symm
    (Option.some_get _).symm fun h => absurd (congrArg (AList.lookup (Key.operation 7)) h) (by decide)

/-- DeleteOrganization cancels the running operations of an organization that it then leaves
alone. -/
theorem refusal_cancels :
    ¬ ∀ (db : Db store) (st st' : State store Op) (p : Nat) (a : Act store) (s : Session store Op)
      (args : DeleteOrgArgs), Runs (step code) (fun _ _ => True) (.rest db) st →
      step code st (.act p a) = some st' → st.sessions[p]? = some s → s.log.op = .deleteOrg args →
      Failed (st'.db.lookup (Key.operation args.operationId)) →
      (∃ ids, OrgCompleted args ids st.db st'.db) ∨ OnlyOwn args.operationId st.db st'.db := by
  intro hclaim
  have hruns : Runs (step code) (fun _ _ => True) (.rest importRunning) refusedRunning :=
    Runs.of_exec_free (refusalTrace 1) (Option.some_get _).symm
  obtain ⟨ids, hcompleted⟩ | honly := hclaim importRunning refusedRunning
    ((step code refusedRunning (.run 0)).get (by decide)) 0 .run
    ((refusedRunning.sessions[0]?).get (by decide)) staleDeletion hruns (Option.some_get _).symm
    (Option.some_get _).symm rfl ⟨_, rfl, rfl, rfl⟩
  · have hmiss := hcompleted.deleted
    cases hmiss
  · have hsame := honly (Key.operation 8) (by decide)
    exact absurd hsame (by decide)

end Pivox.Organizations
