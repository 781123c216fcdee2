import Mathlib.Data.List.Sort
import Pivox.Organizations.Lifecycle
import Pivox.ReadCommitted.Update

/-!
The grace window of the organizations and spaces that are soft-deleted: requests, the jobs that they
leave and the ticks that purge, in any order and with any delays between them. A worker writes its
row in one statement, so that its transaction is one step; an attempt that rolls back leaves its job
to be run again.
-/

namespace Pivox.GraceWindow
open Organizations ReadCommitted Transition

/-! Requests -/

def stateName : ResourceState → String
  | .active => "ACTIVE"
  | .deleteRequested => "DELETE_REQUESTED"

/- The empty etag of a request is `none`; `caller` and `operationId` go to its job. -/
structure DeleteRequest where
  force : Bool
  etag : Option Etag
  operationId : Id
  caller : Id

structure UndeleteRequest where
  etag : Option Etag
  operationId : Id
  caller : Id

def checkState (resource : String) (want state : ResourceState) : Except Err Unit :=
  if state = want then .ok ()
  else .error (.failedPrecondition (resource ++ " is not in " ++ stateName want ++
    " state; current state is " ++ stateName state))

def checkEtag (resource : String) (etag : Option Etag) (current : Etag) : Except Err Unit :=
  if etag.all (· = current) then .ok ()
  else .error (.failedPrecondition ("etag mismatch; refresh the " ++ resource ++ " and retry"))

/- `pinned` is what the message of a missing etag calls the revision. -/
def checkDelete (resource pinned : String) (state : ResourceState) (current : Etag)
    (req : DeleteRequest) : Except Err Unit := do
  checkState resource .active state
  if req.force && req.etag.isNone then
    throw (.failedPrecondition ("force=true requires a non-empty etag pinning the " ++ pinned ++
      " revision"))
  checkEtag resource req.etag current

def checkUndelete (resource : String) (state : ResourceState) (current : Etag)
    (req : UndeleteRequest) : Except Err Unit := do
  checkState resource .deleteRequested state
  checkEtag resource req.etag current

inductive Job where
  | deleteOrg (args : DeleteOrgArgs)
  | undeleteOrg (args : UndeleteOrgArgs)
  | deleteSpace (args : DeleteSpaceArgs)
  | undeleteSpace (args : UndeleteSpaceArgs)

def deleteOrganization (id : Id) (org : Organization) (req : DeleteRequest) : Except Err Job := do
  checkDelete "organization" "org" org.state org.etag req
  return .deleteOrg ⟨req.operationId, id, "organizations/" ++ org.name, some req.caller, req.force,
    org.etag⟩

def undeleteOrganization (id : Id) (org : Organization) (req : UndeleteRequest) :
    Except Err Job := do
  checkUndelete "organization" org.state org.etag req
  return .undeleteOrg ⟨req.operationId, id⟩

def deleteSpace (id : Id) (org : Organization) (space : Space) (req : DeleteRequest) :
    Except Err Job := do
  checkDelete "space" "space" space.state space.etag req
  return .deleteSpace ⟨req.operationId, id, org.name,
    "organizations/" ++ org.name ++ "/spaces/" ++ space.name, some req.caller, req.force,
    space.etag⟩

def undeleteSpace (id : Id) (org : Organization) (space : Space) (req : UndeleteRequest) :
    Except Err Job := do
  checkUndelete "space" space.state space.etag req
  return .undeleteSpace ⟨req.operationId, id, org.name, some req.caller⟩

/-! Statements -/

def live {α : Type} : Option (Slot α) → Option α
  | some (.live row) => some row
  | _ => none

def organizationRow (db : Db store) (id : Id) : Option Organization :=
  live (db.lookup (Key.organization id))

def spaceRow (db : Db store) (id : Id) : Option Space :=
  live (db.lookup (Key.space id))

/- The foreign key of spaces. -/
def cascadeSpace (orgId : Id) (db : Db store) (space : Id × Space) : Db store :=
  update db (.space space.1) (.cascade orgId)

def cascadeSpaces (orgId : Id) (db : Db store) : Db store :=
  (spaces db).foldl (cascadeSpace orgId) db

def purgeOrganization (id : Id) (etag : Etag) (db : Db store) : Db store :=
  match execOrganization (.purgeOrganization etag) (db.lookup (.organization id)) with
  | some new => cascadeSpaces id (put db (.organization id) new)
  | none => db

def pastPurgeTime (now : Time) (deleteTime purgeTime : Option Time) : Bool :=
  deleteTime.isSome && purgeTime.any (· < now)

def purgeExpiredOrganization (now : Time) (id : Id) (db : Db store) : Db store :=
  match organizationRow db id with
  | some o =>
    if pastPurgeTime now o.deleteTime o.purgeTime then
      cascadeSpaces id (put db (.organization id) (some .gone))
    else db
  | none => db

def purgeExpiredSpace (now : Time) (id : Id) (db : Db store) : Db store :=
  match spaceRow db id with
  | some s =>
    if pastPurgeTime now s.deleteTime s.purgeTime then put db (.space id) (some .gone) else db
  | none => db

/- The hundred that are first past their purge time. -/
def firstPastPurgeTime (rows : List (Id × Option Time)) : List Id :=
  ((rows.insertionSort fun r r' => r.2.getD 0 ≤ r'.2.getD 0).take 100).map (·.1)

def listOrgsPastPurgeTime (now : Time) (db : Db store) : List Id :=
  firstPastPurgeTime (((organizations db).filter fun r =>
    pastPurgeTime now r.2.deleteTime r.2.purgeTime).map fun r => (r.1, r.2.purgeTime))

def listSpacesPastPurgeTime (now : Time) (db : Db store) : List Id :=
  firstPastPurgeTime (((spaces db).filter fun r =>
    pastPurgeTime now r.2.deleteTime r.2.purgeTime).map fun r => (r.1, r.2.purgeTime))

def newOrganization (name : String) (now : Time) : Organization :=
  { name, state := .active, deleteTime := none, purgeTime := none, deletedBy := none, revision := 1,
    etag := (now, 0), active := none_of_active }

def newSpace (orgId : Id) (name : String) (caller : Id) (now : Time) : Space :=
  { orgId, name, state := .active, deleteTime := none, purgeTime := none, deletedBy := none,
    updatedBy := some caller, revision := 1, etag := (now, 0) }

def updateSpace (id caller : Id) (now : Time) (db : Db store) : Db store :=
  match spaceRow db id with
  | some s =>
    if s.deleteTime = none then
      put db (.space id) (some (.live { s with
        updatedBy := some caller, revision := s.revision + 1, etag := (now, 0) }))
    else db
  | none => db

def work (now : Time) (db : Db store) : Job → Db store
  | .deleteOrg args =>
    if args.force then purgeOrganization args.orgId args.expectedEtag db
    else update db (.organization args.orgId) (.softDeleteOrganization args.deletedBy now)
  | .undeleteOrg args => update db (.organization args.orgId) (.undeleteOrganization now)
  | .deleteSpace args =>
    if args.force then update db (.space args.spaceId) (.purgeSpace args.expectedEtag)
    else update db (.space args.spaceId) (.softDeleteSpace args.deletedBy now)
  | .undeleteSpace args => update db (.space args.spaceId) (.undeleteSpace args.updatedBy now)

/-! Runs -/

/- The jobs not done yet, and what the purge ticks have listed and not come to yet. -/
structure State where
  db : Db store
  jobs : List Job
  orgsPast : List Id
  spacesPast : List Id

def State.init : State := ⟨∅, [], [], []⟩

/- `now` is the clock of the statement; the clocks of different statements are not compared. -/
inductive Event where
  | createOrganization (id : Id) (name : String) (now : Time)
  | createSpace (id orgId : Id) (name : String) (caller : Id) (now : Time)
  | updateSpace (id caller : Id) (now : Time)
  | deleteOrganization (id : Id) (req : DeleteRequest)
  | undeleteOrganization (id : Id) (req : UndeleteRequest)
  | deleteSpace (id : Id) (req : DeleteRequest)
  | undeleteSpace (id : Id) (req : UndeleteRequest)
  | work (i : ℕ) (now : Time)
  | listOrgs (now : Time)
  | listSpaces (now : Time)
  | purgeOrg (i : ℕ) (now : Time)
  | purgeSpace (i : ℕ) (now : Time)

/- A request that is turned down leaves no job. -/
def State.enqueue (st : State) : Except Err Job → State
  | .ok job => { st with jobs := st.jobs ++ [job] }
  | .error _ => st

/- The space that a request names, with its organization. -/
def resolveSpace (db : Db store) (id : Id) : Option (Organization × Space) := do
  let space ← spaceRow db id
  let org ← organizationRow db space.orgId
  return (org, space)

def step (st : State) : Event → Option State
  | .createOrganization id name now =>
    match st.db.lookup (.organization id) with
    | none => some { st with
        db := put st.db (.organization id) (some (.live (newOrganization name now))) }
    | some _ => none
  | .createSpace id orgId name caller now =>
    match st.db.lookup (.space id), organizationRow st.db orgId with
    | none, some _ => some { st with
        db := put st.db (.space id) (some (.live (newSpace orgId name caller now))) }
    | _, _ => none
  | .updateSpace id caller now => some { st with db := updateSpace id caller now st.db }
  | .deleteOrganization id req =>
    (organizationRow st.db id).map fun org => st.enqueue (deleteOrganization id org req)
  | .undeleteOrganization id req =>
    (organizationRow st.db id).map fun org => st.enqueue (undeleteOrganization id org req)
  | .deleteSpace id req =>
    (resolveSpace st.db id).map fun r => st.enqueue (deleteSpace id r.1 r.2 req)
  | .undeleteSpace id req =>
    (resolveSpace st.db id).map fun r => st.enqueue (undeleteSpace id r.1 r.2 req)
  | .work i now =>
    st.jobs[i]?.map fun job => { st with db := work now st.db job, jobs := st.jobs.eraseIdx i }
  | .listOrgs now => some { st with orgsPast := st.orgsPast ++ listOrgsPastPurgeTime now st.db }
  | .listSpaces now =>
    some { st with spacesPast := st.spacesPast ++ listSpacesPastPurgeTime now st.db }
  | .purgeOrg i now =>
    st.orgsPast[i]?.map fun id =>
      { st with db := purgeExpiredOrganization now id st.db, orgsPast := st.orgsPast.eraseIdx i }
  | .purgeSpace i now =>
    st.spacesPast[i]?.map fun id =>
      { st with db := purgeExpiredSpace now id st.db, spacesPast := st.spacesPast.eraseIdx i }

/-! Windows -/

structure Window where
  state : ResourceState
  deleteTime : Option Time
  purgeTime : Option Time
  deriving DecidableEq

namespace Window

def active : Window := ⟨.active, none, none⟩

/- What a soft delete leaves. -/
def requested (now : Time) : Window := ⟨.deleteRequested, some now, some (now + thirtyDays)⟩

/- The purge time is in the future. -/
def Open (w : Window) (now : Time) : Prop := ∃ t ∈ w.purgeTime, now < t

/- Soft-deleted, and the purge time is past. -/
def Elapsed (w : Window) (now : Time) : Prop :=
  w.state = .deleteRequested ∧ ∃ t ∈ w.purgeTime, t < now

def Sound (w : Window) : Prop := w = active ∨ ∃ t, w = requested t

theorem open_requested {t now : Time} : (requested t).Open now ↔ now < t + thirtyDays := by
  simp [Open, requested]

theorem Sound.of_active {w : Window} (h : w.Sound) (hw : w.state = .active) : w = active := by
  obtain rfl | ⟨t, rfl⟩ := h
  · rfl
  · cases hw

theorem Sound.of_requested {w : Window} (h : w.Sound) (hw : w.state = .deleteRequested) :
    ∃ t, w = requested t := by
  obtain rfl | h := h
  · cases hw
  · exact h

theorem Sound.elapsed {w : Window} {now : Time} (h : w.Sound)
    (hpast : pastPurgeTime now w.deleteTime w.purgeTime = true) : w.Elapsed now := by
  obtain rfl | ⟨t, rfl⟩ := h
  · cases hpast
  · rw [pastPurgeTime, Bool.and_eq_true, Option.any_eq_true] at hpast
    obtain ⟨-, past, hmem, hlt⟩ := hpast
    exact ⟨rfl, past, hmem, of_decide_eq_true hlt⟩

end Window

def organizationWindow (o : Organization) : Window := ⟨o.state, o.deleteTime, o.purgeTime⟩

def spaceWindow (s : Space) : Window := ⟨s.state, s.deleteTime, s.purgeTime⟩

def windowOf : (k : Key) → Option (Row k) → Option Window
  | .organization _, row => (live row).map organizationWindow
  | .space _, row => (live row).map spaceWindow
  | _, _ => none

def window (db : Db store) (k : Key) : Option Window := windowOf k (db.lookup k)

variable {db : Db store} {k k' : Key} {id orgId : Id} {now : Time} {w : Window}

theorem window_organization : window db (.organization id) =
    (organizationRow db id).map organizationWindow := rfl

theorem window_space : window db (.space id) = (spaceRow db id).map spaceWindow := rfl

theorem window_put (row : Option (Row k)) : window (put db k row) k = windowOf k row :=
  congrArg (windowOf k) (lookup_put db k row)

theorem window_put_ne (row : Option (Row k)) (h : k' ≠ k) :
    window (put db k row) k' = window db k' :=
  congrArg (windowOf k') (lookup_put_ne db row h)

/-! What a step does to a window -/

def Job.undeletes : Job → Option Key
  | .undeleteOrg args => some (.organization args.orgId)
  | .undeleteSpace args => some (.space args.spaceId)
  | _ => none

/- What an event of a purge tick names in its DELETE, and when. -/
def State.purges (st : State) : Event → Option (Key × Time)
  | .purgeOrg i now => st.orgsPast[i]?.map fun id => (.organization id, now)
  | .purgeSpace i now => st.spacesPast[i]?.map fun id => (.space id, now)
  | _ => none

def SpaceOf (db : Db store) (k k' : Key) : Prop :=
  ∃ id space, k = .space id ∧ spaceRow db id = some space ∧ k' = .organization space.orgId

/- The row named by a DELETE is past its window, or the one it is cascaded from is. -/
def PastWindow (db : Db store) (k' : Key) (now : Time) (k : Key) : Prop :=
  ∃ w, window db k' = some w ∧ w.Elapsed now ∧ (k = k' ∨ SpaceOf db k k')

inductive Change (st : State) (ev : Event) (k : Key) : Option Window → Option Window → Prop where
  | same (w : Option Window) : Change st ev k w w
  | created : Change st ev k none (some .active)
  | deleted (now : Time) : Change st ev k (some .active) (some (.requested now))
  | restored (i : ℕ) (job : Job) (now t : Time) (hev : ev = .work i now)
      (hjob : st.jobs[i]? = some job) (hk : job.undeletes = some k)
      (hopen : ∀ id, k = .organization id → (Window.requested t).Open now) :
      Change st ev k (some (.requested t)) (some .active)
  | removed (w : Window) (h : ∀ k' now, st.purges ev = some (k', now) → PastWindow st.db k' now k) :
      Change st ev k (some w) none

def Sound (db : Db store) : Prop := ∀ k w, window db k = some w → w.Sound

variable {st st' : State} {ev : Event}

theorem Change.sound {old new : Option Window} (h : Change st ev k old new)
    (hold : ∀ w, old = some w → w.Sound) : ∀ w, new = some w → w.Sound := by
  intro w hw
  cases h with
  | same => exact hold w hw
  | created =>
    cases hw
    exact .inl rfl
  | deleted now =>
    cases hw
    exact .inr ⟨now, rfl⟩
  | restored =>
    cases hw
    exact .inl rfl
  | removed => cases hw

theorem change_put {row : Option (Row k)} (h : Change st ev k (window db k) (windowOf k row))
    (k' : Key) : Change st ev k' (window db k') (window (put db k row) k') := by
  by_cases hk : k' = k
  · subst hk
    rw [window_put]
    exact h
  · rw [window_put_ne row hk]
    exact .same _

theorem change_update {stmt : Stmt k} (h : ∀ new, store.exec k stmt (db.lookup k) = some new →
      Change st ev k (window db k) (windowOf k new))
    (k' : Key) : Change st ev k' (window db k') (window (update db k stmt) k') := by
  obtain heq | ⟨new, hnew, heq⟩ := update_cases db k stmt
  · rw [heq]
    exact .same _
  · rw [heq]
    exact change_put (h new hnew) k'

theorem change_softDeleteOrganization (hdb : Sound db) (deletedBy : Option Id)
    {new : Option (Slot Organization)}
    (h : execOrganization (.softDeleteOrganization deletedBy now)
      (db.lookup (.organization id)) = some new) :
    Change st ev (.organization id) (window db (.organization id))
      (windowOf (.organization id) new) := by
  have hsound := hdb (.organization id)
  rw [window, windowOf] at hsound ⊢
  generalize db.lookup (Key.organization id) = cur at *
  obtain _ | o | _ := cur
  · cases h
  · simp only [execOrganization, Option.ite_none_right_eq_some, Option.some.injEq] at h
    obtain ⟨hstate, rfl⟩ := h
    have hactive : organizationWindow o = .active := (hsound _ rfl).of_active hstate
    rw [live, Option.map_some, hactive]
    exact .deleted now
  · cases h

theorem change_softDeleteSpace (hdb : Sound db) (deletedBy : Option Id) {new : Option (Slot Space)}
    (h : execSpace (.softDeleteSpace deletedBy now) (db.lookup (.space id)) = some new) :
    Change st ev (.space id) (window db (.space id)) (windowOf (.space id) new) := by
  have hsound := hdb (.space id)
  rw [window, windowOf] at hsound ⊢
  generalize db.lookup (Key.space id) = cur at *
  obtain _ | s | _ := cur
  · cases h
  · simp only [execSpace, Option.ite_none_right_eq_some, Option.some.injEq] at h
    obtain ⟨hdelete, rfl⟩ := h
    have hactive : spaceWindow s = .active := by
      obtain hactive | ⟨t, hreq⟩ := hsound _ rfl
      · exact hactive
      · have hsome : s.deleteTime = some t := congrArg Window.deleteTime hreq
        rw [hdelete] at hsome
        cases hsome
    rw [live, Option.map_some, hactive]
    exact .deleted now
  · cases h

theorem change_undeleteOrganization (hdb : Sound db) {i : ℕ} {args : UndeleteOrgArgs}
    {new : Option (Slot Organization)} (hjob : st.jobs[i]? = some (.undeleteOrg args))
    (h : execOrganization (.undeleteOrganization now)
      (db.lookup (.organization args.orgId)) = some new) :
    Change st (.work i now) (.organization args.orgId) (window db (.organization args.orgId))
      (windowOf (.organization args.orgId) new) := by
  have hsound := hdb (.organization args.orgId)
  rw [window, windowOf] at hsound ⊢
  generalize db.lookup (Key.organization args.orgId) = cur at *
  obtain _ | o | _ := cur
  · cases h
  · simp only [execOrganization, Option.ite_none_right_eq_some, Option.some.injEq] at h
    obtain ⟨⟨hstate, hopen⟩, rfl⟩ := h
    have hopen : (organizationWindow o).Open now := hopen
    obtain ⟨t, ht⟩ := (hsound _ rfl).of_requested hstate
    rw [ht] at hopen
    rw [live, Option.map_some, ht]
    exact .restored i _ now t rfl hjob rfl fun _ _ => hopen
  · cases h

theorem change_undeleteSpace (hdb : Sound db) {i : ℕ} {args : UndeleteSpaceArgs}
    {new : Option (Slot Space)} (hjob : st.jobs[i]? = some (.undeleteSpace args))
    (h : execSpace (.undeleteSpace args.updatedBy now)
      (db.lookup (.space args.spaceId)) = some new) :
    Change st (.work i now) (.space args.spaceId) (window db (.space args.spaceId))
      (windowOf (.space args.spaceId) new) := by
  have hsound := hdb (.space args.spaceId)
  rw [window, windowOf] at hsound ⊢
  generalize db.lookup (Key.space args.spaceId) = cur at *
  obtain _ | s | _ := cur
  · cases h
  · simp only [execSpace, Option.ite_none_right_eq_some, Option.some.injEq] at h
    obtain ⟨hdelete, rfl⟩ := h
    obtain hactive | ⟨t, ht⟩ := hsound _ rfl
    · exact absurd (congrArg Window.deleteTime hactive) hdelete
    · rw [live, Option.map_some, ht]
      refine .restored i _ now t rfl hjob rfl fun id hk => ?_
      cases hk
  · cases h

/- A row that goes, unless it is not there. -/
theorem change_gone
    (hpast : ∀ k' now, st.purges ev = some (k', now) → PastWindow st.db k' now k) :
    Change st ev k (window db k) none := by
  cases hw : window db k with
  | none => exact .same none
  | some w => exact .removed w hpast

/-! Cascades and purges -/

theorem execSpace_cascade {cur new : Option (Slot Space)}
    (h : execSpace (.cascade orgId) cur = some new) :
    ∃ s, live cur = some s ∧ s.orgId = orgId ∧ new = some .gone := by
  obtain _ | s | _ := cur
  · cases h
  · simp only [execSpace, Option.ite_none_right_eq_some, Option.some.injEq] at h
    exact ⟨s, rfl, h.1, h.2.symm⟩
  · cases h

/-- The spaces of an organization go with it, and nothing else does. -/
theorem lookup_cascadeSpaces (orgId : Id) (db : Db store) (k : Key) :
    (cascadeSpaces orgId db).lookup k = db.lookup k ∨
    ∃ id space, k = .space id ∧ spaceRow db id = some space ∧ space.orgId = orgId ∧
      window (cascadeSpaces orgId db) k = none := by
  -- The rows so far, against those before the cascade.
  have hfold : ∀ (rows : List (Id × Space)) (db' : Db store),
      (db'.lookup k = db.lookup k ∨ ∃ id space, k = .space id ∧ spaceRow db id = some space ∧
        space.orgId = orgId ∧ window db' k = none) →
      ((rows.foldl (cascadeSpace orgId) db').lookup k = db.lookup k ∨
        ∃ id space, k = .space id ∧ spaceRow db id = some space ∧ space.orgId = orgId ∧
          window (rows.foldl (cascadeSpace orgId) db') k = none) := by
    intro rows
    induction rows with
    | nil => exact fun _ h => h
    | cons row rows ih =>
      intro db' h
      rw [List.foldl_cons]
      apply ih
      obtain heq | ⟨new, hnew, heq⟩ :=
        @update_cases store db' (.space row.1) (.cascade orgId)
      · rw [cascadeSpace, heq]
        exact h
      · rw [cascadeSpace, heq]
        obtain ⟨s, hs, horg, rfl⟩ := execSpace_cascade hnew
        by_cases hk : k = .space row.1
        · subst hk
          right
          obtain hsame | ⟨id, space, hid, hrow, horg', -⟩ := h
          · rw [hsame] at hs
            exact ⟨row.1, s, rfl, hs, horg, window_put _⟩
          · cases hid
            exact ⟨row.1, space, rfl, hrow, horg', window_put _⟩
        · rw [lookup_put_ne db' _ hk, window_put_ne _ hk]
          exact h
  exact hfold _ db (.inl rfl)

theorem change_cascadeSpaces {db' : Db store} (h : ∀ k, Change st ev k (window db k) (window db' k))
    (hrows : ∀ id, spaceRow db' id = spaceRow db id)
    (hpast : ∀ id space, spaceRow db id = some space → space.orgId = orgId → ∀ k' now,
      st.purges ev = some (k', now) → PastWindow st.db k' now (.space id)) (k : Key) :
    Change st ev k (window db k) (window (cascadeSpaces orgId db') k) := by
  obtain hsame | ⟨id, space, rfl, hrow, horg, hgone⟩ := lookup_cascadeSpaces orgId db' k
  · have hwindow : window (cascadeSpaces orgId db') k = window db' k := congrArg (windowOf k) hsame
    rw [hwindow]
    exact h k
  · rw [hgone]
    exact change_gone (hpast id space (hrows id ▸ hrow) horg)

theorem spaceRow_put_organization (row : Option (Slot Organization)) (id' : Id) :
    spaceRow (put db (.organization id) row) id' = spaceRow db id' := by
  have hne : Key.space id' ≠ .organization id := by simp
  exact congrArg live (lookup_put_ne db row hne)

theorem execOrganization_purge {etag : Etag} {cur new : Option (Slot Organization)}
    (h : execOrganization (.purgeOrganization etag) cur = some new) : new = some .gone := by
  obtain _ | o | _ := cur
  · cases h
  · simp only [execOrganization, Option.ite_none_right_eq_some, Option.some.injEq] at h
    exact h.2.symm
  · cases h

theorem execSpace_purge {etag : Etag} {cur new : Option (Slot Space)}
    (h : execSpace (.purgeSpace etag) cur = some new) : new = some .gone := by
  obtain _ | s | _ := cur
  · cases h
  · simp only [execSpace, Option.ite_none_right_eq_some, Option.some.injEq] at h
    exact h.2.symm
  · cases h

/- An organization goes, with its spaces. -/
theorem change_goneOrganization (hpast : ∀ k, k = .organization id ∨ SpaceOf db k (.organization id) →
      ∀ k' now, st.purges ev = some (k', now) → PastWindow st.db k' now k) (k : Key) :
    Change st ev k (window db k)
      (window (cascadeSpaces id (put db (.organization id) (some .gone))) k) :=
  change_cascadeSpaces (change_put (change_gone (hpast _ (.inl rfl))))
    (spaceRow_put_organization _)
    (fun id' space hrow horg => hpast _ (.inr ⟨id', space, rfl, hrow, horg ▸ rfl⟩)) k

theorem change_purgeOrganization {etag : Etag} (hev : st.purges ev = none) (k : Key) :
    Change st ev k (window db k) (window (purgeOrganization id etag db) k) := by
  rw [purgeOrganization]
  split
  · rename_i new hnew
    obtain rfl := execOrganization_purge hnew
    refine change_goneOrganization (fun _ _ k' now h => ?_) k
    rw [hev] at h
    cases h
  · exact .same _

theorem change_purgeExpiredOrganization (hdb : Sound st.db) {i : ℕ}
    (hid : st.orgsPast[i]? = some id) (k : Key) :
    Change st (.purgeOrg i now) k (window st.db k)
      (window (purgeExpiredOrganization now id st.db) k) := by
  rw [purgeExpiredOrganization]
  split
  · rename_i o horg
    have hwindow : window st.db (.organization id) = some (organizationWindow o) := by
      rw [window_organization, horg, Option.map_some]
    split
    · rename_i hpast
      have helapsed : (organizationWindow o).Elapsed now := (hdb _ _ hwindow).elapsed hpast
      refine change_goneOrganization (fun k hk k' now' h => ?_) k
      simp only [State.purges, hid, Option.map_some, Option.some.injEq, Prod.mk.injEq] at h
      obtain ⟨rfl, rfl⟩ := h
      exact ⟨_, hwindow, helapsed, hk⟩
    · exact .same _
  · exact .same _

theorem change_purgeExpiredSpace (hdb : Sound st.db) {i : ℕ} (hid : st.spacesPast[i]? = some id)
    (k : Key) :
    Change st (.purgeSpace i now) k (window st.db k)
      (window (purgeExpiredSpace now id st.db) k) := by
  rw [purgeExpiredSpace]
  split
  · rename_i s hrow
    have hwindow : window st.db (.space id) = some (spaceWindow s) := by
      rw [window_space, hrow, Option.map_some]
    split
    · rename_i hpast
      have helapsed : (spaceWindow s).Elapsed now := (hdb _ _ hwindow).elapsed hpast
      refine change_put (change_gone fun k' now' h => ?_) k
      simp only [State.purges, hid, Option.map_some, Option.some.injEq, Prod.mk.injEq] at h
      obtain ⟨rfl, rfl⟩ := h
      exact ⟨_, hwindow, helapsed, .inl rfl⟩
    · exact .same _
  · exact .same _

theorem change_updateSpace {caller : Id} (k : Key) :
    Change st ev k (window db k) (window (updateSpace id caller now db) k) := by
  rw [updateSpace]
  split
  · rename_i s hrow
    split
    · have hwindow : window db (.space id) = some (spaceWindow s) := by
        rw [window_space, hrow, Option.map_some]
      refine change_put ?_ k
      rw [hwindow]
      exact .same _
    · exact .same _
  · exact .same _

theorem change_work (hdb : Sound st.db) {i : ℕ} {job : Job} (hjob : st.jobs[i]? = some job)
    (k : Key) :
    Change st (.work i now) k (window st.db k) (window (work now st.db job) k) := by
  cases job with
  | deleteOrg args =>
    rw [work]
    split
    · exact change_purgeOrganization rfl k
    · exact change_update (fun new h => change_softDeleteOrganization hdb _ h) k
  | undeleteOrg args => exact change_update (fun new h => change_undeleteOrganization hdb hjob h) k
  | deleteSpace args =>
    rw [work]
    split
    · refine change_update (fun new h => ?_) k
      obtain rfl := execSpace_purge h
      refine change_gone fun k' now' hpurges => ?_
      cases hpurges
    · exact change_update (fun new h => change_softDeleteSpace hdb _ h) k
  | undeleteSpace args => exact change_update (fun new h => change_undeleteSpace hdb hjob h) k

theorem enqueue_db (job : Except Err Job) : (st.enqueue job).db = st.db := by
  cases job <;> rfl

theorem change_of_step (hdb : Sound st.db) (h : step st ev = some st') (k : Key) :
    Change st ev k (window st.db k) (window st'.db k) := by
  cases ev with
  | createOrganization id name now =>
    simp only [step] at h
    split at h
    · rename_i hnone
      cases h
      refine change_put ?_ k
      rw [window, hnone]
      exact .created
    · cases h
  | createSpace id orgId name caller now =>
    simp only [step] at h
    split at h
    · rename_i hnone _
      cases h
      refine change_put ?_ k
      rw [window, hnone]
      exact .created
    · cases h
  | updateSpace id caller now =>
    cases h
    exact change_updateSpace k
  | deleteOrganization id req =>
    obtain ⟨org, -, rfl⟩ := Option.map_eq_some_iff.mp h
    rw [enqueue_db]
    exact .same _
  | undeleteOrganization id req =>
    obtain ⟨org, -, rfl⟩ := Option.map_eq_some_iff.mp h
    rw [enqueue_db]
    exact .same _
  | deleteSpace id req =>
    obtain ⟨r, -, rfl⟩ := Option.map_eq_some_iff.mp h
    rw [enqueue_db]
    exact .same _
  | undeleteSpace id req =>
    obtain ⟨r, -, rfl⟩ := Option.map_eq_some_iff.mp h
    rw [enqueue_db]
    exact .same _
  | work i now =>
    obtain ⟨job, hjob, rfl⟩ := Option.map_eq_some_iff.mp h
    exact change_work hdb hjob k
  | listOrgs now =>
    cases h
    exact .same _
  | listSpaces now =>
    cases h
    exact .same _
  | purgeOrg i now =>
    obtain ⟨id, hid, rfl⟩ := Option.map_eq_some_iff.mp h
    exact change_purgeExpiredOrganization hdb hid k
  | purgeSpace i now =>
    obtain ⟨id, hid, rfl⟩ := Option.map_eq_some_iff.mp h
    exact change_purgeExpiredSpace hdb hid k

theorem sound_of_runs (h : Runs step (fun _ _ => True) .init st) : Sound st.db := by
  have hinit : Sound State.init.db := by
    intro k w hw
    cases k <;> cases hw
  refine h.invariant (I := fun st => Sound st.db) hinit fun st ev st' hst _ hstep k => ?_
  exact (change_of_step hst hstep k).sound (hst k)

/-! The law of the grace window -/

/-- What a step may do to a soft-deleted row: restore it, by an undelete that runs while its purge
time is in the future; and what a purge tick may delete. -/
structure GraceLaw (st st' : State) (ev : Event) : Prop where
  restored : ∀ k w w', window st.db k = some w → w.state = .deleteRequested →
    window st'.db k = some w' → w'.state = .active →
    ∃ i job now, ev = .work i now ∧ st.jobs[i]? = some job ∧ job.undeletes = some k ∧ w.Open now
  purged : ∀ k k' now w, st.purges ev = some (k', now) → window st.db k = some w →
    window st'.db k = none → PastWindow st.db k' now k

/- No undelete of a space runs when the purge time of the space is past. -/
def UndeletesInTime (st : State) : Event → Prop
  | .work i now => ∀ args w, st.jobs[i]? = some (.undeleteSpace args) →
      window st.db (.space args.spaceId) = some w → w.state = .deleteRequested → w.Open now
  | _ => True

theorem undeleteSpace_restores {i : ℕ} {args : UndeleteSpaceArgs} (hdb : Sound st.db)
    (hjob : st.jobs[i]? = some (.undeleteSpace args))
    (hw : window st.db (.space args.spaceId) = some w) (hstate : w.state = .deleteRequested)
    (h : step st (.work i now) = some st') :
    window st'.db (.space args.spaceId) = some .active := by
  obtain ⟨job, hjob', rfl⟩ := Option.map_eq_some_iff.mp h
  rw [hjob] at hjob'
  cases hjob'
  obtain ⟨t, ht⟩ := (hdb _ _ hw).of_requested hstate
  rw [window_space, Option.map_eq_some_iff] at hw
  obtain ⟨s, hs, rfl⟩ := hw
  have hdelete : s.deleteTime ≠ none := by
    rw [show s.deleteTime = some t from congrArg Window.deleteTime ht]
    exact Option.some_ne_none t
  have hlive : st.db.lookup (.space args.spaceId) = some (.live s) := by
    rw [spaceRow] at hs
    generalize st.db.lookup (Key.space args.spaceId) = cur at hs ⊢
    obtain _ | _ | _ := cur <;> cases hs
    rfl
  have hexec : store.exec (.space args.spaceId) (.undeleteSpace args.updatedBy now)
      (st.db.lookup (.space args.spaceId)) = some (some (.live { s with
        state := .active, deleteTime := none, purgeTime := none, deletedBy := none,
        updatedBy := args.updatedBy, revision := s.revision + 1, etag := (now, 0) })) := by
    rw [hlive]
    exact if_pos hdelete
  change window (update st.db (.space args.spaceId) (.undeleteSpace args.updatedBy now)) _ = _
  rw [update_of_exec hexec]
  exact window_put _

/-- After any run, a step keeps the law exactly if it does not undelete a space too late. -/
theorem grace_law_iff (h : Runs step (fun _ _ => True) .init st) (hstep : step st ev = some st') :
    GraceLaw st st' ev ↔ UndeletesInTime st ev := by
  have hdb := sound_of_runs h
  constructor
  · intro hlaw
    cases ev with
    | work i now =>
      intro args w hjob hw hstate
      obtain ⟨i', job, now', hev, -, -, hopen⟩ := hlaw.restored _ w _ hw hstate
        (undeleteSpace_restores hdb hjob hw hstate hstep) rfl
      cases hev
      exact hopen
    | _ => trivial
  · intro htime
    refine ⟨fun k w w' hw hstate hw' hstate' => ?_, fun k k' now w hpurges hw hw' => ?_⟩
    · have hchange := change_of_step hdb hstep k
      rw [hw, hw'] at hchange
      cases hchange with
      | same =>
        rw [hstate] at hstate'
        cases hstate'
      | deleted => cases hstate
      | restored i job now t hev hjob hk hopen =>
        refine ⟨i, job, now, hev, hjob, hk, ?_⟩
        subst hev
        cases job with
        | undeleteOrg args =>
          cases hk
          exact hopen _ rfl
        | undeleteSpace args =>
          cases hk
          exact htime args _ hjob hw hstate
        | _ => cases hk
    · have hchange := change_of_step hdb hstep k
      rw [hw, hw'] at hchange
      cases hchange with
      | removed _ hpast => exact hpast k' now hpurges

/- A space is soft-deleted, and an undelete of it asked for in time. -/
def deletedTrace : List Event :=
  [.createOrganization 1 "acme" 0, .createSpace 2 1 "news" 7 0,
   .deleteSpace 2 ⟨false, none, 3, 7⟩, .work 0 100, .undeleteSpace 2 ⟨none, 4, 7⟩]

def deletedState : State := (exec step .init deletedTrace).get (by decide)

theorem runs_deletedState : Runs step (fun _ _ => True) .init deletedState :=
  Runs.of_exec_free deletedTrace (Option.some_get _).symm

def restoredState (now : Time) : State := (step deletedState (.work 0 now)).get rfl

theorem window_deletedState : window deletedState.db (.space 2) = some (.requested 100) := by decide

theorem grace_law_iff_news :
    GraceLaw deletedState (restoredState 200) (.work 0 200) := by
  refine (grace_law_iff runs_deletedState (Option.some_get _).symm).mpr ?_
  intro args w hjob hw _
  cases hjob
  rw [window_deletedState, Option.some.injEq] at hw
  subst hw
  exact Window.open_requested.mpr (by decide)

/- The job of the undelete runs when the thirty days are over. -/
theorem restored_past_window : ¬ ∀ (st st' : State) (ev : Event),
    Runs step (fun _ _ => True) .init st → step st ev = some st' → GraceLaw st st' ev := by
  intro h
  have hlaw := h deletedState (restoredState 2592101) (.work 0 2592101) runs_deletedState
    (Option.some_get _).symm
  obtain ⟨i, job, now, hev, -, -, hopen⟩ := hlaw.restored (.space 2) (.requested 100) .active
    window_deletedState rfl (by decide) rfl
  cases hev
  exact absurd (Window.open_requested.mp hopen) (by decide)

end Pivox.GraceWindow
