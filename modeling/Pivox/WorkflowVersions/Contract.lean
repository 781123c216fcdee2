import Pivox.ReadCommitted.Guarded
import Pivox.WorkflowVersions.Handlers

/-!
What the handlers keep of containers and versions: a version changes only under the lock of its
workflow, and a pointer is to a version of the workflow's own.
-/

namespace Pivox.WorkflowVersions
open ReadCommitted
open Workflows (Workflow WorkflowVersion touched)

/- The version in a row, deleted or not. -/
def slotVersion : Option VersionSlot → Option WorkflowVersion
  | some (.live v) => some v
  | some (.gone v) => some v
  | none => none

def owner (row : Option VersionSlot) : Option Id := (slotVersion row).map (·.workflowId)

def workflowStamp : Option (Slot Workflow) → WithTop ℕ
  | none => (0 : ℕ)
  | some (.live w) => (w.xmax + 1 : ℕ)
  | some .gone => ⊤

def versionStamp : Option VersionSlot → WithTop ℕ
  | none => (0 : ℕ)
  | some (.live _) => (1 : ℕ)
  | some (.gone _) => (2 : ℕ)

/-- What any writers leave of a container: it is not created twice, and once promoted it stays
so. -/
structure WorkflowStays (old new : Option (Slot Workflow)) : Prop where
  used : old ≠ none → new ≠ none
  gone : old = some .gone → new = some .gone
  promoted : ∀ w, old = some (.live w) → w.version ≠ none →
    new = some .gone ∨ ∃ w', new = some (.live w') ∧ w'.version ≠ none

theorem WorkflowStays.refl (old : Option (Slot Workflow)) : WorkflowStays old old where
  used h := h
  gone h := h
  promoted w h hw := .inr ⟨w, h, hw⟩

theorem WorkflowStays.trans {a b c : Option (Slot Workflow)} (h : WorkflowStays a b)
    (h' : WorkflowStays b c) : WorkflowStays a c where
  used ha := h'.used (h.used ha)
  gone ha := h'.gone (h.gone ha)
  promoted w ha hw := by
    obtain hb | ⟨w', hb, hw'⟩ := h.promoted w ha hw
    · exact .inl (h'.gone hb)
    · exact h'.promoted w' hb hw'

/-- A version is never written again, but for its deletion. -/
structure VersionStays (old new : Option VersionSlot) : Prop where
  live : ∀ v, old = some (.live v) → new = some (.live v) ∨ new = some (.gone v)
  gone : ∀ v, old = some (.gone v) → new = some (.gone v)

theorem VersionStays.refl (old : Option VersionSlot) : VersionStays old old where
  live _ h := .inl h
  gone _ h := h

theorem VersionStays.trans {a b c : Option VersionSlot} (h : VersionStays a b)
    (h' : VersionStays b c) : VersionStays a c where
  live v ha := by
    obtain hb | hb := h.live v ha
    · exact h'.live v hb
    · exact .inr (h'.gone v hb)
  gone v ha := h'.gone v (h.gone v ha)

theorem VersionStays.slotVersion {old new : Option VersionSlot} (h : VersionStays old new)
    {v : WorkflowVersion} (hv : slotVersion old = some v) : slotVersion new = some v := by
  obtain _ | v' | v' := old
  · cases hv
  · cases hv
    obtain hnew | hnew := h.live v rfl
    · rw [hnew]
      rfl
    · rw [hnew]
      rfl
  · cases hv
    rw [h.gone v rfl]
    rfl

/- What holds of a container and the versions under its lock. -/
structure WorkflowOk (id : Id) (db : Db store) : Prop where
  pointer : ∀ w version, db.lookup (.workflow id) = some (.live w) → w.version = some version →
    ∃ v, db.lookup (.version version) = some (.live v) ∧ v.workflowId = id
  owned : ∀ version, owner (db.lookup (.version version)) = some id →
    db.lookup (.workflow id) ≠ none

/- A change of a version that its workflow guards. -/
def VersionGuard (id : Id) (old new : Option VersionSlot) : Prop :=
  old ≠ new ∧ (owner old = some id ∨ owner new = some id)

theorem VersionGuard.eq {id : Id} {old new : Option VersionSlot} (h : ¬ VersionGuard id old new)
    (howner : owner old = some id ∨ owner new = some id) : old = new := by
  by_contra hne
  exact h ⟨hne, howner⟩

def guarded : Guarded store where
  stamp
    | .workflow _ => workflowStamp
    | .version _ => versionStamp
  guards
    | .workflow id, .version _ => VersionGuard id
    | _, _ => fun _ _ => False
  stays
    | .workflow _ => WorkflowStays
    | .version _ => VersionStays
  Local
    | .workflow id, db => WorkflowOk id db
    | .version _, _ => True
  guards_irrefl
    | .workflow _, .version _, _ => fun h => h.1 rfl
    | .workflow _, .workflow _, _ => id
    | .version _, _, _ => id
  guards_trans
    | .workflow id, .version _, a, b, c => by
      rintro hab hbc ⟨hne, howner⟩
      obtain ha | hc := howner
      · obtain rfl : a = b := VersionGuard.eq hab (.inl ha)
        exact hbc ⟨hne, .inl ha⟩
      · obtain rfl : b = c := VersionGuard.eq hbc (.inr hc)
        exact hab ⟨hne, .inr hc⟩
    | .workflow _, .workflow _, _, _, _ => fun h _ => h
    | .version _, _, _, _, _ => fun h _ => h
  stays_refl
    | .workflow _, _ => .refl _
    | .version _, _ => .refl _
  stays_trans
    | .workflow _, _, _, _ => .trans
    | .version _, _, _, _ => .trans
  local_of_agree
    | .version _, _, _, _, _, _, _ => trivial
    | .workflow id, db, db', hok, hrow, _, hguards => by
      have hsame : ∀ version, owner (db.lookup (.version version)) = some id ∨
          owner (db'.lookup (.version version)) = some id →
          db.lookup (.version version) = db'.lookup (.version version) :=
        fun version howner => VersionGuard.eq (hguards (.version version)) howner
      refine ⟨fun w version hw hv => ?_, fun version howner => ?_⟩
      · obtain ⟨v, hlive, hid⟩ := hok.pointer w version (hrow ▸ hw) hv
        refine ⟨v, ?_, hid⟩
        rw [← hsame version (.inl (by rw [hlive]; simp [owner, slotVersion, hid])), hlive]
      · rw [hrow]
        exact hok.owned version (by rwa [hsame version (.inr howner)])

variable {id version : Id} {old : Option (Slot Workflow)}

theorem workflowStamp_touched (w w' : Workflow) (h : w'.xmax = w.xmax) :
    workflowStamp (some (.live w)) < workflowStamp (some (.live (touched w'))) := by
  simp only [workflowStamp, touched, h]
  exact WithTop.coe_lt_coe.mpr (Nat.lt_succ_self _)

theorem workflowStamp_gone (w : Workflow) :
    workflowStamp (some (.live w)) < workflowStamp (some .gone) :=
  WithTop.coe_lt_top _

theorem versionStamp_gone (v : WorkflowVersion) :
    versionStamp (some (.live v)) < versionStamp (some (.gone v)) :=
  WithTop.coe_lt_coe.mpr (Nat.lt_succ_self 1)

/-! The numbers of the versions -/

/-- Of a workflow, no number is that of two versions, deleted or not. -/
def Numbered (db : Db store) : Prop :=
  ∀ id id' v v', slotVersion (db.lookup (.version id)) = some v →
    slotVersion (db.lookup (.version id')) = some v' → v.workflowId = v'.workflowId →
    v.versionNumber = v'.versionNumber → id = id'

/-- Where a version is created, the workflow still has one whose number is above those of all that
have been deleted. -/
def HighestKept (db db' : Db store) : Prop :=
  ∀ id v, db.lookup (.version id) = none → db'.lookup (.version id) = some (.live v) →
    ∀ id' g, db.lookup (.version id') = some (.gone g) → g.workflowId = v.workflowId →
      ∃ id'' l, db.lookup (.version id'') = some (.live l) ∧ l.workflowId = g.workflowId ∧
        g.versionNumber < l.versionNumber

/- A number above those of the versions that the workflow has. -/
def Above (n : Nat) (workflowId : Id) (db : Db store) : Prop :=
  ∀ id l, db.lookup (.version id) = some (.live l) → l.workflowId = workflowId → l.versionNumber < n

/- A version that is there now, and was not before. -/
structure Created (db db' : Db store) (id : Id) (v : WorkflowVersion) : Prop where
  before : db.lookup (.version id) = none
  now : db'.lookup (.version id) = some (.live v)

/-- At most one version is created at a time, with a number above those that its workflow has. -/
structure CreatesAbove (db db' : Db store) : Prop where
  above : ∀ id v, Created db db' id v → Above v.versionNumber v.workflowId db
  one : ∀ id id' v v', Created db db' id v → Created db db' id' v' → id = id'

/-- The contract of the handlers; that the numbers stay apart is part of it only if `numbers` is
set. -/
def contract (numbers : Bool) : Contract store Op :=
  guarded.contract (fun db => numbers = true → Numbered db)
    (fun db db' => numbers = true → HighestKept db db') fun _ => CreatesAbove

/-- The pending writes: at most one of them creates a version, with a number above the others. -/
structure Pends (own : Pending store) (db : Db store) : Prop where
  held : guarded.Held own db
  above : ∀ id v, own.lookup (.version id) = some (some (.live v)) →
    Above v.versionNumber v.workflowId db
  one : ∀ id id' v v', own.lookup (.version id) = some (some (.live v)) →
    own.lookup (.version id') = some (some (.live v')) → id = id'
  deleted : ∀ id v, own.lookup (.version id) = some (some (.gone v)) →
    db.lookup (.version id) = some (.live v)

section pending
variable {own : Pending store} {db db' : Db store} {v : WorkflowVersion}

theorem Pends.created (h : Pends own db)
    (hv : own.lookup (.version id) = some (some (.live v))) :
    db.lookup (.version id) = none ∧ Key.workflow v.workflowId ∈ own := by
  have hstamp := h.held.stamp _ _ hv
  have hnone : db.lookup (.version id) = none := by
    cases hrow : db.lookup (.version id) with
    | none => rfl
    | some slot =>
      exfalso
      rw [hrow] at hstamp
      cases slot with
      | live v' => exact lt_irrefl _ hstamp
      | gone v' => exact absurd (WithTop.coe_lt_coe.mp hstamp) (by decide)
  refine ⟨hnone, h.held.guarded _ _ _ hv ?_⟩
  rw [hnone]
  exact ⟨nofun, .inr rfl⟩

/-- Under the lock of a workflow its versions stay as they are. -/
theorem same_of_locked (hgrows : guarded.Grows db db')
    (hrow : db'.lookup (.workflow id) = db.lookup (.workflow id))
    (howner : owner (db.lookup (.version version)) = some id ∨
      owner (db'.lookup (.version version)) = some id) :
    db.lookup (.version version) = db'.lookup (.version version) :=
  VersionGuard.eq (hgrows.guarded (.workflow id) (by rw [hrow]) (.version version)) howner

theorem Above.of_locked {n : Nat} (h : Above n id db) (hgrows : guarded.Grows db db')
    (hrow : db'.lookup (.workflow id) = db.lookup (.workflow id)) : Above n id db' := by
  intro version l hl hid
  have howner : owner (db'.lookup (.version version)) = some id := by
    rw [hl]
    simp [owner, slotVersion, hid]
  rw [← same_of_locked hgrows hrow (.inr howner)] at hl
  exact h version l hl hid

theorem Pends.later {log : Log store Op} {numbers : Bool} (h : Pends own db)
    (hl : Later (contract numbers) own log db db') : Pends own db' where
  held := h.held.later hl.inv.1 hl.rely hl.own
  above id v hv := (h.above id v hv).of_locked hl.rely (hl.own _ (h.created hv).2)
  one := h.one
  deleted id v hv := (hl.own (.version id) (Guarded.mem_of_lookup hv)).trans (h.deleted id v hv)

theorem lookup_insert_workflow (new : Option (Slot Workflow)) :
    (own.insert (Key.workflow id) new).lookup (Key.version version) =
      own.lookup (Key.version version) :=
  AList.lookup_insert_ne (by simp)

theorem lookup_insert_version {id' : Id} (new : Option VersionSlot) (h : id' ≠ version) :
    (own.insert (Key.version version) new).lookup (Key.version id') =
      own.lookup (Key.version id') :=
  AList.lookup_insert_ne (by simpa using h)

theorem Pends.workflow (h : Pends own db) {new : Option (Slot Workflow)}
    (hnew : guarded.Moves own (overlay own db) (.workflow id) new) :
    Pends (own.insert (Key.workflow id) new) db where
  held := h.held.insert hnew
  above version v hv := h.above version v (by rwa [lookup_insert_workflow] at hv)
  one version version' v v' hv hv' := by
    rw [lookup_insert_workflow] at hv hv'
    exact h.one version version' v v' hv hv'
  deleted version v hv := h.deleted version v (by rwa [lookup_insert_workflow] at hv)

/- The transaction has created no version. -/
def Deletes (own : Pending store) : Prop :=
  ∀ id v, own.lookup (.version id) ≠ some (some (.live v))

theorem Deletes.workflow (h : Deletes own) (new : Option (Slot Workflow)) :
    Deletes (own.insert (Key.workflow id) new) := by
  intro version v hv
  rw [lookup_insert_workflow] at hv
  exact h version v hv

theorem Deletes.afterDelete (h : Deletes own) (version : Id) (v : WorkflowVersion) :
    Deletes (own.insert (Key.version version) (some (.gone v))) := by
  intro id v' hv'
  by_cases heq : id = version
  · subst heq
    rw [AList.lookup_insert] at hv'
    cases hv'
  · rw [lookup_insert_version _ heq] at hv'
    exact h id v' hv'

theorem Pends.deleteVersion (h : Pends own db) (hdeletes : Deletes own)
    (hrow : (overlay own db).lookup (.version version) = some (.live v))
    (hnew : guarded.Moves own (overlay own db) (.version version) (some (.gone v))) :
    Pends (own.insert (Key.version version) (some (.gone v))) db := by
  have hnone := hdeletes.afterDelete version v
  refine ⟨h.held.insert hnew, fun id v' hv' => absurd hv' (hnone id v'), ?_, fun id v' hv' => ?_⟩
  · exact fun id _ v' _ hv' _ => absurd hv' (hnone id v')
  · by_cases heq : id = version
    · subst heq
      rw [AList.lookup_insert] at hv'
      cases hv'
      obtain ⟨-, hover⟩ | ⟨r, hown, hover⟩ := Guarded.lookup_cases own db (Key.version id)
      · exact hover.symm.trans hrow
      · rw [hover.symm.trans hrow] at hown
        exact absurd hown (hdeletes id v)
    · rw [lookup_insert_version _ heq] at hv'
      exact h.deleted id v' hv'

theorem Pends.createVersion (h : Pends own db)
    (hnone : ∀ id, own.lookup (.version id) = none) (habove : Above v.versionNumber v.workflowId db)
    (hnew : guarded.Moves own (overlay own db) (.version version) (some (.live v))) :
    Pends (own.insert (Key.version version) (some (.live v))) db := by
  have honly : ∀ id slot, (own.insert (Key.version version) (some (.live v))).lookup
      (Key.version id) = some (some slot) → id = version ∧ .live v = slot := by
    intro id slot hslot
    by_cases heq : id = version
    · subst heq
      rw [AList.lookup_insert] at hslot
      cases hslot
      exact ⟨rfl, rfl⟩
    · rw [lookup_insert_version _ heq, hnone] at hslot
      cases hslot
  refine ⟨h.held.insert hnew, fun id v' hv' => ?_, fun id id' v' v'' hv' hv'' => ?_,
    fun id v' hv' => ?_⟩
  · cases (honly id _ hv').2
    exact habove
  · rw [(honly id _ hv').1, (honly id' _ hv'').1]
  · cases (honly id _ hv').2

/-- The version behind a row that the transaction leaves: a new one, or the row's before it. -/
theorem Pends.slotVersion (h : Pends own db)
    (hv : slotVersion ((overlay own db).lookup (.version id)) = some v) :
    own.lookup (.version id) = some (some (.live v)) ∧ db.lookup (.version id) = none ∨
      slotVersion (db.lookup (.version id)) = some v := by
  obtain ⟨-, hover⟩ | ⟨r, hown, hover⟩ := Guarded.lookup_cases own db (Key.version id)
  · right
    rwa [show (overlay own db).lookup (.version id) = _ from hover] at hv
  · rw [show (overlay own db).lookup (.version id) = _ from hover] at hv
    obtain _ | v' | v' := r
    · cases hv
    · cases hv
      exact .inl ⟨hown, (h.created hown).1⟩
    · cases hv
      right
      rw [h.deleted id v hown]
      rfl

theorem Pends.created_of_overlay (h : Pends own db) (hv : Created db (overlay own db) id v) :
    own.lookup (.version id) = some (some (.live v)) := by
  obtain ⟨hown, -⟩ | hold := h.slotVersion (by rw [hv.now]; rfl)
  · exact hown
  · rw [hv.before] at hold
    cases hold

theorem Pends.createsAbove (h : Pends own db) : CreatesAbove db (overlay own db) where
  above id v hv := h.above id v (h.created_of_overlay hv)
  one id id' v v' hv hv' := h.one id id' v v' (h.created_of_overlay hv) (h.created_of_overlay hv')

/-- A COMMIT that creates its version while the highest number is still there keeps the numbers
apart. -/
theorem Pends.numbered (h : Pends own db) (hnum : Numbered db)
    (hkept : HighestKept db (overlay own db)) : Numbered (overlay own db) := by
  -- A new version against one that was there before.
  have hnew : ∀ id id' v v', own.lookup (.version id) = some (some (.live v)) →
      db.lookup (.version id) = none →
      WorkflowVersions.slotVersion (db.lookup (.version id')) = some v' →
      v'.workflowId = v.workflowId → v'.versionNumber < v.versionNumber := by
    intro id id' v v' hown hnone hold hwf
    have habove := h.above id v hown
    cases hrow : db.lookup (.version id') with
    | none =>
      rw [hrow] at hold
      cases hold
    | some slot =>
      rw [hrow] at hold
      cases slot with
      | live l =>
        cases hold
        exact habove id' v' hrow hwf
      | gone g =>
        cases hold
        have hover : (overlay own db).lookup (Key.version id) = some (.live v) :=
          @lookup_overlay_of_some store own db (Key.version id) _ hown
        obtain ⟨id'', l, hl, hlwf, hlt⟩ := hkept id v hnone hover id' v' hrow hwf
        exact hlt.trans (habove id'' l hl (hlwf.trans hwf))
  intro id id' v v' hv hv' hwf heq
  obtain ⟨hown, hnone⟩ | hold := h.slotVersion hv
  · obtain ⟨hown', -⟩ | hold' := h.slotVersion hv'
    · exact h.one id id' v v' hown hown'
    · have hlt := hnew id id' v v' hown hnone hold' hwf.symm
      omega
  · obtain ⟨hown', hnone'⟩ | hold' := h.slotVersion hv'
    · have hlt := hnew id' id v' v hown' hnone' hold hwf
      omega
    · exact hnum id id' v v' hold hold' hwf heq

end pending

end Pivox.WorkflowVersions
