import Pivox.WorkflowVersions.Operations

/-!
What holds of containers and their versions over whole runs: the promoted pointer of a workflow is
to a version of its own, and a version number names one definition, as long as the highest number
is not freed and given away again.
-/

namespace Pivox.WorkflowVersions
open ReadCommitted Transition
open Workflows (WorkflowVersion)

def Intact (db : Db store) : Prop := ∀ id, WorkflowOk id db

theorem intact_empty : Intact ∅ := fun _ => ⟨fun _ _ h => by simp at h, fun _ h => by cases h⟩

theorem intact_local {db : Db store} (h : Intact db) (g : Key) : guarded.Local g db := by
  cases g with
  | workflow id => exact h id
  | version _ => trivial

/-! The promoted pointer -/

def PointersOwn (db : Db store) : Prop :=
  ∀ id w version, db.lookup (.workflow id) = some (.live w) → w.version = some version →
    ∃ v, db.lookup (.version version) = some (.live v) ∧ v.workflowId = id

def PromotedStay (db db' : Db store) : Prop :=
  ∀ id w, db.lookup (.workflow id) = some (.live w) → w.version ≠ none →
    db'.lookup (.workflow id) = some .gone ∨
      ∃ w', db'.lookup (.workflow id) = some (.live w') ∧ w'.version ≠ none

/-- Every pointer is NULL or to a version of the workflow's own, and a promoted workflow stays
promoted as long as it is there. -/
theorem pointers_own {db : Db store} (hdb : Intact db) {st st' : State store Op}
    (h : Runs (step code) (fun _ _ => True) (.rest db) st)
    (h' : Runs (step code) (fun _ _ => True) st st') :
    PointersOwn st'.db ∧ PromotedStay st.db st'.db := by
  have hrest : (State.rest db).Ok (contract false) := State.ok_rest ⟨intact_local hdb, nofun⟩
  have hmeets : ∀ (st : State store Op) l, True → (contract false).Meets code st l :=
    fun _ _ _ => Guarded.meets_of_fit fun _ _ => nofun
  have hok : st.Ok (contract false) := hrest.runs contract_safe hmeets h
  have hok' : st'.Ok (contract false) := hok.runs contract_safe hmeets h'
  have hgrows : guarded.Grows st.db st'.db := Guarded.grows_of_runs hok contract_safe hmeets h'
  refine ⟨fun id w version hw hv => ?_, fun id w hw hv => ?_⟩
  · exact (hok'.inv.1 (.workflow id)).pointer w version hw hv
  · exact (hgrows.stays (.workflow id)).promoted w hw hv

/- One workflow, and requests for its versions. -/
def acme : RequestScope := ⟨1, none⟩

def createTrace : List (Label store Op) :=
  [.spawn (.createWorkflow acme ⟨"deploy", .owned, "", "", true, .ok "", .ok "", false⟩),
   .told 0 Ask.newId (some (10 : Nat)), .told 0 Ask.etag "a", .run 0, .run 0, .run 0]

def versionTrace (p : Nat) (id : Id) (definition : Json) : List (Label store Op) :=
  [.spawn (.createWorkflowVersion acme ⟨some "deploy", true, .ok definition, "", false⟩),
   .told p Ask.newId (some id), .run p, .run p, .run p, .run p, .run p, .run p]

def promoteTrace (p n : Nat) : List (Label store Op) :=
  [.spawn (.promoteWorkflowVersion acme ⟨some "deploy", some ("deploy", n), false⟩), .run p, .run p,
   .run p, .run p, .told p Ask.etag "b", .run p, .run p, .run p]

def deleteTrace (p n : Nat) (id : Id) : List (Label store Op) :=
  [.spawn (.deleteWorkflowVersion acme ⟨some ("deploy", n), false⟩), .run p, .run p, .run p, .run p,
   .told p (Ask.hasRuns id) false, .run p, .run p, .run p]

def oneVersion : State store Op :=
  (exec (step code) (.rest ∅) (createTrace ++ versionTrace 1 21 "a")).get (by decide)

def promoted : State store Op := (exec (step code) oneVersion (promoteTrace 2 1)).get (by decide)

/- Past the promotion: another version is created and promoted, and the first one deleted. -/
def repromoteTrace : List (Label store Op) :=
  versionTrace 3 22 "b" ++ promoteTrace 4 2 ++ deleteTrace 5 1 21

def repromoted : State store Op := (exec (step code) promoted repromoteTrace).get (by decide)

theorem pointers_own_promoted :
    ((workflows promoted.db).map (·.2.version) = [some 21] ∧
      (workflows repromoted.db).map (·.2.version) = [some 22]) ∧
    PointersOwn repromoted.db ∧ PromotedStay promoted.db repromoted.db :=
  ⟨by decide, pointers_own intact_empty
    ((Runs.of_exec_free (createTrace ++ versionTrace 1 21 "a") (Option.some_get _).symm).trans
      (Runs.of_exec_free (promoteTrace 2 1) (Option.some_get _).symm))
    (Runs.of_exec_free repromoteTrace (Option.some_get _).symm)⟩

/-! The version numbers -/

def deletedVersions (db : AList Row) : List (Id × WorkflowVersion) :=
  db.entries.filterMap fun
    | ⟨.version id, .gone v⟩ => some (id, v)
    | _ => none

theorem mem_deletedVersions {db : AList Row} {id : Id} {v : WorkflowVersion} :
    (id, v) ∈ deletedVersions db ↔ db.lookup (.version id) = some (.gone v) := by
  rw [← Option.mem_def, AList.mem_lookup_iff]
  simp only [deletedVersions, List.mem_filterMap]
  constructor
  · rintro ⟨⟨k, row⟩, hmem, hrow⟩
    split at hrow
    · rename_i heq
      cases hrow
      rwa [heq] at hmem
    · cases hrow
  · exact fun h => ⟨_, h, rfl⟩

def keepsHighest (db db' : Db store) : Bool :=
  (versions db').all fun v => (db.lookup (.version v.1)).isSome ||
    (deletedVersions db).all fun g => g.2.workflowId ≠ v.2.workflowId ||
      (versionsOf db g.2.workflowId).any fun l => g.2.versionNumber < l.2.versionNumber

theorem highestKept_iff {db db' : Db store} :
    HighestKept db db' ↔ keepsHighest db db' = true := by
  simp only [keepsHighest, List.all_eq_true, List.any_eq_true, Bool.or_eq_true,
    decide_eq_true_eq, Prod.forall, Prod.exists, mem_versions, mem_versionsOf, mem_deletedVersions]
  constructor
  · intro h id v hv
    cases hrow : db.lookup (.version id) with
    | some row => exact .inl rfl
    | none =>
      refine .inr fun id' g hg => ?_
      by_cases hid : g.workflowId = v.workflowId
      · obtain ⟨id'', l, hl, hlid, hlt⟩ := h id v hrow hv id' g hg hid
        exact .inr ⟨id'', l, ⟨hl, hlid⟩, hlt⟩
      · exact .inl hid
  · intro h id v hrow hv id' g hg hid
    obtain hsome | hall := h id v hv
    · rw [hrow] at hsome
      cases hsome
    · obtain hne | ⟨id'', l, ⟨hl, hlid⟩, hlt⟩ := hall id' g hg
      · exact absurd hid hne
      · exact ⟨id'', l, hl, hlid, hlt⟩

instance (db db' : Db store) : Decidable (HighestKept db db') :=
  decidable_of_iff _ highestKept_iff.symm

/-- No version is created in a workflow that has lost its highest number so far. -/
def KeepsHighest (st : State store Op) (l : Label store Op) : Prop :=
  ∀ st' ∈ step code st l, HighestKept st.db st'.db

instance (st : State store Op) (l : Label store Op) : Decidable (KeepsHighest st l) :=
  inferInstanceAs (Decidable (∀ st' ∈ step code st l, _))

theorem KeepsHighest.meets {st : State store Op} {l : Label store Op} (h : KeepsHighest st l) :
    (contract true).Meets code st l :=
  Guarded.meets_of_fit fun st' hstep _ => h st' hstep

/-- The number of the version is never that of another row, and a step pinned to it runs that
version or none. -/
structure NamesOne (db db' : Db store) : Prop where
  row : ∀ id id' v v', db.lookup (.version id) = some (.live v) →
    db'.lookup (.version id') = some (.live v') → v'.workflowId = v.workflowId →
    v'.versionNumber = v.versionNumber → id' = id ∧ v' = v
  pinned : ∀ id v, db.lookup (.version id) = some (.live v) →
    ∀ {δ : Type} (decode : Json → Option (Option δ)) scope wfSlug rows laterRows,
      (laterRows = none ∨ laterRows = some db') →
      resolveTarget decode scope wfSlug v.versionNumber rows laterRows = .error .notFound ∨
      resolveTarget decode scope wfSlug v.versionNumber rows laterRows = .error .retryable ∧
        (rows = none ∨ laterRows = none) ∨
      ∃ found wf ver, rows = some found ∧
        answer (.getWorkflowByParent ⟨scope.orgId, scope.spaceId, wfSlug⟩) found = some wf ∧
        resolveTarget decode scope wfSlug v.versionNumber rows laterRows =
          targetFromVersion decode wf.1 ver ∧ (wf.1 = v.workflowId → ver = v)

theorem namesOne {db db' : Db store} (hnum : Numbered db') (hgrows : guarded.Grows db db') :
    NamesOne db db' := by
  have hrow : ∀ id id' v v', db.lookup (.version id) = some (.live v) →
      db'.lookup (.version id') = some (.live v') → v'.workflowId = v.workflowId →
      v'.versionNumber = v.versionNumber → id' = id ∧ v' = v := by
    intro id id' v v' hv hv' hwf hn
    have hlater : slotVersion (db'.lookup (.version id)) = some v :=
      VersionStays.slotVersion (hgrows.stays (.version id)) (by rw [hv]; rfl)
    have hslot : slotVersion (db'.lookup (.version id')) = some v' := by
      rw [hv']
      rfl
    obtain rfl := hnum id' id v' v hslot hlater hwf hn
    exact ⟨rfl, Option.some.inj (hslot.symm.trans hlater)⟩
  refine ⟨hrow, fun id v hv δ decode scope wfSlug rows laterRows hlater => ?_⟩
  unfold resolveTarget
  cases rows with
  | none => exact .inr (.inl ⟨rfl, .inl rfl⟩)
  | some rows =>
    dsimp only
    cases hwf : answer (.getWorkflowByParent ⟨scope.orgId, scope.spaceId, wfSlug⟩) rows with
    | none => exact .inl rfl
    | some wf =>
      obtain rfl | rfl := hlater
      · exact .inr (.inl ⟨rfl, .inr rfl⟩)
      · dsimp only
        cases hver : answer (.getWorkflowVersionByNumber wf.1 v.versionNumber) db' with
        | none => exact .inl rfl
        | some ver =>
          refine .inr (.inr ⟨rows, wf, ver.2, rfl, hwf, rfl, fun hid => ?_⟩)
          obtain ⟨hlive, hown⟩ := mem_versionsOf.mp (List.mem_of_find?_eq_some hver)
          have hn : ver.2.versionNumber = v.versionNumber := by simpa using List.find?_some hver
          exact (hrow id ver.1 v ver.2 hv hlive (hown.trans hid) hn).2

/-- Until a workflow that has lost its highest number gets a new version, a number once committed
stays the name of one row. -/
theorem version_number_names_one {db : Db store} (hdb : Intact db) (hnum : Numbered db)
    {st st' : State store Op} (h : Runs (step code) KeepsHighest (.rest db) st)
    (h' : Runs (step code) KeepsHighest st st') : NamesOne st.db st'.db := by
  have hrest : (State.rest db).Ok (contract true) := State.ok_rest ⟨intact_local hdb, fun _ => hnum⟩
  have hmeets : ∀ st l, KeepsHighest st l → (contract true).Meets code st l := fun _ _ h => h.meets
  have hok : st.Ok (contract true) := hrest.runs contract_safe hmeets h
  have hok' : st'.Ok (contract true) := hok.runs contract_safe hmeets h'
  exact namesOne (hok'.inv.2 rfl) (Guarded.grows_of_runs hok contract_safe hmeets h')

theorem numbered_empty : Numbered ∅ := fun _ _ _ _ h => by cases h

def twoVersions : State store Op := (exec (step code) oneVersion (versionTrace 2 22 "b")).get (by decide)

/- The lower number is deleted before the next version, or the highest one. -/
def lowerTrace : List (Label store Op) := deleteTrace 3 1 21 ++ versionTrace 4 23 "c"

def highestTrace : List (Label store Op) := deleteTrace 3 2 22 ++ versionTrace 4 23 "c"

def lowerDeleted : State store Op := (exec (step code) twoVersions lowerTrace).get (by decide)

def highestDeleted : State store Op := (exec (step code) twoVersions highestTrace).get (by decide)

theorem version_number_names_one_lower : NamesOne twoVersions.db lowerDeleted.db :=
  version_number_names_one intact_empty numbered_empty
    ((Runs.of_exec (createTrace ++ versionTrace 1 21 "a") (Option.some_get _).symm (by decide)).trans
      (Runs.of_exec (versionTrace 2 22 "b") (Option.some_get _).symm (by decide)))
    (Runs.of_exec lowerTrace (Option.some_get _).symm (by decide))

/-- With its highest version deleted, the workflow gives the number to the next definition. -/
theorem version_number_not_names_one :
    ¬ ∀ (st st' : State store Op), Runs (step code) (fun _ _ => True) (.rest ∅) st →
      Runs (step code) (fun _ _ => True) st st' → NamesOne st.db st'.db := by
  intro h
  have hone : Runs (step code) (fun _ _ => True) (.rest ∅) oneVersion :=
    Runs.of_exec_free (createTrace ++ versionTrace 1 21 "a") (Option.some_get _).symm
  have htwo : Runs (step code) (fun _ _ => True) oneVersion twoVersions :=
    Runs.of_exec_free (versionTrace 2 22 "b") (Option.some_get _).symm
  have hagain : Runs (step code) (fun _ _ => True) twoVersions highestDeleted :=
    Runs.of_exec_free highestTrace (Option.some_get _).symm
  have hnames := h twoVersions highestDeleted (hone.trans htwo) hagain
  obtain ⟨hid, -⟩ := hnames.row 22 23 ⟨10, 2, "", "b"⟩ ⟨10, 2, "", "c"⟩ (by decide) (by decide) rfl rfl
  cases hid

end Pivox.WorkflowVersions
