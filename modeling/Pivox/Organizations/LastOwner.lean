import Pivox.Organizations.OrganizationOutlines

/-!
Every ACTIVE organization keeps an owner, at READ COMMITTED as long as no operation commits what the
guard of another, read before, was to prevent.
-/

namespace Pivox.Organizations
open ReadCommitted Transition

theorem ownerContract_safe (op : MemberOp) (db : Db store) (_ : Owned db) :
    Safe ownerContract (memberCode op) .idle ∅ (.start op) db := by
  cases op with
  | createMember orgId caller req => exact safe_createMember orgId caller req db
  | updateMember orgId req => exact safe_updateMember orgId req db
  | deleteMember orgId req => exact safe_deleteMember orgId req db
  | transferOwnership req => exact safe_transferOwnership req db
  | deleteUser orgId req => exact safe_deleteUser orgId req db
  | deleteAccount args => exact safe_deleteAccount args db
  | deleteOrg args => exact safe_deleteOrg args db
  | undeleteOrg args => exact safe_undeleteOrg args db

/- The guards that an operation has read, whatever it was told, and that hold before the step hold
after it. -/
def keepsGuards (log : Log store MemberOp) (db db' : Db store) : Bool :=
  log.events.all fun
    | .read q _ => !guards log.op q || !passes db q || passes db' q
    | .answered _ _ => true

theorem guardsPass_of_keepsGuards {log : Log store MemberOp} {db db' : Db store}
    (h : keepsGuards log db db' = true) : GuardsPass log db db' := by
  intro q a hq hg hp
  have hread := List.all_eq_true.mp h _ hq
  simpa [hg, hp] using hread

/-- What the step commits fits, and no guard that another operation under way has read holds before
the step and fails after it. -/
def SparesOwners (st : State store MemberOp) : Label store MemberOp → Prop
  | .spawn _ => True
  | .act p a => ∀ st' ∈ step memberCode st (.act p a), fits st.db st'.db = true ∧
    ∀ t ∈ st.sessions.eraseIdx p, t.code.isDone = false → keepsGuards t.log st.db st'.db = true

instance (st : State store MemberOp) :
    (l : Label store MemberOp) → Decidable (SparesOwners st l)
  | .spawn _ => inferInstanceAs (Decidable True)
  | .act _ _ => inferInstanceAs (Decidable (∀ st' ∈ _, _ ∧ ∀ t ∈ _, _ → _))

theorem SparesOwners.meets {st : State store MemberOp} {l : Label store MemberOp}
    (h : SparesOwners st l) : ownerContract.Meets memberCode st l where
  allows _ _ _ _ _ _ _ _ _ _ := trivial
  accepts _ _ _ _ := trivial
  fits st' p a s hl hstep _ _ := by
    subst hl
    exact (h st' hstep).1
  spares st' p q a t hl hstep hpq ht hd := by
    subst hl
    refine guardsPass_of_keepsGuards ((h st' hstep).2 t ?_ hd)
    exact List.mem_eraseIdx_iff_getElem?.mpr ⟨q, hpq.symm, ht⟩

theorem owned_iff_all {db : Db store} : Owned db ↔ (organizations db).all (fun r =>
    r.2.state ≠ .active || 0 < countOwners db r.1 fun _ => true) = true := by
  simp only [List.all_eq_true, Bool.or_eq_true, decide_eq_true_eq]
  constructor
  · rintro h ⟨orgId, o⟩ hmem
    by_cases hstate : o.state = .active
    · exact .inr (h orgId ⟨o, mem_organizations.mp hmem, hstate⟩)
    · exact .inl hstate
  · rintro h orgId ⟨o, ho, hstate⟩
    exact (h (orgId, o) (mem_organizations.mpr ho)).resolve_left (not_not.mpr hstate)

instance (db : Db store) : Decidable (Owned db) := decidable_of_iff _ owned_iff_all.symm

/-- While no step commits what makes the guard of another operation fail, the organizations stay
owned. -/
theorem last_owner_kept {db : Db store} (hdb : Owned db) {st : State store MemberOp}
    (h : Runs (step memberCode) SparesOwners (.rest db) st) : Owned st.db := by
  have hrest : (State.rest db).Ok ownerContract := State.ok_rest hdb
  have hok : st.Ok ownerContract := hrest.runs ownerContract_safe (fun _ _ h => h.meets) h
  exact hok.inv

theorem never_deleted : ResourceState.active = .active → (none : Option Time) = none := fun _ => rfl

/- Two owners of one organization, and two requests that each remove one of them. -/
def twoOwners : Db store :=
  ((((∅ : Db store).insert (Key.organization 1)
    (.live ⟨"acme", .active, none, none, none, 1, (0, 0), never_deleted⟩)).insert
    (Key.role 2) ⟨1, "owner", true⟩).insert
    (Key.orgMember 1 (.user 3)) ⟨2, none, 1, (0, 0)⟩).insert
    (Key.orgMember 1 (.user 4)) ⟨2, none, 1, (0, 0)⟩

def removals : List (Label store MemberOp) :=
  [.spawn (.deleteMember 1 (some (.user 3))), .spawn (.deleteMember 1 (some (.user 4)))]

/- One after the other: the second is refused. -/
def serialTrace : List (Label store MemberOp) :=
  removals ++ [Label.run 0, .run 0, .run 0, .run 0, .run 0, .run 1, .run 1, .run 1, .run 1]

/- Each counts before the other commits. -/
def crossedTrace : List (Label store MemberOp) :=
  removals ++ [Label.run 0, .run 0, .run 0, .run 1, .run 1, .run 1, .run 0, .run 0, .run 1, .run 1]

def serialState : State store MemberOp :=
  (exec (step memberCode) (.rest twoOwners) serialTrace).get (by decide)

def crossedState : State store MemberOp :=
  (exec (step memberCode) (.rest twoOwners) crossedTrace).get (by decide)

theorem last_owner_kept_serial : Owned serialState.db :=
  last_owner_kept (by decide)
    (Runs.of_exec serialTrace (Option.some_get _).symm (by decide))

theorem last_owner_not_kept :
    ¬ ∀ (db : Db store) (st : State store MemberOp), Owned db →
      Runs (step memberCode) (fun _ _ => True) (.rest db) st → Owned st.db := by
  intro h
  have howned : Owned crossedState.db := h twoOwners crossedState (by decide)
    (Runs.of_exec_free crossedTrace (Option.some_get _).symm)
  exact absurd howned (by decide)

end Pivox.Organizations
