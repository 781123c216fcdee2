import Pivox.Organizations.Permissions

/-!
Who sees an operation: the check of the single-operation calls, and the condition by which
operations are listed.
-/

namespace Pivox.Organizations
open ReadCommitted Sql

/- space_id, else org_id, else created_by. -/
def callerCanSee (cat : Catalog) (db : AList Row) (caller : Id) (op : Operation) :
    Except String Bool :=
  match op.spaceId, op.orgId with
  | some spaceId, _ => hasPermission cat db caller (spaceTarget spaceId) spacesRead
  | none, some orgId => hasPermission cat db caller (orgTarget orgId) organizationsRead
  | none, none => .ok (op.createdBy = some caller)

inductive AuthorizeErr where
  | notFound
  | internal (message : String)
  deriving DecidableEq

/- One that the caller may not see is not found. -/
def authorizeOp (cat : Catalog) (db : AList Row) (caller opId : Id) : Except AuthorizeErr Operation :=
  match answer (.getOperation opId) db with
  | none => .error .notFound
  | some op =>
    match callerCanSee cat db caller op with
    | .error message => .error (.internal message)
    | .ok false => .error .notFound
    | .ok true => .ok op

/-! The condition of the list -/

def accountScope (caller : Id) (op : Operation) : Truth :=
  (isNull op.orgId).and ((isNull op.spaceId).and (eq op.createdBy (some caller)))

def orgScope (cat : Catalog) (db : AList Row) (caller : Id) (op : Operation) : Truth :=
  let rows := selectWhere (joinPermissions cat (orgMembers db)) fun r =>
    (eq (some r.1.1.1) op.orgId).and
      ((eq (some r.2.2) (some "organizations.read")).and (isBound db (some caller) r.1.1.2.1))
  (isNull op.spaceId).and ((isNotNull op.orgId).and (anyRow rows))

def spaceScope (cat : Catalog) (db : AList Row) (caller : Id) (op : Operation) : Truth :=
  let direct := selectWhere (joinPermissions cat (spaceMembers db)) fun r =>
    (eq (some r.1.1.1) op.spaceId).and
      ((eq (some r.2.2) (some "spaces.read")).and (isBound db (some caller) r.1.1.2.1))
  let rows := joinOn (joinParent db) cat.rolePermissions fun r rp =>
    eq (some rp.1) (some r.2.2.2.roleId)
  let rows := joinOn rows cat.permissions fun r perm => eq (some perm.1) (some r.2.2)
  let inherited := selectWhere rows fun r =>
    (eq (some r.1.1.1.1) op.spaceId).and
      ((eq (some r.2.2) (some "spaces.read")).and (isBound db (some caller) r.1.1.2.2.1))
  (isNotNull op.spaceId).and ((anyRow direct).or (anyRow inherited))

def authorizedOperationsScope (cat : Catalog) (db : AList Row) (caller : Id) (op : Operation) :
    Truth :=
  (accountScope caller op).or ((orgScope cat db caller op).or (spaceScope cat db caller op))

def listedOperations (cat : Catalog) (db : AList Row) (caller : Id) : List (Id × Operation) :=
  selectWhere (operations db) fun op => authorizedOperationsScope cat db caller op.2

/-! The two agree -/

variable {cat : Catalog} {db : AList Row} {caller : Id} {op : Operation}

theorem eq_left_eq_yes (a : Id) (b : Option Id) : eq (some a) b = .yes ↔ b = some a := by
  simp [eq_eq_yes]

theorem accountScope_eq_yes : accountScope caller op = .yes ↔
    op.orgId = none ∧ op.spaceId = none ∧ op.createdBy = some caller := by
  simp [accountScope]

theorem orgScope_eq_yes : orgScope cat db caller op = .yes ↔
    op.spaceId = none ∧ ∃ orgId, op.orgId = some orgId ∧
      HoldsAtOrg cat db orgId caller organizationsRead := by
  have hrows (orgId : Id) := @granted_iff_row cat db orgId caller (orgMembers db) (· = organizationsRead)
  simp only [exists_eq_left] at hrows
  simp only [orgScope, Truth.and_eq_yes, isNull_eq_yes, isNotNull_eq_yes, anyRow_eq_yes,
    mem_selectWhere, eq_left_eq_yes, eq_some_eq_yes, isBound_eq_yes, HoldsAtOrg, hrows]
  constructor
  · rintro ⟨hspace, -, r, hrow, horg, hname, hspeaks⟩
    exact ⟨hspace, _, horg, r, hrow, rfl, hspeaks, Option.some.inj hname⟩
  · rintro ⟨hspace, orgId, horg, r, hrow, rfl, hspeaks, hname⟩
    exact ⟨hspace, by simp [horg], r, hrow, horg, congrArg some hname, hspeaks⟩

theorem spaceScope_eq_yes : spaceScope cat db caller op = .yes ↔
    ∃ spaceId, op.spaceId = some spaceId ∧ HoldsAtSpace cat db spaceId caller spacesRead := by
  have hrows (members : List MemberRow) (scope : Id) :=
    @granted_iff_row cat db scope caller members (· = spacesRead)
  simp only [exists_eq_left] at hrows
  simp only [spaceScope, Truth.and_eq_yes, Truth.or_eq_yes, isNotNull_eq_yes, anyRow_eq_yes,
    mem_selectWhere, eq_left_eq_yes, eq_some_eq_yes, isBound_eq_yes, HoldsAtSpace, HoldsAtOrg,
    joinParent, mem_joinOn]
  constructor
  · rintro ⟨-, ⟨r, hrow, hspace, hname, hspeaks⟩ | ⟨r, hrow, hspace, hname, hspeaks⟩⟩
    · exact ⟨_, hspace, .inl ((hrows _ _).mpr ⟨r, hrow, rfl, hspeaks, Option.some.inj hname⟩)⟩
    · obtain ⟨⟨⟨⟨spaceId, s⟩, ⟨org, p, m⟩⟩, ⟨roleId, id⟩⟩, ⟨id', name⟩⟩ := r
      obtain ⟨⟨⟨hs, hmember, horg⟩, hrole, hroleId⟩, hperm, hid⟩ := hrow
      simp only [Option.some.injEq] at hs hmember horg hrole hroleId hperm hid hname hspeaks
      subst horg hroleId hid hname
      exact ⟨_, hspace, .inr ⟨s, hs, p, m, hmember, hspeaks, id', hrole, hperm⟩⟩
  · rintro ⟨spaceId, hspace, hdirect | ⟨s, hs, p, m, hmember, hspeaks, id, hrole, hperm⟩⟩
    · obtain ⟨r, hrow, rfl, hspeaks, hname⟩ := (hrows _ _).mp hdirect
      exact ⟨by simp [hspace], .inl ⟨r, hrow, hspace, congrArg some hname, hspeaks⟩⟩
    · exact ⟨by simp [hspace], .inr
        ⟨((((spaceId, s), (s.orgId, p, m)), (m.roleId, id)), (id, spacesRead)),
          ⟨⟨⟨hs, hmember, rfl⟩, hrole, rfl⟩, hperm, rfl⟩, hspace, rfl, hspeaks⟩⟩

theorem callerCanSee_ok : callerCanSee cat db caller op = .ok true ↔
    authorizedOperationsScope cat db caller op = .yes := by
  simp only [authorizedOperationsScope, Truth.or_eq_yes, accountScope_eq_yes, orgScope_eq_yes,
    spaceScope_eq_yes]
  unfold callerCanSee
  cases hspace : op.spaceId with
  | some spaceId => simp [hasPermission_space]
  | none =>
    cases horg : op.orgId with
    | some orgId => simp [hasPermission_org]
    | none => simp

/-- A caller can see exactly the operations that the list shows to it. -/
theorem operation_visibility_agrees (cat : Catalog) (db : AList Row) (caller : Id) (op : Operation) :
    callerCanSee cat db caller op = .ok true ↔ authorizedOperationsScope cat db caller op = .yes :=
  callerCanSee_ok

theorem answer_getOperation {opId : Id} :
    answer (.getOperation opId) db = some op ↔ (opId, op) ∈ operations db := by
  simp only [answer, Option.map_eq_some_iff]
  constructor
  · rintro ⟨⟨id, o⟩, hfind, rfl⟩
    have hid := List.find?_some hfind
    simp only [decide_eq_true_eq] at hid
    exact hid ▸ List.mem_of_find?_eq_some hfind
  · intro hmem
    cases hfind : (operations db).find? fun r => r.1 = opId with
    | none => simpa using List.find?_eq_none.mp hfind _ hmem
    | some r =>
      obtain ⟨id, o⟩ := r
      have hid := List.find?_some hfind
      simp only [decide_eq_true_eq] at hid
      subst hid
      have hrow := mem_operations.mp (List.mem_of_find?_eq_some hfind)
      rw [mem_operations.mp hmem] at hrow
      cases hrow
      exact ⟨_, rfl, rfl⟩

/-- A single operation is handed out exactly where it is listed. -/
theorem authorizeOp_ok {opId : Id} :
    authorizeOp cat db caller opId = .ok op ↔ (opId, op) ∈ listedOperations cat db caller := by
  simp only [listedOperations, mem_selectWhere, ← answer_getOperation, ← callerCanSee_ok]
  unfold authorizeOp
  cases answer (.getOperation opId) db with
  | none => simp
  | some o =>
    dsimp only
    by_cases ho : o = op
    · subst ho
      cases callerCanSee cat db caller o with
      | error message => simp
      | ok allowed => cases allowed <;> simp
    · simp only [Option.some.injEq, ho, false_and, iff_false]
      cases callerCanSee cat db caller o with
      | error message => simp
      | ok allowed => cases allowed <;> simp [ho]

end Pivox.Organizations
