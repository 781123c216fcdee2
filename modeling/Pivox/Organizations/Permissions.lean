import Pivox.Organizations.Store
import Pivox.Sql

/-!
Effective permissions: what an identity may do at an organization or a space, through its own
bindings and those of its groups.
-/

namespace Pivox.Organizations
open ReadCommitted Sql

/- The rows of role_permissions and of permissions, the latter with their permission_id texts. -/
structure Catalog where
  rolePermissions : List (Id × Id)
  permissions : List (Id × String)
  deriving DecidableEq

def organizationsRead : String := "organizations.read"
def spacesRead : String := "spaces.read"

/-! The columns of a member -/

def Principal.userId : Principal → Option Id
  | .user id => some id
  | .group _ => none

def Principal.groupId : Principal → Option Id
  | .user _ => none
  | .group id => some id

/- SELECT gm.group_id FROM group_members gm WHERE gm.user_id = identity_id -/
def groupIdsOf (db : AList Row) (identityId : Option Id) : List (Option Id) :=
  (selectWhere (groupMembers db) fun gm => eq (some gm.2) identityId).map fun gm => some gm.1

/- user_id = identity_id OR group_id IN (..) -/
def isBound (db : AList Row) (identityId : Option Id) (p : Principal) : Truth :=
  (eq p.userId identityId).or (isIn p.groupId (groupIdsOf db identityId))

/-! The queries -/

abbrev MemberRow := Id × Principal × Member

def joinRolePermissions (cat : Catalog) (members : List MemberRow) :
    List (MemberRow × (Id × Id)) :=
  joinOn members cat.rolePermissions fun m rp => eq (some rp.1) (some m.2.2.roleId)

def joinPermissions (cat : Catalog) (members : List MemberRow) :
    List ((MemberRow × (Id × Id)) × (Id × String)) :=
  joinOn (joinRolePermissions cat members) cat.permissions fun r perm =>
    eq (some perm.1) (some r.2.2)

def joinParent (db : AList Row) : List ((Id × Space) × MemberRow) :=
  joinOn (spaces db) (orgMembers db) fun s om => eq (some om.1) (some s.2.orgId)

def effectiveOrgPermissions (cat : Catalog) (db : AList Row) (orgId : Id)
    (identityId : Option Id) : List String :=
  let rows := selectWhere (joinPermissions cat (orgMembers db)) fun r =>
    (eq (some r.1.1.1) (some orgId)).and (isBound db identityId r.1.1.2.1)
  (rows.map (·.2.2)).dedup

def spacePermissionIds (cat : Catalog) (db : AList Row) (spaceId : Id)
    (identityId : Option Id) : List (Option Id) :=
  let rows := selectWhere (joinRolePermissions cat (spaceMembers db)) fun r =>
    (eq (some r.1.1) (some spaceId)).and (isBound db identityId r.1.2.1)
  rows.map fun r => some r.2.2

def inheritedPermissionIds (cat : Catalog) (db : AList Row) (spaceId : Id)
    (identityId : Option Id) : List (Option Id) :=
  let rows := joinOn (joinParent db) cat.rolePermissions fun r rp =>
    eq (some rp.1) (some r.2.2.2.roleId)
  let rows := selectWhere rows fun r =>
    (eq (some r.1.1.1) (some spaceId)).and (isBound db identityId r.1.2.2.1)
  rows.map fun r => some r.2.2

def effectiveSpacePermissions (cat : Catalog) (db : AList Row) (spaceId : Id)
    (identityId : Option Id) : List String :=
  let rows := selectWhere cat.permissions fun perm =>
    isIn (some perm.1)
      (spacePermissionIds cat db spaceId identityId ++
        inheritedPermissionIds cat db spaceId identityId)
  (rows.map (·.2)).dedup

/-! The resolver -/

/- A uuid.Nil is none: the ids of rows are made by uuidv7(). -/
structure Target where
  orgId : Option Id
  spaceId : Option Id

def orgTarget (orgId : Id) : Target := { orgId, spaceId := none }

def spaceTarget (spaceId : Id) : Target := { orgId := none, spaceId }

def effectivePermissions (cat : Catalog) (db : AList Row) (identity : Id) (target : Target) :
    Except String (List String) :=
  match target with
  | ⟨some orgId, none⟩ => .ok (effectiveOrgPermissions cat db orgId (some identity))
  | ⟨none, some spaceId⟩ => .ok (effectiveSpacePermissions cat db spaceId (some identity))
  | _ => .error "invalid target: exactly one of OrgID/SpaceID must be set"

def hasPermission (cat : Catalog) (db : AList Row) (identity : Id) (target : Target)
    (permission : String) : Except String Bool := do
  let perms ← effectivePermissions cat db identity target
  pure (perms.contains permission)

/-! What the queries mean -/

/-- The principal is the identity itself or one of its groups. -/
def Speaks (db : AList Row) (identity : Id) : Principal → Prop
  | .user id => id = identity
  | .group id => (id, identity) ∈ groupMembers db

def Catalog.Carries (cat : Catalog) (roleId : Id) (permission : String) : Prop :=
  ∃ id, (roleId, id) ∈ cat.rolePermissions ∧ (id, permission) ∈ cat.permissions

/-- One of the bindings speaks for the identity, with a role that carries the permission. -/
def Granted (cat : Catalog) (db : AList Row) (members : List MemberRow) (scope identity : Id)
    (permission : String) : Prop :=
  ∃ p m, (scope, p, m) ∈ members ∧ Speaks db identity p ∧ cat.Carries m.roleId permission

def HoldsAtOrg (cat : Catalog) (db : AList Row) (orgId identity : Id) (permission : String) : Prop :=
  Granted cat db (orgMembers db) orgId identity permission

def HoldsAtSpace (cat : Catalog) (db : AList Row) (spaceId identity : Id) (permission : String) :
    Prop :=
  Granted cat db (spaceMembers db) spaceId identity permission ∨
    ∃ s, (spaceId, s) ∈ spaces db ∧ HoldsAtOrg cat db s.orgId identity permission

variable {cat : Catalog} {db : AList Row} {orgId spaceId scope identity : Id} {permission : String}
  {members : List MemberRow}

@[simp] theorem isBound_eq_yes (p : Principal) :
    isBound db (some identity) p = .yes ↔ Speaks db identity p := by
  cases p with
  | user id => simp [isBound, Principal.userId, Principal.groupId, Speaks]
  | group id =>
    have hgroups : some id ∈ groupIdsOf db (some identity) ↔ (id, identity) ∈ groupMembers db := by
      simp [groupIdsOf]
    simp [isBound, Principal.userId, Principal.groupId, Speaks, hgroups]

theorem mem_joinRolePermissions {r : MemberRow × (Id × Id)} :
    r ∈ joinRolePermissions cat members ↔
      r.1 ∈ members ∧ r.2 ∈ cat.rolePermissions ∧ r.2.1 = r.1.2.2.roleId := by
  simp [joinRolePermissions]

theorem mem_joinPermissions {r : (MemberRow × (Id × Id)) × (Id × String)} :
    r ∈ joinPermissions cat members ↔ r.1.1 ∈ members ∧ r.1.2 ∈ cat.rolePermissions ∧
      r.1.2.1 = r.1.1.2.2.roleId ∧ r.2 ∈ cat.permissions ∧ r.2.1 = r.1.2.2 := by
  simp [joinPermissions, mem_joinRolePermissions, and_assoc]

theorem granted_iff_row (permissions : String → Prop) :
    (∃ name, permissions name ∧ Granted cat db members scope identity name) ↔
      ∃ r ∈ joinPermissions cat members,
        r.1.1.1 = scope ∧ Speaks db identity r.1.1.2.1 ∧ permissions r.2.2 := by
  constructor
  · rintro ⟨name, hname, p, m, hmember, hspeaks, id, hrole, hperm⟩
    exact ⟨(((scope, p, m), (m.roleId, id)), (id, name)),
      mem_joinPermissions.mpr ⟨hmember, hrole, rfl, hperm, rfl⟩, rfl, hspeaks, hname⟩
  · rintro ⟨⟨⟨⟨scope', p, m⟩, ⟨roleId, id⟩⟩, ⟨id', name⟩⟩, hrow, hscope, hspeaks, hname⟩
    obtain ⟨hmember, hrole, hroleId, hperm, hid⟩ := mem_joinPermissions.mp hrow
    simp only at hscope hspeaks hname hmember hrole hroleId hperm hid
    subst hscope hroleId hid
    exact ⟨name, hname, p, m, hmember, hspeaks, _, hrole, hperm⟩

theorem mem_effectiveOrgPermissions :
    permission ∈ effectiveOrgPermissions cat db orgId (some identity) ↔
      HoldsAtOrg cat db orgId identity permission := by
  have hrows := @granted_iff_row cat db orgId identity (orgMembers db) (· = permission)
  simp only [exists_eq_left] at hrows
  rw [HoldsAtOrg, hrows]
  simp only [effectiveOrgPermissions, List.mem_dedup, List.mem_map, mem_selectWhere, Truth.and_eq_yes,
    eq_some_eq_yes, Option.some.injEq, isBound_eq_yes, and_assoc]

theorem mem_spacePermissionIds {id : Id} :
    some id ∈ spacePermissionIds cat db spaceId (some identity) ↔
      ∃ p m, (spaceId, p, m) ∈ spaceMembers db ∧ Speaks db identity p ∧
        (m.roleId, id) ∈ cat.rolePermissions := by
  simp only [spacePermissionIds, List.mem_map, mem_selectWhere, mem_joinRolePermissions,
    Truth.and_eq_yes, isBound_eq_yes, eq_some_eq_yes, Option.some.injEq]
  constructor
  · rintro ⟨⟨⟨scope, p, m⟩, ⟨roleId, id'⟩⟩, ⟨⟨hmember, hrole, hroleId⟩, hscope, hspeaks⟩, hid⟩
    simp only at hmember hrole hroleId hscope hspeaks hid
    subst hscope hroleId hid
    exact ⟨p, m, hmember, hspeaks, hrole⟩
  · rintro ⟨p, m, hmember, hspeaks, hrole⟩
    exact ⟨((spaceId, p, m), (m.roleId, id)), ⟨⟨hmember, hrole, rfl⟩, rfl, hspeaks⟩, rfl⟩

theorem mem_inheritedPermissionIds {id : Id} :
    some id ∈ inheritedPermissionIds cat db spaceId (some identity) ↔
      ∃ s, (spaceId, s) ∈ spaces db ∧ ∃ p m, (s.orgId, p, m) ∈ orgMembers db ∧
        Speaks db identity p ∧ (m.roleId, id) ∈ cat.rolePermissions := by
  simp only [inheritedPermissionIds, joinParent, List.mem_map, mem_selectWhere, mem_joinOn,
    Truth.and_eq_yes, isBound_eq_yes, eq_some_eq_yes, Option.some.injEq]
  constructor
  · rintro ⟨⟨⟨⟨space, s⟩, ⟨org, p, m⟩⟩, ⟨roleId, id'⟩⟩,
      ⟨⟨⟨hspace, hmember, horg⟩, hrole, hroleId⟩, hspaceId, hspeaks⟩, hid⟩
    simp only at hspace hmember horg hrole hroleId hspaceId hspeaks hid
    subst horg hroleId hspaceId hid
    exact ⟨s, hspace, p, m, hmember, hspeaks, hrole⟩
  · rintro ⟨s, hspace, p, m, hmember, hspeaks, hrole⟩
    exact ⟨(((spaceId, s), (s.orgId, p, m)), (m.roleId, id)),
      ⟨⟨⟨hspace, hmember, rfl⟩, hrole, rfl⟩, rfl, hspeaks⟩, rfl⟩

theorem mem_effectiveSpacePermissions :
    permission ∈ effectiveSpacePermissions cat db spaceId (some identity) ↔
      HoldsAtSpace cat db spaceId identity permission := by
  have hrow : permission ∈ effectiveSpacePermissions cat db spaceId (some identity) ↔
      ∃ id, (some id ∈ spacePermissionIds cat db spaceId (some identity) ∨
        some id ∈ inheritedPermissionIds cat db spaceId (some identity)) ∧
          (id, permission) ∈ cat.permissions := by
    simp [effectiveSpacePermissions, and_comm]
  rw [hrow]
  constructor
  · rintro ⟨id, hdirect | hinherited, hperm⟩
    · obtain ⟨p, m, hmember, hspeaks, hrole⟩ := mem_spacePermissionIds.mp hdirect
      exact .inl ⟨p, m, hmember, hspeaks, id, hrole, hperm⟩
    · obtain ⟨s, hspace, p, m, hmember, hspeaks, hrole⟩ := mem_inheritedPermissionIds.mp hinherited
      exact .inr ⟨s, hspace, p, m, hmember, hspeaks, id, hrole, hperm⟩
  · rintro (⟨p, m, hmember, hspeaks, id, hrole, hperm⟩ |
      ⟨s, hspace, p, m, hmember, hspeaks, id, hrole, hperm⟩)
    · exact ⟨id, .inl (mem_spacePermissionIds.mpr ⟨p, m, hmember, hspeaks, hrole⟩), hperm⟩
    · exact ⟨id, .inr (mem_inheritedPermissionIds.mpr ⟨s, hspace, p, m, hmember, hspeaks, hrole⟩),
        hperm⟩

theorem hasPermission_org :
    hasPermission cat db identity (orgTarget orgId) permission = .ok true ↔
      HoldsAtOrg cat db orgId identity permission := by
  rw [← mem_effectiveOrgPermissions]
  simp [hasPermission, effectivePermissions, orgTarget, bind, Except.bind, pure, Except.pure]

theorem hasPermission_space :
    hasPermission cat db identity (spaceTarget spaceId) permission = .ok true ↔
      HoldsAtSpace cat db spaceId identity permission := by
  rw [← mem_effectiveSpacePermissions]
  simp [hasPermission, effectivePermissions, spaceTarget, bind, Except.bind, pure, Except.pure]

end Pivox.Organizations
