import Pivox.Organizations.Store
import Pivox.Path.Clean
import Pivox.Transition

/-!
Creating and updating the members of organizations and spaces, from the texts of a request to the
rows: whose group and whose role a binding names.
-/

namespace Pivox.Members
open Path (Text segments)
open Organizations (Principal)

/- What the texts go through that is not the handlers' own: %q, uuid.Parse and UUID.String. -/
structure Formats where
  quote : Text → Text
  parseUuid : Text → Except Text Id
  uuidText : Id → Text

inductive Status where
  | invalidArgument (field : String) (description : Text)
  | notFound (resourceType : String) (resourceName : Text)
  | alreadyExists (resourceType : String) (resourceName : Text)
  | failedPrecondition (message : String)
  deriving DecidableEq

/-! The rows -/

structure Space where
  id : Id
  orgId : Id
  name : Text
  deriving DecidableEq

structure Role where
  id : Id
  orgId : Id
  name : Text
  isSystem : Bool
  deriving DecidableEq

structure Group where
  id : Id
  orgId : Id
  active : Bool
  deriving DecidableEq

/- What member requests do not write. Roles and groups have their id as the primary key. -/
structure Directory where
  organizations : List (Id × Text)
  spaces : List Space
  roles : List Role
  groups : List Group
  identities : List Id
  spaces_nodup : (spaces.map Space.id).Nodup
  roles_nodup : (roles.map Role.id).Nodup
  groups_nodup : (groups.map Group.id).Nodup

/- A row of org_members or of space_members: `scope` is its org_id or its space_id. -/
structure Member where
  scope : Id
  principal : Principal
  roleId : Id
  createdBy : Id
  revision : Nat
  deriving DecidableEq

structure Tables where
  orgMembers : List Member
  spaceMembers : List Member
  deriving DecidableEq

namespace Directory

def orgOfRole (dir : Directory) (id : Id) : Option Id :=
  (dir.roles.find? (·.id = id)).map Role.orgId

def orgOfGroup (dir : Directory) (id : Id) : Option Id :=
  (dir.groups.find? (·.id = id)).map Group.orgId

def orgOfSpace (dir : Directory) (id : Id) : Option Id :=
  (dir.spaces.find? (·.id = id)).map Space.orgId

def getSystemRole (dir : Directory) (orgId : Id) (name : Text) : Option Role :=
  dir.roles.find? fun r => r.orgId = orgId ∧ r.name = name ∧ r.isSystem

/- The foreign keys of a binding's principal and of its created_by. -/
def refers (dir : Directory) (m : Member) : Bool :=
  decide (m.createdBy ∈ dir.identities) &&
    match m.principal with
    | .user id => decide (id ∈ dir.identities)
    | .group id => (dir.orgOfGroup id).isSome

end Directory

/-! The texts of a request -/

inductive PrincipalRef where
  | user (ref : Text)
  | group (ref : Text)

/- The fields of the Member message that requests set. -/
structure MemberMessage where
  name : Text
  principal : Option PrincipalRef
  role : Text

structure CreateMemberRequest where
  parent : Text
  member : Option MemberMessage
  memberId : Text

structure UpdateMemberRequest where
  member : Option MemberMessage
  updateMask : List Text

variable (f : Formats)

def parsePrincipalRef (ref parentOrgSlug collection : Text) : Except Status Id :=
  let malformed : Status := .invalidArgument "member.principal" ("invalid principal ref ".toList ++
    f.quote ref ++ ": expected organizations/\x7borg\x7d/".toList ++ collection ++
    "/\x7buuid\x7d".toList)
  match segments ref with
  | [organizations, org, kind, uuid] =>
    if organizations ≠ "organizations".toList ∨ kind ≠ collection ∨ org = [] ∨ uuid = [] then
      .error malformed
    else if org ≠ parentOrgSlug then
      .error (.invalidArgument "member.principal" ("principal org ".toList ++ f.quote org ++
        " does not match parent org ".toList ++ f.quote parentOrgSlug))
    else
      match f.parseUuid uuid with
      | .ok id => .ok id
      | .error err => .error (.invalidArgument "member.principal"
          ("invalid uuid in principal ref ".toList ++ f.quote ref ++ ": ".toList ++ err))
  | _ => .error malformed

def principalFromMember (mem : MemberMessage) (parentOrgSlug : Text) : Except Status Principal :=
  match mem.principal with
  | some (.user ref) => (parsePrincipalRef f ref parentOrgSlug "users".toList).map .user
  | some (.group ref) => (parsePrincipalRef f ref parentOrgSlug "groups".toList).map .group
  | none => .error (.invalidArgument "member.principal"
      "exactly one of `user` or `group` must be set".toList)

def parseRoleRef (ref parentOrgSlug : Text) : Except Status Text :=
  let malformed : Status := .invalidArgument "member.role" ("invalid role ref ".toList ++
    f.quote ref ++ ": expected organizations/\x7borg\x7d/roles/\x7brole\x7d".toList)
  match segments ref with
  | [organizations, org, roles, role] =>
    if organizations ≠ "organizations".toList ∨ roles ≠ "roles".toList ∨ org = [] ∨ role = [] then
      .error malformed
    else if org ≠ parentOrgSlug then
      .error (.invalidArgument "member.role" ("role org ".toList ++ f.quote org ++
        " does not match parent org ".toList ++ f.quote parentOrgSlug))
    else .ok role
  | _ => .error malformed

def parseMemberSegment (seg : Text) : Except Status Principal :=
  let before := seg.takeWhile (· ≠ '-')
  let idStr := (seg.dropWhile (· ≠ '-')).drop 1
  if '-' ∉ seg ∨ before = [] ∨ idStr = [] then
    .error (.invalidArgument "name" ("invalid member segment ".toList ++ f.quote seg ++
      ": expected user-\x7buuid\x7d or group-\x7buuid\x7d".toList))
  else
    match f.parseUuid idStr with
    | .error err => .error (.invalidArgument "name" ("invalid member uuid ".toList ++
        f.quote idStr ++ " in segment ".toList ++ f.quote seg ++ ": ".toList ++ err))
    | .ok id =>
      if before = "user".toList then .ok (.user id)
      else if before = "group".toList then .ok (.group id)
      else .error (.invalidArgument "name" ("invalid member prefix ".toList ++ f.quote before ++
        ": expected user or group".toList))

def parseOrgMemberParent (parent : Text) : Except Status Text :=
  let malformed : Status := .invalidArgument "parent" ("invalid parent ".toList ++
    f.quote parent ++ ": expected organizations/\x7borg\x7d".toList)
  match segments parent with
  | [organizations, org] =>
    if organizations ≠ "organizations".toList ∨ org = [] then .error malformed else .ok org
  | _ => .error malformed

def parseSpaceMemberParent (parent : Text) : Except Status (Text × Text) :=
  let malformed : Status := .invalidArgument "parent" ("invalid parent ".toList ++
    f.quote parent ++ ": expected organizations/\x7borg\x7d/spaces/\x7bspace\x7d".toList)
  match segments parent with
  | [organizations, org, spaces, space] =>
    if organizations ≠ "organizations".toList ∨ spaces ≠ "spaces".toList ∨ org = [] ∨
        space = [] then .error malformed
    else .ok (org, space)
  | _ => .error malformed

def parseOrgMemberName (name : Text) : Except Status (Text × Principal) :=
  let malformed : Status := .invalidArgument "name" ("invalid member name ".toList ++
    f.quote name ++ ": expected organizations/\x7borg\x7d/members/\x7bmember\x7d".toList)
  match segments name with
  | [organizations, org, members, member] =>
    if organizations ≠ "organizations".toList ∨ members ≠ "members".toList ∨ org = [] ∨
        member = [] then .error malformed
    else do
      let principal ← parseMemberSegment f member
      return (org, principal)
  | _ => .error malformed

def parseSpaceMemberName (name : Text) : Except Status (Text × Text × Principal) :=
  let malformed : Status := .invalidArgument "name" ("invalid member name ".toList ++
    f.quote name ++
    ": expected organizations/\x7borg\x7d/spaces/\x7bspace\x7d/members/\x7bmember\x7d".toList)
  match segments name with
  | [organizations, org, spaces, space, members, member] =>
    if organizations ≠ "organizations".toList ∨ spaces ≠ "spaces".toList ∨
        members ≠ "members".toList ∨ org = [] ∨ space = [] ∨ member = [] then .error malformed
    else do
      let principal ← parseMemberSegment f member
      return (org, space, principal)
  | _ => .error malformed

def validateRoleOnlyMask (paths : List Text) : Except Status Unit :=
  match paths.find? (· ≠ "role".toList) with
  | some p => .error (.invalidArgument "update_mask"
      ("only `role` is mutable; got ".toList ++ f.quote p))
  | none => .ok ()

/-! The handlers -/

/- As the permission interceptor leaves them: the space is one of the organization. -/
structure ResolvedOrg where
  id : Id
  slug : Text

structure ResolvedSpace where
  id : Id
  slug : Text

def principalKind : Principal → String
  | .user _ => "user"
  | .group _ => "group"

def principalID : Principal → Id
  | .user id => id
  | .group id => id

def principalResourceType : Principal → String
  | .user _ => "User"
  | .group _ => "Group"

def required {A : Type} (status : Status) : Option A → Except Status A
  | some a => .ok a
  | none => .error status

def check (p : Prop) [Decidable p] (status : Status) : Except Status Unit :=
  if p then .ok () else .error status

/- The unique indexes, and after them the foreign keys. -/
def insertMember (dir : Directory) (rows : List Member) (m : Member) :
    Except Status (List Member) :=
  let name := f.uuidText (principalID m.principal)
  if rows.any fun r => r.scope = m.scope ∧ r.principal = m.principal then
    .error (.alreadyExists (principalResourceType m.principal) name)
  else if dir.refers m then .ok (rows ++ [m])
  else .error (.notFound (principalResourceType m.principal) name)

/- The common part of the two CreateMember handlers, after the check of the parent. -/
def createMemberIn (dir : Directory) (org : ResolvedOrg) (scope : Id) (rows : List Member)
    (caller : Id) (req : CreateMemberRequest) : Except Status (List Member) := do
  let mem ← required (.invalidArgument "member" "member is required".toList) req.member
  let principal ← principalFromMember f mem org.slug
  let expected := (principalKind principal).toList ++ '-' :: f.uuidText (principalID principal)
  check (req.memberId = [] ∨ req.memberId = expected) (.invalidArgument "member_id"
    ("member_id ".toList ++ f.quote req.memberId ++ " does not match principal (expected ".toList ++
      f.quote expected ++ ")".toList))
  let roleSlug ← parseRoleRef f mem.role org.slug
  let role ← required (.notFound "Role" mem.role) (dir.getSystemRole org.id roleSlug)
  insertMember f dir rows ⟨scope, principal, role.id, caller, 1⟩

def createOrgMember (dir : Directory) (t : Tables) (org : ResolvedOrg) (caller : Id)
    (req : CreateMemberRequest) : Except Status Tables := do
  let parentSlug ← parseOrgMemberParent f req.parent
  check (parentSlug = org.slug)
    (.invalidArgument "parent" "org slug in parent does not match resolved scope".toList)
  let rows ← createMemberIn f dir org org.id t.orgMembers caller req
  return { t with orgMembers := rows }

def createSpaceMember (dir : Directory) (t : Tables) (org : ResolvedOrg) (space : ResolvedSpace)
    (caller : Id) (req : CreateMemberRequest) : Except Status Tables := do
  let parent ← parseSpaceMemberParent f req.parent
  check (parent.1 = org.slug ∧ parent.2 = space.slug)
    (.invalidArgument "parent" "slugs in parent do not match resolved scope".toList)
  let rows ← createMemberIn f dir org space.id t.spaceMembers caller req
  return { t with spaceMembers := rows }

def isMember (scope : Id) (p : Principal) (m : Member) : Bool :=
  decide (m.scope = scope ∧ m.principal = p)

/- UPDATE … RETURNING: no row is an error of its own. -/
def updateMemberRole (rows : List Member) (scope : Id) (p : Principal) (roleId : Id) :
    Option (List Member) :=
  if rows.any (isMember scope p) then
    some (rows.map fun m =>
      if isMember scope p m then { m with roleId, revision := m.revision + 1 } else m)
  else none

def roleOwner : Text := "owner".toList

def Directory.role (dir : Directory) (id : Id) : Option Role := dir.roles.find? (·.id = id)

/- The name of a binding's role. -/
def getOrgMemberRoleName (dir : Directory) (rows : List Member) (orgId : Id) (p : Principal) :
    Option Text := do
  let m ← rows.find? (isMember orgId p)
  let role ← dir.role m.roleId
  return role.name

def Directory.countsAsOwner (dir : Directory) (orgId : Id) (m : Member) : Bool :=
  m.scope = orgId && ((dir.role m.roleId).any fun r => r.isSystem && r.name = roleOwner) &&
    match m.principal with
    | .user _ => true
    | .group id => dir.groups.any fun g => g.id = id ∧ g.active

def countOwnersByOrg (dir : Directory) (rows : List Member) (orgId : Id) : Nat :=
  rows.countP (dir.countsAsOwner orgId)

/- The message, with a name, and a mask of nothing but the role. -/
def namedMember (req : UpdateMemberRequest) : Except Status MemberMessage := do
  let status : Status := .invalidArgument "member.name" "member.name is required".toList
  let mem ← required status req.member
  check (mem.name ≠ []) status
  validateRoleOnlyMask f req.updateMask
  return mem

def updateOrgMember (dir : Directory) (t : Tables) (org : ResolvedOrg)
    (req : UpdateMemberRequest) : Except Status Tables := do
  let mem ← namedMember f req
  let (orgSlug, principal) ← parseOrgMemberName f mem.name
  check (orgSlug = org.slug) (.invalidArgument "member.name"
    "org slug in member path does not match resolved scope".toList)
  let roleSlug ← parseRoleRef f mem.role orgSlug
  let newRole ← required (.notFound "Role" mem.role) (dir.getSystemRole org.id roleSlug)
  let current ← required (.notFound "Member" mem.name)
    (getOrgMemberRoleName dir t.orgMembers org.id principal)
  check (current = roleOwner ∧ newRole.name ≠ roleOwner →
      ¬ countOwnersByOrg dir t.orgMembers org.id ≤ 1)
    (.failedPrecondition
      "cannot demote the last owner; promote another member to owner first")
  let rows ← required (.notFound "Member" mem.name)
    (updateMemberRole t.orgMembers org.id principal newRole.id)
  return { t with orgMembers := rows }

def updateSpaceMember (dir : Directory) (t : Tables) (org : ResolvedOrg) (space : ResolvedSpace)
    (req : UpdateMemberRequest) : Except Status Tables := do
  let mem ← namedMember f req
  let (orgSlug, spaceSlug, principal) ← parseSpaceMemberName f mem.name
  check (orgSlug = org.slug ∧ spaceSlug = space.slug) (.invalidArgument "member.name"
    "slugs in member path do not match resolved scope".toList)
  let roleSlug ← parseRoleRef f mem.role orgSlug
  let newRole ← required (.notFound "Role" mem.role) (dir.getSystemRole org.id roleSlug)
  let rows ← required (.notFound "Member" mem.name)
    (updateMemberRole t.spaceMembers space.id principal newRole.id)
  return { t with spaceMembers := rows }

/-! The requests, through the interceptor -/

def Directory.resolveOrg (dir : Directory) (slug : Text) : Except Status ResolvedOrg :=
  (required (.notFound "organization" slug) (dir.organizations.find? (·.2 = slug))).map
    fun org => ⟨org.1, slug⟩

def Directory.resolveSpace (dir : Directory) (org : ResolvedOrg) (slug : Text) :
    Except Status ResolvedSpace :=
  (required (.notFound "space" (org.slug ++ '/' :: slug))
    (dir.spaces.find? fun s => s.orgId = org.id ∧ s.name = slug)).map fun space => ⟨space.id, slug⟩

/- The slugs are those of the scope that the interceptor finds in the request. -/
inductive Request where
  | createOrgMember (orgSlug : Text) (caller : Id) (req : CreateMemberRequest)
  | updateOrgMember (orgSlug : Text) (req : UpdateMemberRequest)
  | createSpaceMember (orgSlug spaceSlug : Text) (caller : Id) (req : CreateMemberRequest)
  | updateSpaceMember (orgSlug spaceSlug : Text) (req : UpdateMemberRequest)

def handle (dir : Directory) (t : Tables) : Request → Except Status Tables
  | .createOrgMember orgSlug caller req => do
    createOrgMember f dir t (← dir.resolveOrg orgSlug) caller req
  | .updateOrgMember orgSlug req => do
    updateOrgMember f dir t (← dir.resolveOrg orgSlug) req
  | .createSpaceMember orgSlug spaceSlug caller req => do
    let org ← dir.resolveOrg orgSlug
    createSpaceMember f dir t org (← dir.resolveSpace org spaceSlug) caller req
  | .updateSpaceMember orgSlug spaceSlug req => do
    let org ← dir.resolveOrg orgSlug
    updateSpaceMember f dir t org (← dir.resolveSpace org spaceSlug) req

/- An accepted request; a refused one is rolled back. -/
def step (dir : Directory) (t : Tables) (req : Request) : Option Tables :=
  (handle f dir t req).toOption

/-! Bindings inside their organization -/

structure Inside (dir : Directory) (orgId : Id) (m : Member) : Prop where
  role : dir.orgOfRole m.roleId = some orgId
  group : ∀ id, m.principal = .group id → dir.orgOfGroup id = some orgId

structure MembersInside (dir : Directory) (t : Tables) : Prop where
  org : ∀ m ∈ t.orgMembers, Inside dir m.scope m
  space : ∀ m ∈ t.spaceMembers, ∃ orgId, dir.orgOfSpace m.scope = some orgId ∧ Inside dir orgId m

/- The group that a request to create a binding names is one of the organization. -/
def NamesOwnGroup (dir : Directory) (orgSlug : Text) (req : CreateMemberRequest) : Prop :=
  ∀ mem org id, req.member = some mem → dir.resolveOrg orgSlug = .ok org →
    principalFromMember f mem org.slug = .ok (.group id) → dir.orgOfGroup id = some org.id

def OwnGroups (dir : Directory) : Request → Prop
  | .createOrgMember orgSlug _ req => NamesOwnGroup f dir orgSlug req
  | .createSpaceMember orgSlug _ _ req => NamesOwnGroup f dir orgSlug req
  | .updateOrgMember _ _ | .updateSpaceMember _ _ _ => True

variable {f : Formats} {dir : Directory} {t t' : Tables} {org : ResolvedOrg} {space : ResolvedSpace}

/-! What the directory finds -/

theorem find?_key {A : Type} {key : A → Id} {l : List A} {a : A} (h : (l.map key).Nodup)
    (ha : a ∈ l) : l.find? (fun b => key b = key a) = some a := by
  induction l with
  | nil => cases ha
  | cons b l ih =>
    simp only [List.map_cons, List.nodup_cons] at h
    by_cases heq : key b = key a
    · have hsame : a = b := by
        rcases List.mem_cons.mp ha with rfl | hin
        · rfl
        · exact absurd (heq ▸ List.mem_map_of_mem hin) h.1
      subst hsame
      simp
    · rcases List.mem_cons.mp ha with rfl | hin
      · exact absurd rfl heq
      · rw [List.find?_cons_of_neg (by simpa using heq)]
        exact ih h.2 hin

theorem orgOfRole_getSystemRole {orgId : Id} {name : Text} {r : Role}
    (h : dir.getSystemRole orgId name = some r) : dir.orgOfRole r.id = some orgId := by
  have hrow := List.find?_some h
  simp only [Bool.decide_and, Bool.and_eq_true, decide_eq_true_eq] at hrow
  rw [Directory.orgOfRole, find?_key dir.roles_nodup (List.mem_of_find?_eq_some h), Option.map_some,
    hrow.1]

theorem orgOfSpace_resolveSpace {slug : Text} (h : dir.resolveSpace org slug = .ok space) :
    dir.orgOfSpace space.id = some org.id := by
  unfold Directory.resolveSpace at h
  cases hfind : dir.spaces.find? fun s => s.orgId = org.id ∧ s.name = slug with
  | none =>
    rw [hfind] at h
    cases h
  | some s =>
    have hrow := List.find?_some hfind
    simp only [Bool.decide_and, Bool.and_eq_true, decide_eq_true_eq] at hrow
    simp only [hfind, required, Except.map, Except.ok.injEq] at h
    subst h
    rw [Directory.orgOfSpace, find?_key dir.spaces_nodup (List.mem_of_find?_eq_some hfind),
      Option.map_some, hrow.1]

/-! What an accepted request has written -/

theorem required_eq_ok {A : Type} {status : Status} {o : Option A} {a : A} :
    required status o = .ok a ↔ o = some a := by
  cases o <;> simp [required]

theorem step_eq_some {req : Request} (h : step f dir t req = some t') : handle f dir t req = .ok t' := by
  unfold step at h
  cases hhandle : handle f dir t req with
  | error status =>
    rw [hhandle] at h
    cases h
  | ok t'' =>
    rw [hhandle] at h
    exact congrArg Except.ok (Option.some.inj h)

/- The binding that a request creates in a scope of the organization. -/
structure Created (f : Formats) (dir : Directory) (org : ResolvedOrg) (scope : Id)
    (req : CreateMemberRequest) (m : Member) : Prop where
  scope : m.scope = scope
  principal : ∃ mem, req.member = some mem ∧ principalFromMember f mem org.slug = .ok m.principal
  role : dir.orgOfRole m.roleId = some org.id

theorem createMemberIn_ok {scope : Id} {rows rows' : List Member} {caller : Id}
    {req : CreateMemberRequest} (h : createMemberIn f dir org scope rows caller req = .ok rows') :
    ∃ m, Created f dir org scope req m ∧ rows' = rows ++ [m] := by
  unfold createMemberIn at h
  obtain ⟨mem, hmem, h⟩ := bind_eq_ok.mp h
  obtain ⟨principal, hprincipal, h⟩ := bind_eq_ok.mp h
  obtain ⟨-, -, h⟩ := bind_eq_ok.mp h
  obtain ⟨roleSlug, -, h⟩ := bind_eq_ok.mp h
  obtain ⟨role, hrole, h⟩ := bind_eq_ok.mp h
  have hcreated : Created f dir org scope req ⟨scope, principal, role.id, caller, 1⟩ :=
    ⟨rfl, ⟨mem, required_eq_ok.mp hmem, hprincipal⟩,
      orgOfRole_getSystemRole (required_eq_ok.mp hrole)⟩
  refine ⟨_, hcreated, ?_⟩
  unfold insertMember at h
  dsimp only at h
  split at h
  · cases h
  · split at h
    · exact (Except.ok.inj h).symm
    · cases h

theorem createOrgMember_ok {caller : Id} {req : CreateMemberRequest}
    (h : createOrgMember f dir t org caller req = .ok t') :
    ∃ m, Created f dir org org.id req m ∧ t' = { t with orgMembers := t.orgMembers ++ [m] } := by
  obtain ⟨parentSlug, -, h⟩ := bind_eq_ok.mp h
  obtain ⟨-, -, h⟩ := bind_eq_ok.mp h
  obtain ⟨rows, hrows, h⟩ := bind_eq_ok.mp h
  cases h
  obtain ⟨m, hcreated, rfl⟩ := createMemberIn_ok hrows
  exact ⟨m, hcreated, rfl⟩

theorem createSpaceMember_ok {caller : Id} {req : CreateMemberRequest}
    (h : createSpaceMember f dir t org space caller req = .ok t') :
    ∃ m, Created f dir org space.id req m ∧
      t' = { t with spaceMembers := t.spaceMembers ++ [m] } := by
  obtain ⟨parent, -, h⟩ := bind_eq_ok.mp h
  obtain ⟨-, -, h⟩ := bind_eq_ok.mp h
  obtain ⟨rows, hrows, h⟩ := bind_eq_ok.mp h
  cases h
  obtain ⟨m, hcreated, rfl⟩ := createMemberIn_ok hrows
  exact ⟨m, hcreated, rfl⟩

/- The rows after an update: some of the scope have another role, one of the organization. -/
def RolesUpdated (dir : Directory) (orgId scope : Id) (rows rows' : List Member) : Prop :=
  ∀ m ∈ rows', m ∈ rows ∨ ∃ old ∈ rows, old.scope = scope ∧ m.scope = scope ∧
    m.principal = old.principal ∧ dir.orgOfRole m.roleId = some orgId

theorem updateMemberRole_some {rows rows' : List Member} {scope roleId orgId : Id} {p : Principal}
    (h : updateMemberRole rows scope p roleId = some rows')
    (hrole : dir.orgOfRole roleId = some orgId) : RolesUpdated dir orgId scope rows rows' := by
  unfold updateMemberRole at h
  split at h
  · cases h
    intro m hm
    obtain ⟨old, hold, rfl⟩ := List.mem_map.mp hm
    by_cases hits : isMember scope p old
    · have hscope := (of_decide_eq_true hits).1
      rw [if_pos hits]
      exact Or.inr ⟨old, hold, hscope, hscope, rfl, hrole⟩
    · rw [if_neg hits]
      exact Or.inl hold
  · cases h

theorem updateOrgMember_ok {req : UpdateMemberRequest} (h : updateOrgMember f dir t org req = .ok t') :
    ∃ rows, RolesUpdated dir org.id org.id t.orgMembers rows ∧ t' = { t with orgMembers := rows } := by
  obtain ⟨mem, -, h⟩ := bind_eq_ok.mp h
  obtain ⟨⟨slug, principal⟩, -, h⟩ := bind_eq_ok.mp h
  obtain ⟨-, -, h⟩ := bind_eq_ok.mp h
  obtain ⟨roleSlug, -, h⟩ := bind_eq_ok.mp h
  obtain ⟨newRole, hrole, h⟩ := bind_eq_ok.mp h
  obtain ⟨current, -, h⟩ := bind_eq_ok.mp h
  obtain ⟨-, -, h⟩ := bind_eq_ok.mp h
  obtain ⟨rows, hrows, h⟩ := bind_eq_ok.mp h
  cases h
  exact ⟨rows, updateMemberRole_some (required_eq_ok.mp hrows)
    (orgOfRole_getSystemRole (required_eq_ok.mp hrole)), rfl⟩

theorem updateSpaceMember_ok {req : UpdateMemberRequest}
    (h : updateSpaceMember f dir t org space req = .ok t') :
    ∃ rows, RolesUpdated dir org.id space.id t.spaceMembers rows ∧
      t' = { t with spaceMembers := rows } := by
  obtain ⟨mem, -, h⟩ := bind_eq_ok.mp h
  obtain ⟨⟨orgSlug, spaceSlug, principal⟩, -, h⟩ := bind_eq_ok.mp h
  obtain ⟨-, -, h⟩ := bind_eq_ok.mp h
  obtain ⟨roleSlug, -, h⟩ := bind_eq_ok.mp h
  obtain ⟨newRole, hrole, h⟩ := bind_eq_ok.mp h
  obtain ⟨rows, hrows, h⟩ := bind_eq_ok.mp h
  cases h
  exact ⟨rows, updateMemberRole_some (required_eq_ok.mp hrows)
    (orgOfRole_getSystemRole (required_eq_ok.mp hrole)), rfl⟩

/-! Every request, and every run of them -/

variable {scope : Id} {m : Member}

/-- The new binding is inside the organization if and only if the group that it names is. -/
theorem Created.inside_iff {req : CreateMemberRequest} {orgSlug : Text}
    (h : Created f dir org scope req m) (horg : dir.resolveOrg orgSlug = .ok org) :
    Inside dir org.id m ↔ NamesOwnGroup f dir orgSlug req := by
  obtain ⟨mem, hmem, hprincipal⟩ := h.principal
  constructor
  · intro hinside mem' org' id hmem' horg' hgroup
    obtain rfl := Option.some.inj (hmem.symm.trans hmem')
    obtain rfl := Except.ok.inj (horg.symm.trans horg')
    exact hinside.group id (Except.ok.inj (hprincipal.symm.trans hgroup))
  · intro hnames
    refine ⟨h.role, fun id hid => ?_⟩
    rw [hid] at hprincipal
    exact hnames mem org id hmem horg hprincipal

theorem Inside.newRole {old : Member} {orgId : Id} (h : Inside dir orgId old)
    (hprincipal : m.principal = old.principal) (hrole : dir.orgOfRole m.roleId = some orgId) :
    Inside dir orgId m := by
  refine ⟨hrole, fun id hid => h.group id ?_⟩
  rw [← hprincipal, hid]

/-- A request leaves every binding inside its organization if and only if it names no group of
another one. -/
theorem MembersInside.step_iff {req : Request} (h : MembersInside dir t)
    (hstep : step f dir t req = some t') : MembersInside dir t' ↔ OwnGroups f dir req := by
  have hok := step_eq_some hstep
  cases req with
  | createOrgMember orgSlug caller req =>
    obtain ⟨org, horg, hok⟩ := bind_eq_ok.mp hok
    obtain ⟨m, hcreated, rfl⟩ := createOrgMember_ok hok
    have hiff := hcreated.inside_iff horg
    rw [← hcreated.scope] at hiff
    constructor
    · intro h'
      exact hiff.mp (h'.org m (by simp))
    · intro hown
      refine ⟨fun m' hm' => ?_, h.space⟩
      rcases List.mem_append.mp hm' with hm' | hm'
      · exact h.org m' hm'
      · obtain rfl := List.mem_singleton.mp hm'
        exact hiff.mpr hown
  | updateOrgMember orgSlug req =>
    obtain ⟨org, horg, hok⟩ := bind_eq_ok.mp hok
    obtain ⟨rows, hupdated, rfl⟩ := updateOrgMember_ok hok
    refine iff_of_true ⟨fun m hm => ?_, h.space⟩ trivial
    rcases hupdated m hm with hm | ⟨old, hold, holdscope, hscope, hprincipal, hrole⟩
    · exact h.org m hm
    · have hinside := h.org old hold
      rw [holdscope] at hinside
      rw [hscope]
      exact hinside.newRole hprincipal hrole
  | createSpaceMember orgSlug spaceSlug caller req =>
    obtain ⟨org, horg, hok⟩ := bind_eq_ok.mp hok
    obtain ⟨space, hspace, hok⟩ := bind_eq_ok.mp hok
    obtain ⟨m, hcreated, rfl⟩ := createSpaceMember_ok hok
    have hiff := hcreated.inside_iff horg
    have hscope := orgOfSpace_resolveSpace hspace
    rw [← hcreated.scope] at hscope
    constructor
    · intro h'
      obtain ⟨orgId, hspaceOrg, hinside⟩ := h'.space m (by simp)
      obtain rfl := Option.some.inj (hscope.symm.trans hspaceOrg)
      exact hiff.mp hinside
    · intro hown
      refine ⟨h.org, fun m' hm' => ?_⟩
      rcases List.mem_append.mp hm' with hm' | hm'
      · exact h.space m' hm'
      · obtain rfl := List.mem_singleton.mp hm'
        exact ⟨org.id, hscope, hiff.mpr hown⟩
  | updateSpaceMember orgSlug spaceSlug req =>
    obtain ⟨org, horg, hok⟩ := bind_eq_ok.mp hok
    obtain ⟨space, hspace, hok⟩ := bind_eq_ok.mp hok
    obtain ⟨rows, hupdated, rfl⟩ := updateSpaceMember_ok hok
    refine iff_of_true ⟨h.org, fun m hm => ?_⟩ trivial
    rcases hupdated m hm with hm | ⟨old, hold, holdscope, hscope, hprincipal, hrole⟩
    · exact h.space m hm
    · obtain ⟨orgId, hspaceOrg, hinside⟩ := h.space old hold
      rw [holdscope, orgOfSpace_resolveSpace hspace] at hspaceOrg
      obtain rfl := Option.some.inj hspaceOrg
      rw [hscope]
      exact ⟨org.id, orgOfSpace_resolveSpace hspace, hinside.newRole hprincipal hrole⟩

open Transition

/-- Every run of accepted requests keeps the bindings inside their organizations, as long as those
that create one name no group of another organization; and none that does keeps them there. -/
theorem members_inside (h : MembersInside dir t)
    (hruns : Runs (step f dir) (fun _ => OwnGroups f dir) t t') :
    MembersInside dir t' ∧ ∀ req t'', step f dir t' req = some t'' →
      (MembersInside dir t'' ↔ OwnGroups f dir req) := by
  have hinside : MembersInside dir t' :=
    hruns.invariant h fun _ _ _ hs hown hstep => (hs.step_iff hstep).mpr hown
  exact ⟨hinside, fun _ _ hstep => hinside.step_iff hstep⟩

/- Two organizations with a group each; the group of the second one ends in 7, that of the first one
in 8. -/
def twoOrgs : Directory where
  organizations := [(1, "acme".toList), (2, "globex".toList)]
  spaces := [⟨9, 1, "launch".toList⟩]
  roles := [⟨5, 1, "viewer".toList, true⟩, ⟨6, 1, "editor".toList, true⟩]
  groups := [⟨7, 2, true⟩, ⟨8, 1, true⟩]
  identities := [3]
  spaces_nodup := by decide
  roles_nodup := by decide
  groups_nodup := by decide

def uuid (last : Char) : Text := "00000000-0000-0000-0000-00000000000".toList ++ [last]

def lastDigits : Formats where
  quote s := '"' :: s ++ ['"']
  parseUuid s :=
    if s = uuid '7' then .ok 7
    else if s = uuid '8' then .ok 8
    else .error "invalid UUID format".toList
  uuidText id := uuid (Nat.digitChar id)

/- The group is named under the caller's own organization, whosever it is. -/
def bindGroup (last : Char) : MemberMessage :=
  ⟨[], some (.group ("organizations/acme/groups/".toList ++ uuid last)),
    "organizations/acme/roles/viewer".toList⟩

def createGroupMember (last : Char) : Request :=
  .createOrgMember "acme".toList 3 ⟨"organizations/acme".toList, some (bindGroup last), []⟩

def createGroupSpaceMember (last : Char) : Request :=
  .createSpaceMember "acme".toList "launch".toList 3
    ⟨"organizations/acme/spaces/launch".toList, some (bindGroup last), []⟩

def makeEditor (last : Char) : Request :=
  .updateOrgMember "acme".toList ⟨some ⟨"organizations/acme/members/group-".toList ++ uuid last, none,
    "organizations/acme/roles/editor".toList⟩, ["role".toList]⟩

def bound (group : Id) : Tables := ⟨[⟨1, .group group, 5, 3, 1⟩], []⟩

def boundTwice : Tables := ⟨[⟨1, .group 8, 6, 3, 2⟩], [⟨9, .group 8, 5, 3, 1⟩]⟩

theorem members_inside_own_group : MembersInside twoOrgs boundTwice ∧
    ∀ t, step lastDigits twoOrgs boundTwice (createGroupSpaceMember '7') = some t →
      ¬ MembersInside twoOrgs t := by
  have hnone : MembersInside twoOrgs ⟨[], []⟩ := ⟨by simp, by simp⟩
  have hown (parent : Text) : NamesOwnGroup lastDigits twoOrgs "acme".toList
      ⟨parent, some (bindGroup '8'), []⟩ := by
    rintro mem org id ⟨⟩ ⟨⟩ ⟨⟩
    rfl
  have hrun : Runs (step lastDigits twoOrgs) (fun _ => OwnGroups lastDigits twoOrgs) ⟨[], []⟩
      boundTwice :=
    (((Runs.refl _).tail (a := createGroupMember '8') (hown _) rfl).tail
      (a := createGroupSpaceMember '8') (hown _) rfl).tail (a := makeEditor '8') trivial rfl
  obtain ⟨hinside, hnext⟩ := members_inside hnone hrun
  refine ⟨hinside, fun t hstep hinside' => ?_⟩
  have hseven := (hnext _ t hstep).mp hinside' _ _ 7 rfl rfl rfl
  exact absurd hseven (by decide)

theorem group_of_another_org : ¬ ∀ (f : Formats) (dir : Directory) (t t' : Tables),
    MembersInside dir t → Runs (step f dir) (fun _ _ => True) t t' → MembersInside dir t' := by
  intro h
  have hnone : MembersInside twoOrgs ⟨[], []⟩ := ⟨by simp, by simp⟩
  have hstep : step lastDigits twoOrgs ⟨[], []⟩ (createGroupMember '7') = some (bound 7) := rfl
  have hinside := (h _ _ _ _ hnone ((Runs.refl _).tail trivial hstep)).org _ List.mem_cons_self
  exact absurd (hinside.group 7 rfl) (by decide)

end Pivox.Members
