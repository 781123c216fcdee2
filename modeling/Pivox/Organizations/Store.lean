import Pivox.Service

/-!
The tables of the organization service (organizations and spaces, members, identities, domains,
long-running operations) and the SQL statements on them.
-/

namespace Pivox.Organizations
open ReadCommitted

/- An etag is the md5 of what it is computed from, taken as that: the clock and the revision. -/
abbrev Etag := Time × Nat

inductive ResourceState where
  | active
  | deleteRequested
  deriving DecidableEq, Repr

/- The key of a row is its id; the row holds the other columns. State and delete_time are written
   together: an ACTIVE organization has none. -/
structure Organization where
  name : String
  state : ResourceState
  deleteTime : Option Time
  purgeTime : Option Time
  deletedBy : Option Id
  revision : Nat
  etag : Etag
  active : state = .active → deleteTime = none
  deriving DecidableEq

structure Space where
  orgId : Id
  name : String
  state : ResourceState
  deleteTime : Option Time
  purgeTime : Option Time
  deletedBy : Option Id
  updatedBy : Option Id
  revision : Nat
  etag : Etag
  deriving DecidableEq

structure Role where
  orgId : Id
  name : String
  isSystem : Bool
  deriving DecidableEq

structure Group where
  orgId : Id
  state : ResourceState
  deriving DecidableEq

/- The principal of a member: its user_id or its group_id. -/
inductive Principal where
  | user (id : Id)
  | group (id : Id)
  deriving DecidableEq, Repr

structure Member where
  roleId : Id
  createdBy : Option Id
  revision : Nat
  etag : Etag
  deriving DecidableEq

structure Identity where
  email : String
  displayName : String
  photoUrl : String
  isDeleted : Bool
  deleteTime : Option Time
  deriving DecidableEq

inductive DomainState where
  | pending
  | verified
  | failed
  deriving DecidableEq, Repr

structure Domain where
  orgId : Id
  domain : String
  verificationToken : String
  state : DomainState
  verifiedTime : Option Time
  createdBy : Option Id
  revision : Nat
  etag : Etag
  deriving DecidableEq

structure SsoConfig where
  enabled : Bool
  deriving DecidableEq

structure Operation where
  parent : String
  done : Bool
  metadata : Option Json
  result : Option Json
  errorCode : Option Nat
  errorMessage : Option String
  orgId : Option Id
  spaceId : Option Id
  createdBy : Option Id
  expireTime : Time
  deriving DecidableEq

/- One binding for each principal: the unique indexes on (org_id, user_id) and the like. -/
inductive Key where
  | organization (id : Id)
  | space (id : Id)
  | role (id : Id)
  | group (id : Id)
  | orgMember (orgId : Id) (principal : Principal)
  | spaceMember (spaceId : Id) (principal : Principal)
  | groupMember (groupId userId : Id)
  | identity (id : Id)
  | domain (id : Id)
  | ssoConfig (orgId : Id)
  | operation (id : Id)
  deriving DecidableEq

abbrev Row : Key → Type
  | .organization _ => Slot Organization
  | .space _ => Slot Space
  | .role _ => Role
  | .group _ => Group
  | .orgMember _ _ => Member
  | .spaceMember _ _ => Member
  | .groupMember _ _ => Unit
  | .identity _ => Identity
  | .domain _ => Slot Domain
  | .ssoConfig _ => SsoConfig
  | .operation _ => Slot Operation

structure CreateDomainParams where
  orgId : Id
  domain : String
  verificationToken : String
  createdBy : Option Id

structure CreateOperationParams where
  parent : String
  metadata : Option Json
  orgId : Option Id
  spaceId : Option Id
  createdBy : Option Id

inductive OrganizationStmt where
  | softDeleteOrganization (deletedBy : Option Id) (now : Time)
  | undeleteOrganization (now : Time)
  | purgeOrganization (etag : Etag)

inductive SpaceStmt where
  | softDeleteSpace (deletedBy : Option Id) (now : Time)
  | undeleteSpace (updatedBy : Option Id) (now : Time)
  | purgeSpace (etag : Etag)
  | cascade (orgId : Id)

/- What the foreign keys of an organization's roles and groups do when it is purged. -/
inductive OwnedStmt where
  | cascade (orgId : Id)

inductive MemberStmt where
  | create (roleId : Id) (createdBy : Option Id) (now : Time)
  | updateRole (roleId : Id) (now : Time)
  | delete

inductive GroupMemberStmt where
  | delete

inductive IdentityStmt where
  | softDeleteIdentity (now : Time)

inductive DomainStmt where
  | createDomain (params : CreateDomainParams) (now : Time)
  | getDomainByNameForUpdate (domain : String) (orgId : Id)
  | markDomainVerified (now : Time)
  | markDomainFailed (now : Time)
  | deleteDomain (orgId : Id)

inductive SsoConfigStmt where
  | getSsoConfigByOrgIDForUpdate
  | cascade

inductive OperationStmt where
  | createOperation (params : CreateOperationParams) (now : Time)
  | completeOperation (result : Json)
  | failOperation (errorCode : Nat) (errorMessage : String)
  | updateOperationMetadata (metadata : Json)
  | cancelOperation
  | cancelRunningOpsForOrg (orgId : Id)
  | cancelDomainOpsForDomain (domainResource : String)
  | deleteOperation
  | deleteExpiredOperations (now : Time)
  | orgPurged (orgId : Id)
  | spacePurged (spaceId : Id)

abbrev Stmt : Key → Type
  | .organization _ => OrganizationStmt
  | .space _ => SpaceStmt
  | .role _ => OwnedStmt
  | .group _ => OwnedStmt
  | .orgMember _ _ => MemberStmt
  | .spaceMember _ _ => MemberStmt
  | .groupMember _ _ => GroupMemberStmt
  | .identity _ => IdentityStmt
  | .domain _ => DomainStmt
  | .ssoConfig _ => SsoConfigStmt
  | .operation _ => OperationStmt

/- INTERVAL '30 days', in seconds. -/
def thirtyDays : Time := 30 * 86400

theorem none_of_active {state : ResourceState} : state = .active → (none : Option Time) = none :=
  fun _ => rfl

def Organization.softDeleted (o : Organization) (deletedBy : Option Id) (now : Time) :
    Organization :=
  { o with
    state := .deleteRequested, deleteTime := some now, purgeTime := some (now + thirtyDays),
    deletedBy, revision := o.revision + 1, etag := (now, o.revision), active := nofun }

def Organization.undeleted (o : Organization) (now : Time) : Organization :=
  { o with
    state := .active, deleteTime := none, purgeTime := none, deletedBy := none,
    revision := o.revision + 1, etag := (now, o.revision), active := none_of_active }

def execOrganization : OrganizationStmt → Option (Slot Organization) →
    Option (Option (Slot Organization))
  | .softDeleteOrganization deletedBy now, some (.live o) =>
    if o.state = .active then some (some (.live (o.softDeleted deletedBy now))) else none
  | .undeleteOrganization now, some (.live o) =>
    if o.state = .deleteRequested ∧ ∃ t ∈ o.purgeTime, now < t then
      some (some (.live (o.undeleted now)))
    else none
  | .purgeOrganization etag, some (.live o) => if o.etag = etag then some (some .gone) else none
  | _, _ => none

def execSpace : SpaceStmt → Option (Slot Space) → Option (Option (Slot Space))
  | .softDeleteSpace deletedBy now, some (.live s) =>
    if s.deleteTime = none then
      some (some (.live { s with
        state := .deleteRequested, deleteTime := some now, purgeTime := some (now + thirtyDays),
        deletedBy, updatedBy := deletedBy, revision := s.revision + 1, etag := (now, 0) }))
    else none
  | .undeleteSpace updatedBy now, some (.live s) =>
    if s.deleteTime ≠ none then
      some (some (.live { s with
        state := .active, deleteTime := none, purgeTime := none, deletedBy := none, updatedBy,
        revision := s.revision + 1, etag := (now, 0) }))
    else none
  | .purgeSpace etag, some (.live s) => if s.etag = etag then some (some .gone) else none
  | .cascade orgId, some (.live s) => if s.orgId = orgId then some (some .gone) else none
  | _, _ => none

def execRole : OwnedStmt → Option Role → Option (Option Role)
  | .cascade orgId, some r => if r.orgId = orgId then some none else none
  | _, none => none

def execGroup : OwnedStmt → Option Group → Option (Option Group)
  | .cascade orgId, some g => if g.orgId = orgId then some none else none
  | _, none => none

def execMember : MemberStmt → Option Member → Option (Option Member)
  | .create roleId createdBy now, none =>
    some (some { roleId, createdBy, revision := 1, etag := (now, 0) })
  | .updateRole roleId now, some m =>
    some (some { m with roleId, revision := m.revision + 1, etag := (now, 0) })
  | .delete, some _ => some none
  | _, _ => none

def execGroupMember : GroupMemberStmt → Option Unit → Option (Option Unit)
  | .delete, some _ => some none
  | .delete, none => none

def execIdentity : IdentityStmt → Option Identity → Option (Option Identity)
  | .softDeleteIdentity now, some i =>
    if i.isDeleted then none
    else some (some { i with
      isDeleted := true, email := "", displayName := "", photoUrl := "", deleteTime := some now })
  | _, none => none

def CreateDomainParams.row (p : CreateDomainParams) (now : Time) : Domain :=
  { orgId := p.orgId, domain := p.domain, verificationToken := p.verificationToken,
    state := .pending, verifiedTime := none, createdBy := p.createdBy, revision := 1,
    etag := (now, 0) }

def Domain.marked (d : Domain) (state : DomainState) (verifiedTime : Option Time) (now : Time) :
    Domain :=
  { d with state, verifiedTime, revision := d.revision + 1, etag := (now, d.revision) }

def execDomain : DomainStmt → Option (Slot Domain) → Option (Option (Slot Domain))
  | .createDomain p now, none => some (some (.live (p.row now)))
  | .getDomainByNameForUpdate domain orgId, some (.live d) =>
    if d.domain = domain ∧ d.orgId = orgId then some (some (.live d)) else none
  | .markDomainVerified now, some (.live d) =>
    if d.state = .pending then some (some (.live (d.marked .verified (some now) now))) else none
  | .markDomainFailed now, some (.live d) =>
    if d.state = .pending then some (some (.live (d.marked .failed d.verifiedTime now))) else none
  | .deleteDomain orgId, some (.live d) => if d.orgId = orgId then some (some .gone) else none
  | _, _ => none

def execSsoConfig : SsoConfigStmt → Option SsoConfig → Option (Option SsoConfig)
  | .getSsoConfigByOrgIDForUpdate, some c => some (some c)
  | .cascade, some _ => some none
  | _, none => none

def CreateOperationParams.row (p : CreateOperationParams) (now : Time) : Operation :=
  { parent := p.parent, done := false, metadata := p.metadata, result := none, errorCode := none,
    errorMessage := none, orgId := p.orgId, spaceId := p.spaceId, createdBy := p.createdBy,
    expireTime := now + thirtyDays }

/- The codes of google.golang.org/grpc/codes that the service writes. -/
def codeCancelled : Nat := 1
def codeFailedPrecondition : Nat := 9
def codeAborted : Nat := 10
def codeInternal : Nat := 13

def Operation.failed (o : Operation) (code : Nat) (message : String) : Operation :=
  { o with done := true, errorCode := some code, errorMessage := some message }

def execOperation : OperationStmt → Option (Slot Operation) → Option (Option (Slot Operation))
  | .createOperation p now, none => some (some (.live (p.row now)))
  | .completeOperation result, some (.live o) =>
    some (some (.live { o with done := true, result := some result }))
  | .failOperation code message, some (.live o) => some (some (.live (o.failed code message)))
  | .updateOperationMetadata metadata, some (.live o) =>
    some (some (.live { o with metadata := some metadata }))
  | .cancelOperation, some (.live o) =>
    if o.done then none else some (some (.live (o.failed codeCancelled "cancelled by user")))
  | .cancelRunningOpsForOrg orgId, some (.live o) =>
    if o.done = false ∧ o.orgId = some orgId then
      some (some (.live (o.failed codeCancelled "cancelled by DeleteOrganization")))
    else none
  | .cancelDomainOpsForDomain domainResource, some (.live o) =>
    if o.done = false ∧ o.parent = domainResource then
      some (some (.live (o.failed codeCancelled "cancelled by DeleteDomain")))
    else none
  | .deleteOperation, some (.live _) => some (some .gone)
  | .deleteExpiredOperations now, some (.live o) =>
    if o.done ∧ o.expireTime < now then some (some .gone) else none
  | .orgPurged orgId, some (.live o) =>
    if o.orgId = some orgId then some (some (.live { o with orgId := none })) else none
  | .spacePurged spaceId, some (.live o) =>
    if o.spaceId = some spaceId then some (some (.live { o with spaceId := none })) else none
  | _, _ => none

/- The `Where` queries are the rows that a statement on many rows selects. -/
inductive Query where
  | getOrganizationByName (name : String)
  | getSystemRole (orgId : Id) (name : String)
  | getOrgMember (orgId : Id) (principal : Principal)
  | listOrgOwnerMembers (orgId : Id)
  | countOwnersByOrg (orgId : Id)
  | countOrgOwnersExcludingUser (orgId userId : Id)
  | listSoleOwnerOrgsForIdentity (identityId : Id)
  | getIdentityByID (id : Id)
  | getDomainByID (id orgId : Id)
  | getDomainByName (domain : String) (orgId : Id)
  | domainClaimed (domain : String)
  | listPendingDomains
  | countVerifiedDomainsByOrg (orgId : Id)
  | getOperation (id : Id)
  | listPendingOperations
  | spacesWhere (holds : Space → Bool)
  | groupsWhere (holds : Group → Bool)
  | rolesWhere (holds : Role → Bool)
  | orgMembersWhere (holds : Id → Principal → Bool)
  | spaceMembersWhere (holds : Id → Principal → Bool)
  | groupMembersWhere (holds : Id → Id → Bool)
  | domainsWhere (holds : Domain → Bool)
  | operationsWhere (holds : Operation → Bool)
  | rolesReferenced (orgId : Id)

abbrev Result : Query → Type
  | .getOrganizationByName _ => Option (Id × Organization)
  | .getSystemRole _ _ => Option (Id × Role)
  | .getOrgMember _ _ => Option (Member × String)
  | .listOrgOwnerMembers _ => List Principal
  | .countOwnersByOrg _ => Nat
  | .countOrgOwnersExcludingUser _ _ => Nat
  | .listSoleOwnerOrgsForIdentity _ => List Organization
  | .getIdentityByID _ => Option Identity
  | .getDomainByID _ _ => Option Domain
  | .getDomainByName _ _ => Option (Id × Domain)
  | .domainClaimed _ => Bool
  | .listPendingDomains => List (Id × Domain)
  | .countVerifiedDomainsByOrg _ => Nat
  | .getOperation _ => Option Operation
  | .listPendingOperations => List Id
  | .spacesWhere _ => List Id
  | .groupsWhere _ => List Id
  | .rolesWhere _ => List Id
  | .orgMembersWhere _ => List (Id × Principal)
  | .spaceMembersWhere _ => List (Id × Principal)
  | .groupMembersWhere _ => List (Id × Id)
  | .domainsWhere _ => List Id
  | .operationsWhere _ => List Id
  | .rolesReferenced _ => Bool

def organizations (db : AList Row) : List (Id × Organization) :=
  db.entries.filterMap fun
    | ⟨.organization id, .live o⟩ => some (id, o)
    | _ => none

def spaces (db : AList Row) : List (Id × Space) :=
  db.entries.filterMap fun
    | ⟨.space id, .live s⟩ => some (id, s)
    | _ => none

def roles (db : AList Row) : List (Id × Role) :=
  db.entries.filterMap fun
    | ⟨.role id, r⟩ => some (id, r)
    | _ => none

def groups (db : AList Row) : List (Id × Group) :=
  db.entries.filterMap fun
    | ⟨.group id, g⟩ => some (id, g)
    | _ => none

def orgMembers (db : AList Row) : List (Id × Principal × Member) :=
  db.entries.filterMap fun
    | ⟨.orgMember orgId p, m⟩ => some (orgId, p, m)
    | _ => none

def spaceMembers (db : AList Row) : List (Id × Principal × Member) :=
  db.entries.filterMap fun
    | ⟨.spaceMember spaceId p, m⟩ => some (spaceId, p, m)
    | _ => none

def groupMembers (db : AList Row) : List (Id × Id) :=
  db.entries.filterMap fun
    | ⟨.groupMember groupId userId, _⟩ => some (groupId, userId)
    | _ => none

def domains (db : AList Row) : List (Id × Domain) :=
  db.entries.filterMap fun
    | ⟨.domain id, .live d⟩ => some (id, d)
    | _ => none

def operations (db : AList Row) : List (Id × Operation) :=
  db.entries.filterMap fun
    | ⟨.operation id, .live o⟩ => some (id, o)
    | _ => none

def roleRow (db : AList Row) (id : Id) : Option Role := db.lookup (Key.role id)

def orgMemberRow (db : AList Row) (orgId : Id) (p : Principal) : Option Member :=
  db.lookup (Key.orgMember orgId p)

variable {db : AList Row}

theorem mem_organizations {id : Id} {o : Organization} :
    (id, o) ∈ organizations db ↔ db.lookup (Key.organization id) = some (.live o) :=
  mem_collected fun e => by
    constructor
    · intro h
      split at h <;> cases h
      rfl
    · rintro ⟨⟩
      rfl

theorem mem_roles {id : Id} {r : Role} :
    (id, r) ∈ roles db ↔ roleRow db id = some r :=
  mem_collected fun e => by
    constructor
    · intro h
      split at h <;> cases h
      rfl
    · rintro ⟨⟩
      rfl

theorem mem_orgMembers {orgId : Id} {p : Principal} {m : Member} :
    (orgId, p, m) ∈ orgMembers db ↔ orgMemberRow db orgId p = some m :=
  mem_collected fun e => by
    constructor
    · intro h
      split at h <;> cases h
      rfl
    · rintro ⟨⟩
      rfl

theorem mem_spaceMembers {spaceId : Id} {p : Principal} {m : Member} :
    (spaceId, p, m) ∈ spaceMembers db ↔ db.lookup (Key.spaceMember spaceId p) = some m :=
  mem_collected fun e => by
    constructor
    · intro h
      split at h <;> cases h
      rfl
    · rintro ⟨⟩
      rfl

theorem mem_groupMembers {groupId userId : Id} :
    (groupId, userId) ∈ groupMembers db ↔ db.lookup (Key.groupMember groupId userId) = some () :=
  mem_collected fun e => by
    constructor
    · intro h
      split at h <;> cases h
      rfl
    · rintro ⟨⟩
      rfl

theorem mem_domains {id : Id} {d : Domain} :
    (id, d) ∈ domains db ↔ db.lookup (Key.domain id) = some (.live d) :=
  mem_collected fun e => by
    constructor
    · intro h
      split at h <;> cases h
      rfl
    · rintro ⟨⟩
      rfl

theorem mem_operations {id : Id} {o : Operation} :
    (id, o) ∈ operations db ↔ db.lookup (Key.operation id) = some (.live o) :=
  mem_collected fun e => by
    constructor
    · intro h
      split at h <;> cases h
      rfl
    · rintro ⟨⟩
      rfl

def idsWhere {α : Type} (holds : α → Bool) (rows : List (Id × α)) : List Id :=
  (rows.filter fun r => holds r.2).map (·.1)

def membersWhere (holds : Id → Principal → Bool) (rows : List (Id × Principal × Member)) :
    List (Id × Principal) :=
  (rows.filter fun r => holds r.1 r.2.1).map fun r => (r.1, r.2.1)

def groupRow (db : AList Row) (id : Id) : Option Group := db.lookup (Key.group id)

def identityRow (db : AList Row) (id : Id) : Option Identity := db.lookup (Key.identity id)

def isOwnerRole (db : AList Row) (roleId : Id) : Bool :=
  match roleRow db roleId with
  | some r => r.isSystem && r.name = "owner"
  | none => false

def isActiveGroup (db : AList Row) (groupId : Id) : Bool :=
  match groupRow db groupId with
  | some g => g.state = .active
  | none => false

/-- The owner binding of a user, or of a group that is ACTIVE. -/
def countsAsOwner (db : AList Row) (p : Principal) (m : Member) : Bool :=
  isOwnerRole db m.roleId &&
    match p with
    | .user _ => true
    | .group g => isActiveGroup db g

def countOwners (db : AList Row) (orgId : Id) (holds : Principal → Bool) : Nat :=
  (orgMembers db).countP fun r => r.1 = orgId && holds r.2.1 && countsAsOwner db r.2.1 r.2.2

def Principal.isUser : Principal → Bool
  | .user _ => true
  | .group _ => false

/- The HAVING clause: one binding of a user as owner, and that one this identity's; and no ACTIVE
   group. -/
def isSoleOwner (db : AList Row) (identityId orgId : Id) : Bool :=
  countOwners db orgId Principal.isUser = 1 &&
    countOwners db orgId (· = .user identityId) = 1 &&
    countOwners db orgId (fun p => !p.isUser) = 0

/- The binding joined with its role. -/
def memberWithRole (db : AList Row) (orgId : Id) (p : Principal) : Option (Member × String) :=
  match orgMemberRow db orgId p with
  | none => none
  | some m => (roleRow db m.roleId).map fun r => (m, r.name)

def answer : (q : Query) → AList Row → Result q
  | .getOrganizationByName name, db =>
    (organizations db).find? fun r => r.2.name = name && r.2.deleteTime = none
  | .getSystemRole orgId name, db =>
    (roles db).find? fun r => r.2.orgId = orgId && r.2.name = name && r.2.isSystem
  | .getOrgMember orgId p, db => memberWithRole db orgId p
  | .listOrgOwnerMembers orgId, db =>
    ((orgMembers db).filter fun r => r.1 = orgId && isOwnerRole db r.2.2.roleId).map (·.2.1)
  | .countOwnersByOrg orgId, db => countOwners db orgId fun _ => true
  | .countOrgOwnersExcludingUser orgId userId, db => countOwners db orgId (· ≠ .user userId)
  | .listSoleOwnerOrgsForIdentity identityId, db =>
    ((organizations db).filter fun r =>
      r.2.deleteTime = none && isSoleOwner db identityId r.1).map (·.2)
  | .getIdentityByID id, db => identityRow db id
  | .getDomainByID id orgId, db =>
    ((domains db).find? fun r => r.1 = id && r.2.orgId = orgId).map (·.2)
  | .getDomainByName domain orgId, db =>
    (domains db).find? fun r => r.2.domain = domain && r.2.orgId = orgId
  | .domainClaimed domain, db => (domains db).any fun r => r.2.domain = domain
  | .listPendingDomains, db => ((domains db).filter fun r => r.2.state = .pending).take 1000
  | .countVerifiedDomainsByOrg orgId, db =>
    (domains db).countP fun r => r.2.orgId = orgId && r.2.state = .verified
  | .getOperation id, db => ((operations db).find? fun r => r.1 = id).map (·.2)
  | .listPendingOperations, db => idsWhere (fun o => !o.done) (operations db)
  | .spacesWhere holds, db => idsWhere holds (spaces db)
  | .groupsWhere holds, db => idsWhere holds (groups db)
  | .rolesWhere holds, db => idsWhere holds (roles db)
  | .orgMembersWhere holds, db => membersWhere holds (orgMembers db)
  | .spaceMembersWhere holds, db => membersWhere holds (spaceMembers db)
  | .groupMembersWhere holds, db => (groupMembers db).filter fun r => holds r.1 r.2
  | .domainsWhere holds, db => idsWhere holds (domains db)
  | .operationsWhere holds, db => idsWhere holds (operations db)
  | .rolesReferenced orgId, db =>
    (orgMembers db ++ spaceMembers db).any fun r =>
      match roleRow db r.2.2.roleId with
      | some role => role.orgId = orgId
      | none => false

/- What an operation's result is made of. -/
inductive Payload where
  | organization (org : Organization)
  | organizationName (resource : String)
  | space (space : Space) (orgSlug : String)
  | spaceName (resource : String)
  | domain (domain : Domain) (orgSlug : String)
  | empty
  deriving DecidableEq

inductive CreateDomainPhase where
  | awaitingDns
  | verified
  | expired
  deriving DecidableEq

inductive Metadata where
  | createDomain (phase : CreateDomainPhase) (domain : String) (verificationToken : String)
      (lastCheckTime : Option Time) (attemptCount : Nat)
  | deleteOrganization (organization : String)
  | undeleteOrganization (organization : String)
  | deleteSpace (space : String)
  | undeleteSpace (space : String)
  | deleteAccount (account : String)
  deriving DecidableEq

/-- What the service asks outside of its tables: the clock, fresh ids and secrets, the resolver of
DNS names, the encoders of JSON columns, and the job queue. -/
inductive Ask where
  | now
  | newId
  | generateVerificationToken
  | lookupTXT (host : String)
  | marshalResult (payload : Payload)
  | marshalMetadata (metadata : Metadata)
  | shuttingDown
  | insertJob
  | completeJob
  | pollTicks
  deriving DecidableEq

abbrev Answer : Ask → Type
  | .now => Time
  | .newId => Id
  | .generateVerificationToken => Option String
  | .lookupTXT _ => Option (List String)
  | .marshalResult _ => Option Json
  | .marshalMetadata _ => Option Json
  | .shuttingDown => Bool
  | .insertJob => Bool
  | .completeJob => Bool
  | .pollTicks => Nat

abbrev store : Schema where
  Key := Key
  Row := Row
  Stmt := Stmt
  exec
    | .organization _ => execOrganization
    | .space _ => execSpace
    | .role _ => execRole
    | .group _ => execGroup
    | .orgMember _ _ => execMember
    | .spaceMember _ _ => execMember
    | .groupMember _ _ => execGroupMember
    | .identity _ => execIdentity
    | .domain _ => execDomain
    | .ssoConfig _ => execSsoConfig
    | .operation _ => execOperation
  Query := Query
  Result := Result
  answer := answer
  Ask := Ask
  Answer := Answer

end Pivox.Organizations
