import Pivox.Organizations.Domains

/-!
The workers that delete and restore organizations and spaces, with what their foreign keys cascade
to, and the one that deletes an account.
-/

namespace Pivox.Organizations
open ReadCommitted

/-! Cascades -/

def deleteOrgMembersWhere (holds : Id → Principal → Bool) : Service Unit := do
  let rows ← query (.orgMembersWhere holds)
  Script.forEach (fun r => execRow (.orgMember r.1 r.2) .delete) rows

def deleteSpaceMembersWhere (holds : Id → Principal → Bool) : Service Unit := do
  let rows ← query (.spaceMembersWhere holds)
  Script.forEach (fun r => execRow (.spaceMember r.1 r.2) .delete) rows

def deleteGroupMembersWhere (holds : Id → Id → Bool) : Service Unit := do
  let rows ← query (.groupMembersWhere holds)
  Script.forEach (fun r => execRow (.groupMember r.1 r.2) .delete) rows

/- What a foreign key does after the row it cascades from: nothing when that row was not there. -/
def cascadeFrom (key : Key) (stmt : Stmt key) (next : Service Unit) : Service Unit := do
  match ← attempt (writeRow .noRows key stmt) with
  | .ok _ => next
  | .error .noRows => pure ()
  | .error e => throw e

/- The members of a space go with it; operations only lose their reference. -/
def spaceCascade (id : Id) : Service Unit := do
  deleteSpaceMembersWhere fun spaceId _ => spaceId = id
  let ids ← query (.operationsWhere fun o => o.spaceId = some id)
  Script.forEach (fun op => execRow (.operation op) (.spacePurged id)) ids

def purgeSpaceOf (orgId id : Id) : Service Unit :=
  cascadeFrom (.space id) (.cascade orgId) (spaceCascade id)

def groupCascade (id : Id) : Service Unit := do
  deleteGroupMembersWhere fun groupId _ => groupId = id
  deleteOrgMembersWhere fun _ p => p = .group id
  deleteSpaceMembersWhere fun _ p => p = .group id

def purgeGroupOf (orgId id : Id) : Service Unit :=
  cascadeFrom (.group id) (.cascade orgId) (groupCascade id)

/- The role of a binding is RESTRICTed: a role that is bound by then stops the purge. -/
def purgeRolesOf (orgId : Id) : Service Unit := do
  if ← query (.rolesReferenced orgId) then throw .database
  else
    let ids ← query (.rolesWhere fun r => r.orgId = orgId)
    Script.forEach (fun id => execRow (.role id) (.cascade orgId)) ids

/- The foreign keys on organizations, in the order of their tables; the RESTRICT of a role is
   checked when the rows of the organization are gone. -/
def organizationCascade (orgId : Id) : Service Unit := do
  let ids ← query (.spacesWhere fun s => s.orgId = orgId)
  Script.forEach (purgeSpaceOf orgId) ids
  let ids ← query (.groupsWhere fun g => g.orgId = orgId)
  Script.forEach (purgeGroupOf orgId) ids
  deleteOrgMembersWhere fun o _ => o = orgId
  purgeRolesOf orgId
  let ids ← query (.domainsWhere fun d => d.orgId = orgId)
  Script.forEach (fun id => execRow (.domain id) (.deleteDomain orgId)) ids
  execRow (.ssoConfig orgId) .cascade
  let ids ← query (.operationsWhere fun o => o.orgId = some orgId)
  Script.forEach (fun id => execRow (.operation id) (.orgPurged orgId)) ids

/-! Organizations -/

def softDeleteOrganization (id : Id) (deletedBy : Option Id) : Service Organization := do
  let now ← ask .now
  returned (← writeRow .noRows (.organization id) (.softDeleteOrganization deletedBy now))

def undeleteOrganization (id : Id) : Service Organization := do
  let now ← ask .now
  returned (← writeRow .noRows (.organization id) (.undeleteOrganization now))

def purgeOrganization (id : Id) (etag : Etag) : Service Unit := do
  let _ ← writeRow .noRows (.organization id) (.purgeOrganization etag)
  organizationCascade id

structure DeleteOrgArgs where
  operationId : Id
  orgId : Id
  resource : String
  deletedBy : Option Id
  force : Bool
  expectedEtag : Etag

def deleteOrg (args : DeleteOrgArgs) : Service Unit :=
  runInTx do
    cancelRunningOpsForOrg args.orgId
    if args.force then
      match ← attempt (purgeOrganization args.orgId args.expectedEtag) with
      | .error .noRows =>
        failOperationTx args.operationId
          "organization revision changed since delete was requested; refresh and retry"
      | .error e => throw e
      | .ok _ => completeOperationTx args.operationId (.organizationName args.resource)
    else
      match ← attempt (softDeleteOrganization args.orgId args.deletedBy) with
      | .error .noRows =>
        failOperationTx args.operationId
          "organization state changed; cannot soft-delete (was it already deleted?)"
      | .error e => throw e
      | .ok updated => completeOperationTx args.operationId (.organization updated)

structure UndeleteOrgArgs where
  operationId : Id
  orgId : Id

def undeleteOrg (args : UndeleteOrgArgs) : Service Unit :=
  runInTx do
    match ← attempt (undeleteOrganization args.orgId) with
    | .ok updated => completeOperationTx args.operationId (.organization updated)
    | .error .noRows =>
      failOperationTx args.operationId
        "organization is no longer eligible for undelete (purge window may have elapsed)"
    | .error e => throw e

/-! Spaces -/

def softDeleteSpace (id : Id) (deletedBy : Option Id) : Service Space := do
  let now ← ask .now
  returned (← writeRow .noRows (.space id) (.softDeleteSpace deletedBy now))

def undeleteSpaceRow (id : Id) (updatedBy : Option Id) : Service Space := do
  let now ← ask .now
  returned (← writeRow .noRows (.space id) (.undeleteSpace updatedBy now))

def purgeSpace (id : Id) (etag : Etag) : Service Unit := do
  let _ ← writeRow .noRows (.space id) (.purgeSpace etag)
  spaceCascade id

structure DeleteSpaceArgs where
  operationId : Id
  spaceId : Id
  orgSlug : String
  resource : String
  deletedBy : Option Id
  force : Bool
  expectedEtag : Etag

def deleteSpace (args : DeleteSpaceArgs) : Service Unit :=
  runInTx do
    if args.force then
      match ← attempt (purgeSpace args.spaceId args.expectedEtag) with
      | .error .noRows =>
        failOperationTx args.operationId
          "space revision changed since delete was requested; refresh and retry"
      | .error e => throw e
      | .ok _ => completeOperationTx args.operationId (.spaceName args.resource)
    else
      match ← attempt (softDeleteSpace args.spaceId args.deletedBy) with
      | .error .noRows =>
        failOperationTx args.operationId
          "space state changed; cannot soft-delete (was it already deleted?)"
      | .error e => throw e
      | .ok updated => completeOperationTx args.operationId (.space updated args.orgSlug)

structure UndeleteSpaceArgs where
  operationId : Id
  spaceId : Id
  orgSlug : String
  updatedBy : Option Id

def undeleteSpace (args : UndeleteSpaceArgs) : Service Unit :=
  runInTx do
    match ← attempt (undeleteSpaceRow args.spaceId args.updatedBy) with
    | .ok updated => completeOperationTx args.operationId (.space updated args.orgSlug)
    | .error .noRows =>
      failOperationTx args.operationId
        ("space is no longer in DELETE_REQUESTED state (was it purged or restored " ++
          "concurrently?)")
    | .error e => throw e

/-! Accounts -/

structure DeleteAccountArgs where
  operationId : Id
  identityId : Id

def getIdentityByID (id : Id) : Service Identity := do
  found (← query (.getIdentityByID id))

def softDeleteIdentity (id : Id) : Service Unit := do
  let now ← ask .now
  let _ ← writeRow .noRows (.identity id) (.softDeleteIdentity now)
  pure ()

def revokeMemberships (identityId : Id) : Service Unit :=
  runInTx do
    deleteOrgMembersWhere fun _ p => p = .user identityId
    deleteSpaceMembersWhere fun _ p => p = .user identityId

def errIdentityVanished : String := "identity vanished"
def errSoftDeleteRace : String := "soft-delete race"

/- A row that a previous attempt has soft-deleted already is left as it is. -/
def deleteRecords (identityId : Id) : Service Unit :=
  runInTx do
    let ident ← mapError
      (fun
        | .noRows => .internal errIdentityVanished
        | e => e)
      (getIdentityByID identityId)
    if ident.isDeleted then pure ()
    else
      mapError
        (fun
          | .noRows => .internal errSoftDeleteRace
          | e => e)
        (softDeleteIdentity identityId)

def failAccountOp (args : DeleteAccountArgs) (code : Nat) (message : String) : Service Unit := do
  let _ ← failOperation args.operationId code message
  pure ()

def soleOwnerMessage (orgs : List Organization) : String :=
  "cannot delete account: caller is the sole owner of " ++
    String.intercalate ", " (orgs.map fun o => "organizations/" ++ o.name) ++
    "; transfer ownership or delete those orgs first"

def completeAccountOp (args : DeleteAccountArgs) : Service Unit := do
  match ← ask (.marshalResult .empty) with
  | none => throw (.internal "marshal result")
  | some result =>
    let _ ← completeOperation args.operationId result
    pure ()

/-- DeleteAccountWorker.Work, in its three phases. -/
def deleteAccount (args : DeleteAccountArgs) : Service Unit := do
  let orgs ← query (.listSoleOwnerOrgsForIdentity args.identityId)
  if orgs ≠ [] then failAccountOp args codeFailedPrecondition (soleOwnerMessage orgs)
  else
    revokeMemberships args.identityId
    match ← attempt (deleteRecords args.identityId) with
    | .error (.internal what) =>
      if what = errIdentityVanished then
        failAccountOp args codeInternal "identity already removed from Pivox; nothing to delete"
      else if what = errSoftDeleteRace then
        failAccountOp args codeInternal "soft-delete identity: race detected"
      else throw (.internal what)
    | .error e => throw e
    | .ok _ => completeAccountOp args

end Pivox.Organizations
