import Pivox.Organizations.Lifecycle

/-!
The members of an organization: creating, updating and removing their bindings, handing ownership
over, and removing a user.
-/

namespace Pivox.Organizations
open ReadCommitted

def roleOwner : String := "owner"
def roleAdmin : String := "admin"

def getSystemRole (orgId : Id) (name : String) : Service (Id × Role) := do
  found (← query (.getSystemRole orgId name))

def getOrgMember (orgId : Id) (p : Principal) : Service (Member × String) := do
  found (← query (.getOrgMember orgId p))

def getOrganizationByName (name : String) : Service (Id × Organization) := do
  found (← query (.getOrganizationByName name))

def updateOrgMemberRole (orgId : Id) (p : Principal) (roleId : Id) : Service Unit := do
  let now ← ask .now
  let _ ← writeRow .noRows (.orgMember orgId p) (.updateRole roleId now)
  pure ()

/- The principal and the role slug of a request, as parsed and checked against its scope. -/
abbrev MemberRequest := Option (Principal × String)

def createMember (orgId caller : Id) (req : MemberRequest) : Service Unit :=
  match req with
  | none => throw (.invalidArgument "member")
  | some (p, slug) =>
    runInTx do
      let role ← mapError handleResourceError (getSystemRole orgId slug)
      let now ← ask .now
      let _ ← mapError handleResourceError
        (writeRow .database (.orgMember orgId p) (.create role.1 (some caller) now))
      pure ()

/- The guard of a binding that is about to stop being an owner's. -/
def guardLastOwner (applies : Bool) (orgId : Id) (message : String) : Service Unit :=
  if applies then do
    let count ← mapError (fun _ => .internal "count owners") (query (.countOwnersByOrg orgId))
    if count ≤ 1 then throw (.failedPrecondition message) else pure ()
  else pure ()

def updateMember (orgId : Id) (req : MemberRequest) : Service Unit :=
  match req with
  | none => throw (.invalidArgument "member")
  | some (p, slug) =>
    runInTx do
      let newRole ← mapError handleResourceError (getSystemRole orgId slug)
      let current ← mapError handleResourceError (getOrgMember orgId p)
      guardLastOwner (current.2 = roleOwner && newRole.2.name ≠ roleOwner) orgId
        "cannot demote the last owner; promote another member to owner first"
      mapError handleResourceError (updateOrgMemberRole orgId p newRole.1)

def deleteMember (orgId : Id) (req : Option Principal) : Service Unit :=
  match req with
  | none => throw (.invalidArgument "name")
  | some p =>
    runInTx do
      let current ← mapError handleResourceError (getOrgMember orgId p)
      guardLastOwner (current.2 = roleOwner) orgId
        "cannot remove the last owner; promote another member to owner first"
      let _ ← writeRow .notFound (.orgMember orgId p) .delete
      pure ()

/- The one owner that is to be demoted. -/
def previousOwner (owners : List Principal) : Service Id :=
  if owners.any fun p => !p.isUser then
    throw (.failedPrecondition ("organization has a group owner; transfer via UpdateMember + " ++
      "CreateMember rather than TransferOwnership"))
  else
    match owners with
    | [] => throw (.failedPrecondition
        "organization has no current owner; restore one before transferring")
    | [.user id] => pure id
    | _ => throw (.failedPrecondition ("organization has multiple owners; use UpdateMember to " ++
        "demote one and promote another"))

/- The organization's slug and the new owner, as parsed. -/
def transferOwnership (req : Option (String × Id)) : Service Unit :=
  match req with
  | none => throw (.invalidArgument "name")
  | some (slug, newOwner) => do
    let org ← mapError handleResourceError (getOrganizationByName slug)
    runInTx do
      let target ← mapError
        (fun
          | .noRows => .failedPrecondition
            "new_owner is not a member of this organization; CreateMember first"
          | _ => .internal "lookup target member")
        (getOrgMember org.1 (.user newOwner))
      if target.2 = roleOwner then throw (.failedPrecondition "new_owner is already the owner")
      else
        let owners ← mapError (fun _ => .internal "list owners")
          (query (.listOrgOwnerMembers org.1))
        let prev ← previousOwner owners
        let owner ← mapError (fun _ => .internal "resolve owner role")
          (getSystemRole org.1 roleOwner)
        let admin ← mapError (fun _ => .internal "resolve admin role")
          (getSystemRole org.1 roleAdmin)
        mapError (fun _ => .internal "demote current owner")
          (updateOrgMemberRole org.1 (.user prev) admin.1)
        mapError (fun _ => .internal "promote target")
          (updateOrgMemberRole org.1 (.user newOwner) owner.1)

def deleteSpaceMembersForUserInOrg (orgId userId : Id) : Service Unit := do
  let ids ← query (.spacesWhere fun s => s.orgId = orgId)
  deleteSpaceMembersWhere fun spaceId p => ids.contains spaceId && p = .user userId

def deleteGroupMembersForUserInOrg (orgId userId : Id) : Service Unit := do
  let ids ← query (.groupsWhere fun g => g.orgId = orgId)
  deleteGroupMembersWhere fun groupId u => ids.contains groupId && u = userId

def deleteUser (orgId : Id) (req : Option Id) : Service Unit :=
  match req with
  | none => throw (.invalidArgument "name")
  | some userId =>
    runInTx do
      let remaining ← mapError (fun _ => .internal "sole-owner check")
        (query (.countOrgOwnersExcludingUser orgId userId))
      if remaining = 0 then
        throw (.failedPrecondition ("cannot delete user: would leave the organization with no " ++
          "owners; transfer ownership first"))
      else
        execRow (.orgMember orgId (.user userId)) .delete
        deleteSpaceMembersForUserInOrg orgId userId
        deleteGroupMembersForUserInOrg orgId userId

end Pivox.Organizations
