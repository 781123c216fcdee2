import Pivox.Organizations.Operations

/-!
The domains of an organization: claims by CreateDomain, the periodic tick that verifies them, the
worker that waits for the outcome, and DeleteDomain.
-/

namespace Pivox.Organizations
open ReadCommitted

/- The scope and the caller that the interceptors put on the request's context. -/
structure RequestScope where
  orgId : Id
  orgSlug : String
  userId : Id

def RequestScope.domainResource (scope : RequestScope) (domain : String) : String :=
  "organizations/" ++ scope.orgSlug ++ "/domains/" ++ domain

/- The domain as trimmed and lowercased, the id as lowercased; empty when the field is. -/
structure CreateDomainRequest where
  domain : String
  domainId : String

/-- The insert, and the row it leaves: UNIQUE(domain) lets nobody claim a domain twice. -/
def createDomainRow (p : CreateDomainParams) : Service (Id × Domain) :=
  runInTx do
    if ← query (.domainClaimed p.domain) then throw .alreadyExists
    else
      let id ← ask .newId
      let now ← ask .now
      let d ← returned (← writeRow .database (.domain id) (.createDomain p now))
      pure (id, d)

def createDomain (scope : RequestScope) (req : CreateDomainRequest) : Service Operation :=
  if req.domain = "" then throw (.invalidArgument "domain.domain")
  else if req.domainId ≠ "" && req.domainId ≠ req.domain then throw (.invalidArgument "domain_id")
  else do
    match ← ask .generateVerificationToken with
    | none => throw (.internal "generate verification token")
    | some token =>
      let (_, d) ← mapError
        (fun
          | .alreadyExists => .alreadyExists
          | _ => .internal "create domain")
        (createDomainRow ⟨scope.orgId, req.domain, token, some scope.userId⟩)
      let resource := scope.domainResource d.domain
      let opId ← ask .newId
      newLro resource
        { operationId := some opId, orgId := some scope.orgId, spaceId := none,
          createdBy := some scope.userId,
          metadata := some (.createDomain .awaitingDns resource token none 0),
          validateOnly := false }

/-! The tick -/

def markDomainVerified (id : Id) : Service Domain := do
  let now ← ask .now
  returned (← writeRow .noRows (.domain id) (.markDomainVerified now))

def markDomainFailed (id : Id) : Service Domain := do
  let now ← ask .now
  returned (← writeRow .noRows (.domain id) (.markDomainFailed now))

def verifyHost (domain : String) : String := "_pivox-verify." ++ domain

/- Any TXT record verifies the domain. -/
def verifyPending (d : Id × Domain) : Service Unit := do
  match ← ask (.lookupTXT (verifyHost d.2.domain)) with
  | some (_ :: _) =>
    let _ ← attempt (markDomainVerified d.1)
    pure ()
  | _ => pure ()

/-- VerifyDomainsWorker.Work -/
def verifyDomains : Service Unit := do
  let pending ← query .listPendingDomains
  Script.forEach verifyPending pending

/-! The worker of CreateDomain's operation -/

structure VerifyDomainArgs where
  operationId : Id
  domainId : Id
  orgId : Id
  orgSlug : String
  resource : String
  deadline : Time

def getDomainByID (id orgId : Id) : Service Domain := do
  found (← query (.getDomainByID id orgId))

/- Best effort: a failed write is logged. -/
def updateMeta (args : VerifyDomainArgs) (phase : CreateDomainPhase) (attempts : Nat) :
    Service Unit := do
  let now ← ask .now
  match ← ask (.marshalMetadata (.createDomain phase args.resource "" (some now) attempts)) with
  | none => pure ()
  | some metadata =>
    let _ ← attempt (updateOperationMetadata args.operationId metadata)
    pure ()

def failOp (args : VerifyDomainArgs) (message : String) : Service Unit := do
  let _ ← attempt (failOperation args.operationId codeFailedPrecondition message)
  pure ()

def completeVerified (args : VerifyDomainArgs) (d : Domain) (attempts : Nat) : Service Unit := do
  updateMeta args .verified attempts
  match ← ask (.marshalResult (.domain d args.orgSlug)) with
  | none => throw (.internal "marshal domain")
  | some result =>
    let _ ← completeOperation args.operationId result
    pure ()

def expire (args : VerifyDomainArgs) (attempts : Nat) : Service Unit := do
  let _ ← attempt (markDomainFailed args.domainId)
  updateMeta args .expired attempts
  failOp args "domain verification window elapsed without successful DNS check"

/-- One look at the operation and the domain: whether the poll is over. -/
def check (args : VerifyDomainArgs) (attempts : Nat) : Service Bool := do
  let op ← getOperation args.operationId
  if op.done then pure true
  else
    match ← attempt (getDomainByID args.domainId args.orgId) with
    | .error .noRows =>
      failOp args "domain row was deleted; verification cancelled"
      pure true
    | .error e => throw e
    | .ok d =>
      match d.state with
      | .verified =>
        completeVerified args d attempts
        pure true
      | .failed =>
        failOp args ("domain " ++ d.domain.quote ++ " verification failed")
        pure true
      | .pending =>
        let now ← ask .now
        if args.deadline < now then
          expire args attempts
          pure true
        else
          updateMeta args .awaitingDns attempts
          pure false

/- The ticks that are left until the worker is shut down. -/
def poll (args : VerifyDomainArgs) : Nat → Nat → Service Unit
  | 0, _ => throw .interrupted
  | ticks + 1, attempts => do
    if ← check args attempts then pure ()
    else poll args ticks (attempts + 1)

/-- VerifyDomainWorker.Work -/
def verifyDomain (args : VerifyDomainArgs) : Service Unit := do
  if ← check args 1 then pure ()
  else
    let ticks ← ask .pollTicks
    poll args ticks 2

/-! DeleteDomain -/

def getDomainByNameForUpdate (domain : String) (orgId : Id) : Service (Id × Domain) := do
  let (id, _) ← found (← query (.getDomainByName domain orgId))
  let d ← returned (← writeRow .noRows (.domain id) (.getDomainByNameForUpdate domain orgId))
  pure (id, d)

def guardLastVerifiedDomainTx (orgId : Id) : Service Unit := do
  match ← attempt (writeRow .noRows (.ssoConfig orgId) .getSsoConfigByOrgIDForUpdate) with
  | .error .noRows => pure ()
  | .error _ => throw (.internal "lookup SSO config")
  | .ok none => pure ()
  | .ok (some sso) =>
    if sso.enabled then
      let count ← query (.countVerifiedDomainsByOrg orgId)
      if count ≤ 1 then
        throw (.failedPrecondition ("cannot delete the last verified domain on an enabled SSO " ++
          "config; disable SSO or add another verified domain first"))
      else pure ()
    else pure ()

/- The domain segment of the request's name, as parsed and lowercased. -/
structure DeleteDomainRequest where
  domain : Option String
  etag : Option Etag

def guardRemoval (scope : RequestScope) (req : DeleteDomainRequest) (row : Domain) :
    Service Unit :=
  if req.etag ≠ none ∧ req.etag ≠ some row.etag then
    throw (.failedPrecondition "etag mismatch; refresh the domain and retry")
  else if row.state = .verified then guardLastVerifiedDomainTx scope.orgId
  else pure ()

def deleteDomain (scope : RequestScope) (req : DeleteDomainRequest) : Service Domain :=
  match req.domain with
  | none => throw (.invalidArgument "name")
  | some domain =>
    runInTx do
      let (id, row) ← mapError
        (fun
          | .noRows => .notFound
          | _ => .internal "lookup domain")
        (getDomainByNameForUpdate domain scope.orgId)
      guardRemoval scope req row
      mapError (fun _ => .internal "cancel in-flight verification operations")
        (cancelDomainOpsForDomain (scope.domainResource domain))
      mapError (fun _ => .internal "delete domain")
        (execRow (.domain id) (.deleteDomain scope.orgId))
      pure row

end Pivox.Organizations
