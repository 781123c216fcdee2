import Pivox.Organizations.Store

/-!
The long-running operations: the manager that creates and ends them for the API, and the statements
by which the workers complete them.
-/

namespace Pivox.Organizations
open ReadCommitted

abbrev Service := Script store Err

abbrev query (q : Query) : Service (Result q) := @Script.read store Err .database q
abbrev ask (q : Ask) : Service (Answer q) := @Script.ask store Err q
abbrev writeRow (missing : Err) (k : Key) (stmt : Stmt k) : Service (Option (Row k)) :=
  @Script.write store Err .database missing k stmt
abbrev execRow (k : Key) (stmt : Stmt k) : Service Unit := @Script.exec store Err .database k stmt
abbrev runInTx {α : Type} (body : Service α) : Service α :=
  @Script.transaction store Err α .database false body
abbrev runInTxValidate {α : Type} (validateOnly : Bool) (body : Service α) : Service α :=
  @Script.transaction store Err α .database validateOnly body
abbrev attempt {α : Type} (m : Service α) : Service (Except Err α) := Script.attempt m

def createOperation (id : Id) (p : CreateOperationParams) : Service Operation := do
  let now ← ask .now
  returned (← writeRow .database (.operation id) (.createOperation p now))

def getOperation (id : Id) : Service Operation := do
  found (← query (.getOperation id))

def completeOperation (id : Id) (result : Json) : Service Operation := do
  returned (← writeRow .noRows (.operation id) (.completeOperation result))

def failOperation (id : Id) (code : Nat) (message : String) : Service Operation := do
  returned (← writeRow .noRows (.operation id) (.failOperation code message))

def updateOperationMetadata (id : Id) (metadata : Json) : Service Unit :=
  execRow (.operation id) (.updateOperationMetadata metadata)

def cancelRunningOpsForOrg (orgId : Id) : Service Unit := do
  let ids ← query (.operationsWhere fun o => !o.done && o.orgId = some orgId)
  Script.forEach (fun id => execRow (.operation id) (.cancelRunningOpsForOrg orgId)) ids

def cancelDomainOpsForDomain (domainResource : String) : Service Unit := do
  let ids ← query (.operationsWhere fun o => !o.done && o.parent = domainResource)
  Script.forEach (fun id =>
    execRow (.operation id) (.cancelDomainOpsForDomain domainResource)) ids

/-! The manager -/

structure NewLroOpts where
  operationId : Option Id
  orgId : Option Id
  spaceId : Option Id
  createdBy : Option Id
  metadata : Option Metadata
  validateOnly : Bool

def marshalMetadata : Option Metadata → Service (Option Json)
  | none => pure none
  | some m => do
    match ← ask (.marshalMetadata m) with
    | none => throw (.internal "failed to marshal operation metadata")
    | some json => pure (some json)

def operationIdOf : Option Id → Service Id
  | some id => pure id
  | none => ask .newId

/-- The operations row and the job of its worker, in one transaction. -/
def newLro (parent : String) (opts : NewLroOpts) : Service Operation := do
  let metadata ← marshalMetadata opts.metadata
  if ← ask .shuttingDown then throw .unavailable
  else
    runInTxValidate opts.validateOnly do
      let id ← operationIdOf opts.operationId
      let op ← mapError (fun _ => .internal "failed to create operation")
        (createOperation id ⟨parent, metadata, opts.orgId, opts.spaceId, opts.createdBy⟩)
      if ← ask .insertJob then pure op
      else throw (.internal "failed to enqueue river job")

/- The name of an operation, as parsed. -/
def deleteOperation (name : Option Id) : Service Unit :=
  match name with
  | none => throw (.invalidArgument "name")
  | some id => do
    let op ← mapError
      (fun
        | .noRows => .notFound
        | _ => .internal "failed to get operation")
      (getOperation id)
    if op.done then
      mapError (fun _ => .internal "failed to delete operation")
        (execRow (.operation id) .deleteOperation)
    else throw (.failedPrecondition "cannot delete a running operation")

/-- A row that is done already, or was never there, is told apart by a second look. -/
def cancelOperation (name : Option Id) : Service Unit :=
  match name with
  | none => throw (.invalidArgument "name")
  | some id => do
    match ← attempt (writeRow .noRows (.operation id) .cancelOperation) with
    | .ok _ => pure ()
    | .error .noRows =>
      match ← attempt (getOperation id) with
      | .ok _ => pure ()
      | .error _ => throw .notFound
    | .error _ => throw (.internal "failed to cancel operation")

def recoverOne (id : Id) : Service Unit := do
  let _ ← attempt (failOperation id codeAborted "operation abandoned during server restart")
  pure ()

def recoverPending : Service Unit := do
  let ids ← query .listPendingOperations
  Script.forEach recoverOne ids

/- One DELETE of all the expired rows. -/
def reapOperations : Service Unit :=
  runInTx do
    let now ← ask .now
    let ids ← query (.operationsWhere fun o => o.done && decide (o.expireTime < now))
    Script.forEach (fun id => execRow (.operation id) (.deleteExpiredOperations now)) ids

/-! What the workers end with -/

/- River's JobCompleteTx, on the worker's own transaction. -/
def jobCompleteTx : Service Unit := do
  if ← ask .completeJob then pure () else throw .database

def completeOperationTx (id : Id) (payload : Payload) : Service Unit := do
  match ← ask (.marshalResult payload) with
  | none => throw (.internal "marshal result")
  | some result =>
    let _ ← completeOperation id result
    jobCompleteTx

def failOperationTx (id : Id) (message : String) : Service Unit := do
  let _ ← failOperation id codeFailedPrecondition message
  jobCompleteTx

end Pivox.Organizations
