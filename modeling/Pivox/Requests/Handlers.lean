import Pivox.ReadCommitted.CommitOnce
import Pivox.Service

/-!
The requests for assets: their rows, and the handlers that move a request from state to state.
-/

namespace Pivox.Requests
open ReadCommitted

inductive RequestState where
  | draft
  | «open»
  | inProgress
  | delivered
  | approved
  | revisionRequested
  | rejected
  | cancelled
  deriving DecidableEq, Repr

def RequestState.text : RequestState → String
  | .draft => "DRAFT"
  | .open => "OPEN"
  | .inProgress => "IN_PROGRESS"
  | .delivered => "DELIVERED"
  | .approved => "APPROVED"
  | .revisionRequested => "REVISION_REQUESTED"
  | .rejected => "REJECTED"
  | .cancelled => "CANCELLED"

structure AssetRequest where
  spaceId : Id
  name : String
  state : RequestState
  assignee : String
  revision : ℕ
  updatedBy : Option Id
  etag : Time
  deriving DecidableEq

inductive RequestStmt where
  | getRequestByNameForUpdate (spaceId : Id) (name : String)
  | updateRequestState (state : RequestState) (updatedBy : Option Id) (now : Time)
  | updateRequestStateIfFrom (state : RequestState) (updatedBy : Option Id)
      (fromState : RequestState) (now : Time)
  | updateRequestAssignee (assignee : String) (state : RequestState) (updatedBy : Option Id)
      (now : Time)

def AssetRequest.moved (r : AssetRequest) (state : RequestState) (updatedBy : Option Id)
    (now : Time) : AssetRequest :=
  { r with state, revision := r.revision + 1, updatedBy, etag := now }

def execRequest : RequestStmt → AssetRequest → Option AssetRequest
  | .getRequestByNameForUpdate spaceId name, r =>
    if r.spaceId = spaceId ∧ r.name = name then some r else none
  | .updateRequestState state updatedBy now, r => some (r.moved state updatedBy now)
  | .updateRequestStateIfFrom state updatedBy fromState now, r =>
    if r.state = fromState then some (r.moved state updatedBy now) else none
  | .updateRequestAssignee assignee state updatedBy now, r =>
    some { r.moved state updatedBy now with assignee }

inductive Query where
  | getRequestByName (spaceId : Id) (name : String)

/- What a call answers its caller. -/
inductive Response where
  | ok (request : AssetRequest)
  | error (e : Err)
  deriving DecidableEq

def Response.isOk : Response → Bool
  | .ok _ => true
  | .error _ => false

/-- What a call asks outside of its table: the clock, the space that a name stands for, the actors
of the request it returns; and its answer to the caller. -/
inductive Ask where
  | now
  | resolveSpace (orgName spaceName : String)
  | resolveRequestActors (request : AssetRequest)
  | respond (response : Response)
  deriving DecidableEq

abbrev Answer : Ask → Type
  | .now => Time
  | .resolveSpace _ _ => Except Err Id
  | .resolveRequestActors _ => Bool
  | .respond _ => Unit

def requestWithName (db : AList fun _ : Id => AssetRequest) (spaceId : Id) (name : String) :
    Option (Id × AssetRequest) :=
  (db.entries.find? fun e => e.2.spaceId = spaceId && e.2.name = name).map fun e => (e.1, e.2)

abbrev store : Schema where
  Key := Id
  Row _ := AssetRequest
  Stmt _ := RequestStmt
  exec _ stmt row := row.bind fun r => (execRequest stmt r).map some
  Query := Query
  Result _ := Option (Id × AssetRequest)
  answer
    | .getRequestByName spaceId name, db => requestWithName db spaceId name
  Ask := Ask
  Answer := Answer

abbrev Service := Script store Err

abbrev ask (q : Ask) : Service (Answer q) := @Script.ask store Err q
abbrev writeRow (id : Id) (stmt : RequestStmt) : Service (Option AssetRequest) :=
  @Script.write store Err .database .noRows id stmt
abbrev runInTx {α : Type} (body : Service α) : Service α :=
  @Script.transaction store Err α .database false body

def getRequestByName (spaceId : Id) (name : String) : Service (Id × AssetRequest) := do
  found (← @Script.read store Err .database (.getRequestByName spaceId name))

def getRequestByNameForUpdate (spaceId : Id) (name : String) : Service (Id × AssetRequest) := do
  let (id, _) ← getRequestByName spaceId name
  let r ← found (← writeRow id (.getRequestByNameForUpdate spaceId name))
  pure (id, r)

/- An UPDATE that returns its row; `stmt` takes the statement's clock. -/
def updateReturning (id : Id) (stmt : Time → RequestStmt) : Service AssetRequest := do
  let now ← ask .now
  found (← writeRow id (stmt now))

/- The name is given split at its slashes. -/
def parseRequestName (name : List String) : Option (String × String × String) :=
  match name with
  | ["organizations", org, "spaces", space, "requests", request] => some (org, space, request)
  | _ => none

def resolveSpace (orgName spaceName : String) : Service Id := do
  match ← ask (.resolveSpace orgName spaceName) with
  | .ok spaceId => pure spaceId
  | .error e => throw e

/- The space and the name of the request that a resource name stands for. -/
def resolveRequest (name : List String) : Service (Id × String) :=
  match parseRequestName name with
  | none => throw (.internal "database error")
  | some (org, space, request) => do
    let spaceId ← resolveSpace org space
    pure (spaceId, request)

/-- The transitions from one state: the UPDATE tests the state itself, and its miss is looked into
by a second read. -/
def moveInTx (spaceId : Id) (request : String) (fromState toState : RequestState) :
    Service AssetRequest := do
  let (id, _) ← mapError handleResourceError (getRequestByName spaceId request)
  let stmt := RequestStmt.updateRequestStateIfFrom toState none fromState
  match ← Script.attempt (updateReturning id stmt) with
  | .ok updated => pure updated
  | .error .noRows =>
    match ← Script.attempt (getRequestByName spaceId request) with
    | .error .noRows => throw .notFound
    | .error e => throw (handleResourceError e)
    | .ok (_, current) =>
      throw (.failedPrecondition ("request must be in state " ++ fromState.text ++ ", got " ++
        current.state.text))
  | .error e => throw (handleResourceError e)

/-- The transitions from several states: the state is tested under the lock of the row. -/
def lockInTx (spaceId : Id) (request : String) (refusal : RequestState → Option String)
    (stmt : Time → RequestStmt) : Service AssetRequest := do
  let (id, existing) ← mapError handleResourceError (getRequestByNameForUpdate spaceId request)
  match refusal existing.state with
  | some message => throw (.failedPrecondition message)
  | none => mapError handleResourceError (updateReturning id stmt)

def transitionRequest (fromState toState : RequestState) (spaceId : Id) (request : String) :
    Service AssetRequest :=
  runInTx (moveInTx spaceId request fromState toState)

def submitRequest := transitionRequest .draft .open
def deliverRequest := transitionRequest .inProgress .delivered
def approveRequest := transitionRequest .delivered .approved
def requestRevision := transitionRequest .delivered .revisionRequested
def rejectRequest := transitionRequest .delivered .rejected

def assignRequest (assignee : String) (spaceId : Id) (request : String) : Service AssetRequest :=
  runInTx (lockInTx spaceId request
    (fun state =>
      if state ≠ .open ∧ state ≠ .inProgress then
        some ("request must be OPEN or IN_PROGRESS to assign, got " ++ state.text)
      else none)
    (.updateRequestAssignee assignee .inProgress none))

def claimRequest (caller : Id) (spaceId : Id) (request : String) : Service AssetRequest :=
  runInTx (lockInTx spaceId request
    (fun state =>
      if state ≠ .open then some ("can only claim OPEN requests, got " ++ state.text) else none)
    (.updateRequestAssignee "" .inProgress (some caller)))

def cancelRequest (spaceId : Id) (request : String) : Service AssetRequest :=
  runInTx (lockInTx spaceId request
    (fun state =>
      if state = .approved ∨ state = .cancelled then
        some ("cannot cancel a request in state " ++ state.text)
      else none)
    (.updateRequestState .cancelled none))

inductive Call where
  | submitRequest
  | assignRequest (assignee : String)
  | claimRequest (caller : Id)
  | deliverRequest
  | approveRequest
  | requestRevision
  | rejectRequest
  | cancelRequest

structure Request where
  name : List String
  call : Call

def handle : Call → Id → String → Service AssetRequest
  | .submitRequest => submitRequest
  | .assignRequest assignee => assignRequest assignee
  | .claimRequest caller => claimRequest caller
  | .deliverRequest => deliverRequest
  | .approveRequest => approveRequest
  | .requestRevision => requestRevision
  | .rejectRequest => rejectRequest
  | .cancelRequest => cancelRequest

/- Actors that do not resolve are logged. -/
def respond : Except Err AssetRequest → Prog store
  | .ok r => .ask (.resolveRequestActors r) fun _ => .ask (.respond (.ok r)) fun _ => .done
  | .error e => .ask (.respond (.error e)) fun _ => .done

def code (req : Request) : Prog store :=
  (do
    let (spaceId, request) ← resolveRequest req.name
    handle req.call spaceId request : Service AssetRequest) respond

end Pivox.Requests
