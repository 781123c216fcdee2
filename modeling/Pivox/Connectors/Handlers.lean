import Pivox.Connectors.Store

/-!
The handlers that write secrets and connectors: a value is encrypted for the id of its row, and a
connector takes a row of connector_secret_refs for each secret that its config names.
-/

namespace Pivox.Connectors
open ReadCommitted

/-- Authenticated encryption with associated data; `nonce` is the randomness of one encryption. -/
structure Aead where
  encrypt : (nonce : Nat) → (value associatedData : Bytes) → Bytes
  decrypt : (ciphertext associatedData : Bytes) → Option Bytes
  decrypt_encrypt : ∀ nonce value associatedData,
    decrypt (encrypt nonce value associatedData) associatedData = some value

/- The slugs of organizations and spaces, which never change. -/
structure Slugs where
  org : Id → Text
  space : Id → Text

/-- The resource name of a scope. -/
def namePrefix (slugs : Slugs) (scope : Scope) : Text :=
  "organizations/".toList ++ slugs.org scope.orgId ++
    match scope.spaceId with
    | none => []
    | some id => "/spaces/".toList ++ slugs.space id

/- The 16 bytes of a UUID. -/
def uuidBytes (id : Id) : Bytes := (List.range 16).map fun i => UInt8.ofNat (id / 256 ^ (15 - i))

def secretAAD (id : Id) : Bytes := "secret:".toList.map (fun c => UInt8.ofNat c.toNat) ++ uuidBytes id

def createError : Err → Err
  | .alreadyExists => .alreadyExists
  | e => handleResourceError e

def encrypt (aead : Aead) (id : Id) (value : Bytes) : Service Sealed := do
  match ← ask (.encrypt value (secretAAD id)) with
  | none => throw (.internal "encrypt secret value")
  | some nonce => pure ⟨aead.encrypt nonce value (secretAAD id), value⟩

/-! Secrets -/

structure CreateSecretRequest where
  secretId : Text
  displayName : String
  value : Bytes
  annotations : Marshalled
  validateOnly : Bool

def createSecretHandler (aead : Aead) (scope : Scope) (req : CreateSecretRequest) :
    Service (Id × Secret) := do
  if req.value = [] then throw (.invalidArgument "secret.value")
  else if req.secretId = [] then throw (.invalidArgument "secret_id")
  else
    match ← ask .newId with
    | none => throw (.internal "generate secret id")
    | some id =>
      let sealed ← encrypt aead id req.value
      match req.annotations with
      | .error _ => throw (.invalidArgument "secret.annotations")
      | .ok annotations =>
        let etag ← ask .etag
        mapError createError (runInTxValidate req.validateOnly (insertSecret id
          { scope, slug := req.secretId, displayName := req.displayName, sealed, annotations, etag,
            xmax := 0 }))

/- An empty mask covers every field but the value, which is only updated where it is named. -/
structure UpdateSecretRequest where
  name : Text
  updateMask : List String
  displayName : String
  value : Bytes
  annotations : Marshalled
  etag : String
  validateOnly : Bool

def UpdateSecretRequest.inScope (req : UpdateSecretRequest) (field : String) : Bool :=
  req.updateMask = [] || req.updateMask.contains field

def UpdateSecretRequest.valueInMask (req : UpdateSecretRequest) : Bool :=
  req.updateMask.contains "value"

/- parseSecretName and parseConnectorName: the last segment of the name. -/
def parseName (name : Text) : Service Text :=
  match parseSecretLeaf name with
  | .ok slug => pure slug
  | .error _ => throw .notFound

/- The new value is encrypted before the transaction, for the id that a plain read gave. -/
def encryptNewValue (aead : Aead) (scope : Scope) (slug : Text) (req : UpdateSecretRequest) :
    Service (Option (Id × Sealed)) :=
  if req.valueInMask then
    if req.value = [] then throw (.invalidArgument "secret.value")
    else do
      let existing ← mapError handleResourceError (getSecretByParent ⟨scope, slug⟩)
      let sealed ← encrypt aead existing.1 req.value
      pure (some (existing.1, sealed))
  else pure none

/- A row that was deleted and made again has another id than the one encrypted for. -/
def sealedFor (id : Id) (new : Option (Id × Sealed)) : Service (Option Sealed) :=
  match new with
  | none => pure none
  | some (encryptedId, sealed) => if id ≠ encryptedId then throw .aborted else pure (some sealed)

def updateSecretHandler (aead : Aead) (scope : Scope) (req : UpdateSecretRequest) :
    Service Secret := do
  let slug ← parseName req.name
  let annotations ← maskedColumn "secret.annotations" (req.inScope "annotations") req.annotations
  let new ← encryptNewValue aead scope slug req
  runInTxValidate req.validateOnly do
    let existing ← mapError handleResourceError (getSecretByParentForUpdate ⟨scope, slug⟩)
    checkEtag req.etag existing.2.etag
    let sealed ← sealedFor existing.1 new
    mapError handleResourceError (updateSecret existing.1
      { displayName := masked (req.inScope "display_name") req.displayName, sealed, annotations })

structure DeleteSecretRequest where
  name : Text
  etag : String
  validateOnly : Bool

def referencedBy (connectors : List Text) : String :=
  "secret is referenced by connector(s) " ++
    String.ofList ((connectors.intersperse ", ".toList).flatten) ++
    "; remove the reference before deleting"

def deleteSecretHandler (scope : Scope) (req : DeleteSecretRequest) : Service Unit := do
  let slug ← parseName req.name
  runInTxValidate req.validateOnly do
    let existing ← mapError handleResourceError (getSecretByParentForUpdate ⟨scope, slug⟩)
    checkEtag req.etag existing.2.etag
    let refs ← mapError (fun _ => .internal "check secret references")
      (query (.connectorsReferencingSecret existing.1))
    if (show List Text from refs) ≠ [] then throw (.failedPrecondition (referencedBy refs))
    else deleteSecret existing

/-! Connectors -/

/-- Each name is looked up in the scope of the connector, and its secret locked. -/
def resolveSecretRefs (scope : Scope) (connectorPrefix : Text) :
    List Text → List Id → Service (List Id)
  | [], ids => pure ids
  | name :: names, ids =>
    match parseSecretRef name connectorPrefix with
    | .error _ => throw (.invalidArgument "connector.config")
    | .ok slug => do
      let row ← mapError
        (fun
          | .noRows => .invalidArgument "connector.config"
          | _ => .internal "resolve secret reference")
        (getSecretByParentForUpdate ⟨scope, slug⟩)
      resolveSecretRefs scope connectorPrefix names
        (if row.1 ∈ ids then ids else ids ++ [row.1])

/-- The rows of connector_secret_refs are cleared and inserted again for the new config. -/
def trackSecretRefs (slugs : Slugs) (id : Id) (scope : Scope) (config : Config) :
    Service Unit := do
  let ids ← resolveSecretRefs scope (namePrefix slugs scope) (extractSecretRefs config) []
  mapError (fun _ => .internal "clear secret references") (deleteConnectorSecretRefs id)
  mapError (fun _ => .internal "track secret references") (insertConnectorSecretRefs id ids)

structure CreateConnectorRequest where
  connectorId : Text
  displayName : String
  description : String
  config : Except String Config
  agent : String
  annotations : Marshalled
  validateOnly : Bool

def createConnectorHandler (slugs : Slugs) (scope : Scope) (req : CreateConnectorRequest) :
    Service (Id × Connector) := do
  if req.connectorId = [] then throw (.invalidArgument "connector_id")
  else
    match ← ask .newId, req.config, req.annotations with
    | none, _, _ => throw (.internal "generate connector id")
    | _, .error _, _ => throw (.invalidArgument "connector.config")
    | _, _, .error _ => throw (.invalidArgument "connector.annotations")
    | some id, .ok config, .ok annotations =>
      let etag ← ask .etag
      runInTxValidate req.validateOnly do
        let row ← mapError createError (insertConnector id
          { scope, slug := req.connectorId, displayName := req.displayName,
            description := req.description, config, agent := req.agent, annotations, etag,
            xmax := 0 })
        trackSecretRefs slugs row.1 scope config
        pure row

structure UpdateConnectorRequest where
  name : Text
  updateMask : List String
  displayName : String
  description : String
  config : Except String Config
  agent : String
  annotations : Marshalled
  etag : String
  validateOnly : Bool

def UpdateConnectorRequest.inScope (req : UpdateConnectorRequest) (field : String) : Bool :=
  req.updateMask = [] || req.updateMask.contains field

/- A config that the mask leaves out keeps its references. -/
def trackUpdated (slugs : Slugs) (id : Id) (scope : Scope) : Option Config → Service Unit
  | some config => trackSecretRefs slugs id scope config
  | none => pure ()

def updateConnectorHandler (slugs : Slugs) (scope : Scope) (req : UpdateConnectorRequest) :
    Service Connector := do
  let slug ← parseName req.name
  let annotations ← maskedColumn "connector.annotations" (req.inScope "annotations") req.annotations
  let config ← maskedColumn "connector.config" (req.inScope "config") req.config
  runInTxValidate req.validateOnly do
    let existing ← mapError handleResourceError (getConnectorByParentForUpdate ⟨scope, slug⟩)
    checkEtag req.etag existing.2.etag
    let row ← mapError handleResourceError (updateConnector existing.1
      { displayName := masked (req.inScope "display_name") req.displayName
        description := masked (req.inScope "description") req.description
        config
        agent := masked (req.inScope "agent") req.agent
        annotations })
    trackUpdated slugs existing.1 scope config
    pure row

structure DeleteConnectorRequest where
  name : Text
  etag : String
  validateOnly : Bool

def deleteConnectorHandler (scope : Scope) (req : DeleteConnectorRequest) : Service Unit := do
  let slug ← parseName req.name
  runInTxValidate req.validateOnly do
    let existing ← mapError handleResourceError (getConnectorByParentForUpdate ⟨scope, slug⟩)
    checkEtag req.etag existing.2.etag
    deleteConnector existing.1

inductive Op where
  | createSecret (scope : Scope) (req : CreateSecretRequest)
  | updateSecret (scope : Scope) (req : UpdateSecretRequest)
  | deleteSecret (scope : Scope) (req : DeleteSecretRequest)
  | createConnector (scope : Scope) (req : CreateConnectorRequest)
  | updateConnector (scope : Scope) (req : UpdateConnectorRequest)
  | deleteConnector (scope : Scope) (req : DeleteConnectorRequest)

def code (aead : Aead) (slugs : Slugs) : Op → Prog store
  | .createSecret scope req => (createSecretHandler aead scope req).run
  | .updateSecret scope req => (updateSecretHandler aead scope req).run
  | .deleteSecret scope req => (deleteSecretHandler scope req).run
  | .createConnector scope req => (createConnectorHandler slugs scope req).run
  | .updateConnector scope req => (updateConnectorHandler slugs scope req).run
  | .deleteConnector scope req => (deleteConnectorHandler scope req).run

end Pivox.Connectors
