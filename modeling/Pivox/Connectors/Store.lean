import Mathlib.Algebra.Order.Monoid.WithTop
import Mathlib.Data.List.Sort
import Mathlib.Data.String.Basic
import Pivox.Connectors.SecretRefs
import Pivox.Service

/-!
The vault of secrets and the connectors that refer to them: the tables and the SQL statements that
the handlers of both services run on them.
-/

namespace Pivox.Connectors
open ReadCommitted

abbrev Bytes := List UInt8

structure Scope where
  orgId : Id
  spaceId : Option Id
  deriving DecidableEq, Repr

/- A ciphertext; `value`, which no statement reads, is what it was made from. -/
structure Sealed where
  ciphertext : Bytes
  value : Bytes
  deriving DecidableEq, Repr

/- `xmax` counts the transactions that locked or wrote the row. -/
structure Secret where
  scope : Scope
  slug : Text
  displayName : String
  sealed : Sealed
  annotations : Json
  etag : String
  xmax : Nat
  deriving DecidableEq, Repr

/- A deleted secret leaves a tombstone, which no query sees. -/
inductive SecretSlot where
  | live (s : Secret)
  | gone (s : Secret)
  deriving DecidableEq, Repr

/- The entry of the unique index on a scope and a slug. -/
structure SlugEntry where
  holder : Option Id
  xmax : Nat
  deriving DecidableEq, Repr

structure Connector where
  scope : Scope
  slug : Text
  displayName : String
  description : String
  config : Config
  agent : String
  annotations : Json
  etag : String
  xmax : Nat
  deriving DecidableEq, Repr

/- A row of connector_secret_refs, or the mark of one that was deleted. -/
structure Ref where
  tracked : Bool
  xmax : Nat
  deriving DecidableEq, Repr

inductive Key where
  | secret (id : Id)
  | secretSlug (scope : Scope) (slug : Text)
  | connector (id : Id)
  | ref (connectorId secretId : Id)
  deriving DecidableEq

abbrev Row : Key → Type
  | .secret _ => SecretSlot
  | .secretSlug _ _ => SlugEntry
  | .connector _ => Slot Connector
  | .ref _ _ => Ref

/- The same for a secret and for a connector. -/
structure ByParentParams where
  scope : Scope
  slug : Text

/- The nil arguments leave their column as it is. -/
structure UpdateSecretParams where
  displayName : Option String
  sealed : Option Sealed
  annotations : Option Json

def UpdateSecretParams.apply (p : UpdateSecretParams) (etag : String) (s : Secret) : Secret :=
  { s with
    displayName := p.displayName.getD s.displayName
    sealed := p.sealed.getD s.sealed
    annotations := p.annotations.getD s.annotations
    etag := etag }

structure UpdateConnectorParams where
  displayName : Option String
  description : Option String
  config : Option Config
  agent : Option String
  annotations : Option Json

def UpdateConnectorParams.apply (p : UpdateConnectorParams) (etag : String) (c : Connector) :
    Connector :=
  { c with
    displayName := p.displayName.getD c.displayName
    description := p.description.getD c.description
    config := p.config.getD c.config
    agent := p.agent.getD c.agent
    annotations := p.annotations.getD c.annotations
    etag := etag }

inductive SecretStmt where
  | createSecret (s : Secret)
  | getSecretByParentForUpdate (params : ByParentParams)
  | updateSecret (params : UpdateSecretParams) (etag : String)
  | deleteSecret

inductive SlugStmt where
  | take (id : Id)
  | release (id : Id)

inductive ConnectorStmt where
  | createConnector (c : Connector)
  | getConnectorByParentForUpdate (params : ByParentParams)
  | updateConnector (params : UpdateConnectorParams) (etag : String)
  | deleteConnector

inductive RefStmt where
  | insert
  | delete

abbrev Stmt : Key → Type
  | .secret _ => SecretStmt
  | .secretSlug _ _ => SlugStmt
  | .connector _ => ConnectorStmt
  | .ref _ _ => RefStmt

/- Whoever writes a row, or selects it FOR UPDATE, leaves its mark on it. -/
def Secret.touched (s : Secret) : Secret := { s with xmax := s.xmax + 1 }
def Connector.touched (c : Connector) : Connector := { c with xmax := c.xmax + 1 }

def execSecret : SecretStmt → Option SecretSlot → Option (Option SecretSlot)
  | .createSecret s, none => some (some (.live s))
  | .getSecretByParentForUpdate p, some (.live s) =>
    if s.scope = p.scope ∧ s.slug = p.slug then some (some (.live s.touched)) else none
  | .updateSecret p etag, some (.live s) => some (some (.live (p.apply etag s).touched))
  | .deleteSecret, some (.live s) => some (some (.gone s))
  | _, _ => none

/- A slug that is held is a unique violation. -/
def execSlug : SlugStmt → Option SlugEntry → Option (Option SlugEntry)
  | .take id, none => some (some ⟨some id, 0⟩)
  | .take id, some ⟨none, xmax⟩ => some (some ⟨some id, xmax + 1⟩)
  | .release id, some ⟨some holder, xmax⟩ =>
    if holder = id then some (some ⟨none, xmax + 1⟩) else none
  | _, _ => none

def execConnector : ConnectorStmt → Option (Slot Connector) → Option (Option (Slot Connector))
  | .createConnector c, none => some (some (.live c))
  | .getConnectorByParentForUpdate p, some (.live c) =>
    if c.scope = p.scope ∧ c.slug = p.slug then some (some (.live c.touched)) else none
  | .updateConnector p etag, some (.live c) => some (some (.live (p.apply etag c).touched))
  | .deleteConnector, some (.live _) => some (some .gone)
  | _, _ => none

/- ON CONFLICT DO NOTHING. -/
def execRef : RefStmt → Option Ref → Option (Option Ref)
  | .insert, none => some (some ⟨true, 0⟩)
  | .insert, some ⟨false, xmax⟩ => some (some ⟨true, xmax + 1⟩)
  | .delete, some ⟨true, xmax⟩ => some (some ⟨false, xmax + 1⟩)
  | _, _ => none

inductive Query where
  | getSecretByParent (params : ByParentParams)
  | getConnectorByParent (params : ByParentParams)
  | connectorsReferencingSecret (secretId : Id)
  | secretsOfConnector (connectorId : Id)
  | connectorsOfSecret (secretId : Id)

abbrev Result : Query → Type
  | .getSecretByParent _ => Option (Id × Secret)
  | .getConnectorByParent _ => Option (Id × Connector)
  | .connectorsReferencingSecret _ => List Text
  | .secretsOfConnector _ => List Id
  | .connectorsOfSecret _ => List Id

def secrets (db : AList Row) : List (Id × Secret) :=
  db.entries.filterMap fun
    | ⟨.secret id, .live s⟩ => some (id, s)
    | _ => none

def connectors (db : AList Row) : List (Id × Connector) :=
  db.entries.filterMap fun
    | ⟨.connector id, .live c⟩ => some (id, c)
    | _ => none

/- The rows of connector_secret_refs, as pairs of a connector and a secret. -/
def refs (db : AList Row) : List (Id × Id) :=
  db.entries.filterMap fun
    | ⟨.ref connectorId secretId, ⟨true, _⟩⟩ => some (connectorId, secretId)
    | _ => none

theorem mem_secrets {db : AList Row} {id : Id} {s : Secret} :
    (id, s) ∈ secrets db ↔ db.lookup (.secret id) = some (.live s) :=
  mem_collected fun e => by
    constructor
    · intro h
      split at h <;> cases h
      rfl
    · rintro ⟨⟩
      rfl

theorem mem_connectors {db : AList Row} {id : Id} {c : Connector} :
    (id, c) ∈ connectors db ↔ db.lookup (.connector id) = some (.live c) :=
  mem_collected fun e => by
    constructor
    · intro h
      split at h <;> cases h
      rfl
    · rintro ⟨⟩
      rfl

/- Whether the row is one of connector_secret_refs. -/
def isTracked : Option Ref → Bool
  | some r => r.tracked
  | none => false

theorem mem_refs {db : AList Row} {connectorId secretId : Id} :
    (connectorId, secretId) ∈ refs db ↔
      isTracked (db.lookup (.ref connectorId secretId)) = true := by
  have hrow : isTracked (db.lookup (.ref connectorId secretId)) = true ↔
      ∃ xmax, db.lookup (.ref connectorId secretId) = some ⟨true, xmax⟩ := by
    cases db.lookup (.ref connectorId secretId) with
    | none => simp [isTracked]
    | some r =>
      obtain ⟨tracked, xmax⟩ := r
      simp [isTracked]
  simp only [hrow, ← Option.mem_def, AList.mem_lookup_iff, refs, List.mem_filterMap]
  constructor
  · rintro ⟨⟨k, row⟩, hmem, heq⟩
    split at heq
    · rename_i xmax heq'
      cases heq
      exact ⟨xmax, by rwa [heq'] at hmem⟩
    · cases heq
  · rintro ⟨xmax, h⟩
    exact ⟨_, h, rfl⟩

def answer : (q : Query) → AList Row → Result q
  | .getSecretByParent p, db =>
    (secrets db).find? fun s => s.2.scope = p.scope && s.2.slug = p.slug
  | .getConnectorByParent p, db =>
    (connectors db).find? fun c => c.2.scope = p.scope && c.2.slug = p.slug
  | .connectorsReferencingSecret secretId, db =>
    (((connectors db).filter fun c => (refs db).contains (c.1, secretId)).map
      (·.2.slug)).insertionSort (· ≤ ·)
  | .secretsOfConnector connectorId, db =>
    ((refs db).filter fun r => r.1 = connectorId).map (·.2)
  | .connectorsOfSecret secretId, db => ((refs db).filter fun r => r.2 = secretId).map (·.1)

/-- Outside of the tables: fresh ids, the md5 of the clock, and the envelope encryption, which
answers with the randomness that it used. -/
inductive Ask where
  | newId
  | etag
  | encrypt (value associatedData : Bytes)
  deriving DecidableEq

abbrev Answer : Ask → Type
  | .newId => Option Id
  | .etag => String
  | .encrypt _ _ => Option Nat

abbrev store : Schema where
  Key := Key
  Row := Row
  Stmt := Stmt
  exec
    | .secret _ => execSecret
    | .secretSlug _ _ => execSlug
    | .connector _ => execConnector
    | .ref _ _ => execRef
  Query := Query
  Result := Result
  answer := answer
  Ask := Ask
  Answer := Answer

abbrev Service := Script store Err

abbrev query (q : Query) : Service (Result q) := @Script.read store Err .database q
abbrev ask (q : Ask) : Service (Answer q) := @Script.ask store Err q
abbrev writeRow (missing : Err) (k : Key) (stmt : Stmt k) : Service (Option (Row k)) :=
  @Script.write store Err .database missing k stmt
abbrev execRow (k : Key) (stmt : Stmt k) : Service Unit := @Script.exec store Err .database k stmt
abbrev runInTxValidate {α : Type} (validateOnly : Bool) (body : Service α) : Service α :=
  @Script.transaction store Err α .database validateOnly body

def liveSecret : Option SecretSlot → Service Secret
  | some (.live s) => pure s
  | _ => throw .noRows

/- The INSERT takes its entry of the unique index along. -/
def insertSecret (id : Id) (s : Secret) : Service (Id × Secret) := do
  let _ ← writeRow .alreadyExists (.secretSlug s.scope s.slug) (.take id)
  let row ← liveSecret (← writeRow .database (.secret id) (.createSecret s))
  pure (id, row)

def getSecretByParent (p : ByParentParams) : Service (Id × Secret) := do
  found (← query (.getSecretByParent p))

/- SELECT … FOR UPDATE: the row is found, then locked if it still meets the WHERE clause. -/
def getSecretByParentForUpdate (p : ByParentParams) : Service (Id × Secret) := do
  let s ← found (← query (.getSecretByParent p))
  let row ← liveSecret (← writeRow .noRows (.secret s.1) (.getSecretByParentForUpdate p))
  pure (s.1, row)

def updateSecret (id : Id) (p : UpdateSecretParams) : Service Secret := do
  let etag ← ask .etag
  liveSecret (← writeRow .noRows (.secret id) (.updateSecret p etag))

/- With the row goes its entry of the unique index, and what refers to it (ON DELETE CASCADE). -/
def deleteSecret (s : Id × Secret) : Service Unit := do
  execRow (.secret s.1) .deleteSecret
  execRow (.secretSlug s.2.scope s.2.slug) (.release s.1)
  let cs ← query (.connectorsOfSecret s.1)
  Script.forEach (fun c => execRow (.ref c s.1) .delete) cs

def insertConnector (id : Id) (c : Connector) : Service (Id × Connector) := do
  let row ← returned (← writeRow .database (.connector id) (.createConnector c))
  pure (id, row)

def getConnectorByParentForUpdate (p : ByParentParams) : Service (Id × Connector) := do
  let c ← found (← query (.getConnectorByParent p))
  let row ← returned (← writeRow .noRows (.connector c.1) (.getConnectorByParentForUpdate p))
  pure (c.1, row)

def updateConnector (id : Id) (p : UpdateConnectorParams) : Service Connector := do
  let etag ← ask .etag
  returned (← writeRow .noRows (.connector id) (.updateConnector p etag))

def deleteConnectorSecretRefs (id : Id) : Service Unit := do
  let ss ← query (.secretsOfConnector id)
  Script.forEach (fun s => execRow (.ref id s) .delete) ss

def insertConnectorSecretRefs (id : Id) (secretIds : List Id) : Service Unit :=
  Script.forEach (fun s => execRow (.ref id s) .insert) secretIds

/- ON DELETE CASCADE. -/
def deleteConnector (id : Id) : Service Unit := do
  execRow (.connector id) .deleteConnector
  deleteConnectorSecretRefs id

end Pivox.Connectors
