import Pivox.Path.Match
import Pivox.Service

/-!
UpdateEndpoint: the paths of the update mask are folded into the columns of one UPDATE, where a
column that is not set keeps its value.
-/

namespace Pivox.Gateways.Endpoints
open Path hiding Token

/-! The request -/

structure AccessKey where
  accessKeyId : String
  secretAccessKey : String
  deriving DecidableEq

structure S3Config where
  endpointUri : String
  bucket : String
  region : String
  accessKey : Option AccessKey
  deriving DecidableEq

structure FileSystemConfig where
  path : String
  deriving DecidableEq

/- The oneof of the message; within it a message may still be nil. -/
inductive Configuration where
  | s3 (config : Option S3Config)
  | filesystem (config : Option FileSystemConfig)
  deriving DecidableEq

inductive EvictionPolicy where
  | unspecified
  | lru
  | lfu
  | unrecognized (number : Int)
  deriving DecidableEq

structure CacheConfig where
  enabled : Bool
  maxSizeGb : Int
  evictionPolicy : EvictionPolicy
  ttlHours : Int
  deriving DecidableEq

/- In the order of the keys, in which json.Marshal writes a map. -/
abbrev Annotations := List (String × String)

/- A nil map is `none`. -/
structure Endpoint where
  name : Text
  displayName : String
  configuration : Option Configuration
  cacheConfig : Option CacheConfig
  annotations : Option Annotations

/- The paths that UpdateEndpoint recognises; any other is passed over. -/
inductive MaskPath where
  | displayName
  | s3Credentials
  | s3
  | filesystem
  | configuration
  | cacheConfig
  | cacheConfigEnabled
  | cacheConfigMaxSizeGb
  | cacheConfigEvictionPolicy
  | cacheConfigTtlHours
  | annotations
  | unrecognized (path : String)
  deriving DecidableEq

def MaskPath.ofString (path : String) : MaskPath :=
  if path = "display_name" then .displayName
  else if path = "s3.credentials" then .s3Credentials
  else if path = "s3" then .s3
  else if path = "filesystem" then .filesystem
  else if path = "configuration" then .configuration
  else if path = "cache_config" then .cacheConfig
  else if path = "cache_config.enabled" then .cacheConfigEnabled
  else if path = "cache_config.max_size_gb" then .cacheConfigMaxSizeGb
  else if path = "cache_config.eviction_policy" then .cacheConfigEvictionPolicy
  else if path = "cache_config.ttl_hours" then .cacheConfigTtlHours
  else if path = "annotations" then .annotations
  else .unrecognized path

structure UpdateEndpointRequest where
  endpoint : Endpoint
  updateMask : Option (List String)
  validateOnly : Bool

inductive EndpointErr where
  | invalidArgument (field : String) (text : Text)
  | resource (resourceType : String) (name : Text) (cause : Err)
  deriving DecidableEq

/-! The row -/

/- The JSONB of the column: an object with a key for each field, and its type. -/
inductive ConfigurationJson where
  | s3 (config : S3Config)
  | filesystem (config : FileSystemConfig)
  deriving DecidableEq

inductive DbEvictionPolicy where
  | lru
  | lfu
  deriving DecidableEq

/- What every update sets anew. -/
structure Stamp where
  updatedBy : Id
  updateTime : Time
  etag : String
  deriving DecidableEq

/- The JSON null of `annotations` is `none`. -/
structure StorageEndpoint where
  gatewayId : Id
  name : Text
  displayName : String
  configuration : ConfigurationJson
  cacheEnabled : Bool
  cacheMaxSizeGb : Int
  cacheEviction : DbEvictionPolicy
  cacheTtlHours : Int
  annotations : Option Annotations
  revision : Nat
  stamp : Stamp
  deriving DecidableEq

/- A column that is `none` is NULL to COALESCE. -/
structure UpdateStorageEndpointParams where
  displayName : Option String
  configuration : Option ConfigurationJson
  cacheEnabled : Option Bool
  cacheMaxSizeGb : Option Int
  cacheEviction : Option DbEvictionPolicy
  cacheTtlHours : Option Int
  annotations : Option (Option Annotations)

def noParams : UpdateStorageEndpointParams := ⟨none, none, none, none, none, none, none⟩

def updateStorageEndpoint (params : UpdateStorageEndpointParams) (stamp : Stamp)
    (row : StorageEndpoint) : StorageEndpoint :=
  { row with
    displayName := params.displayName.getD row.displayName
    configuration := params.configuration.getD row.configuration
    cacheEnabled := params.cacheEnabled.getD row.cacheEnabled
    cacheMaxSizeGb := params.cacheMaxSizeGb.getD row.cacheMaxSizeGb
    cacheEviction := params.cacheEviction.getD row.cacheEviction
    cacheTtlHours := params.cacheTtlHours.getD row.cacheTtlHours
    annotations := params.annotations.getD row.annotations
    revision := row.revision + 1
    stamp := stamp }

/-! The handler -/

def configToJSON (endpoint : Endpoint) : Except String ConfigurationJson :=
  match endpoint.configuration with
  | some (.s3 none) => .error "S3 configuration is required"
  | some (.s3 (some config)) => .ok (.s3 config)
  | some (.filesystem none) => .error "filesystem configuration is required"
  | some (.filesystem (some config)) => .ok (.filesystem config)
  | none => .error "configuration is required"

def EvictionPolicy.toDb : EvictionPolicy → DbEvictionPolicy
  | .lfu => .lfu
  | _ => .lru

def UpdateStorageEndpointParams.setConfiguration (params : UpdateStorageEndpointParams)
    (endpoint : Endpoint) : Except EndpointErr UpdateStorageEndpointParams :=
  match configToJSON endpoint with
  | .error text => .error (.invalidArgument "configuration" text.toList)
  | .ok config => .ok { params with configuration := some config }

def UpdateStorageEndpointParams.setCache (params : UpdateStorageEndpointParams)
    (endpoint : Endpoint) : UpdateStorageEndpointParams :=
  match endpoint.cacheConfig with
  | none => params
  | some cc =>
    { params with
      cacheEnabled := some cc.enabled
      cacheMaxSizeGb := some cc.maxSizeGb
      cacheTtlHours := some cc.ttlHours
      cacheEviction := some cc.evictionPolicy.toDb }

/- One path of the mask. -/
def UpdateStorageEndpointParams.setPath (endpoint : Endpoint) (params : UpdateStorageEndpointParams) :
    MaskPath → Except EndpointErr UpdateStorageEndpointParams
  | .displayName => .ok { params with displayName := some endpoint.displayName }
  | .s3Credentials | .s3 | .filesystem | .configuration => params.setConfiguration endpoint
  | .cacheConfig | .cacheConfigEnabled | .cacheConfigMaxSizeGb | .cacheConfigEvictionPolicy
  | .cacheConfigTtlHours => .ok (params.setCache endpoint)
  | .annotations => .ok { params with annotations := some endpoint.annotations }
  | .unrecognized _ => .ok params

def maskedParams (endpoint : Endpoint) (paths : List MaskPath) :
    Except EndpointErr UpdateStorageEndpointParams :=
  paths.foldlM (UpdateStorageEndpointParams.setPath endpoint) noParams

/- Without a mask: a configuration that cannot be marshalled leaves a nil column. -/
def unmaskedParams (endpoint : Endpoint) : UpdateStorageEndpointParams :=
  { noParams.setCache endpoint with
    displayName := some endpoint.displayName
    configuration := (configToJSON endpoint).toOption
    annotations := endpoint.annotations.map some }

/- organizations/{org}/storageGateways/{gw}/endpoints/{endpoint} -/
def parseEndpointName (name : Text) : Except Text (Text × Text × Text) :=
  match name.splitOn '/' with
  | [organizations, org, storageGateways, gw, endpoints, endpoint] =>
    if organizations = "organizations".toList ∧ storageGateways = "storageGateways".toList ∧
        endpoints = "endpoints".toList then
      .ok (org, gw, endpoint)
    else .error ("invalid endpoint name ".toList ++ name)
  | _ => .error ("invalid endpoint name ".toList ++ name)

/- What the reads of one call answer: no update changes a name or the gateway of a row. -/
structure EndpointQueries where
  getOrganizationByName : Text → Except Err Id
  getStorageGatewayByName : Id → Text → Except Err Id
  getStorageEndpointByName : Id → Text → Except Err Id

def resolveEndpoint (q : EndpointQueries) (name : Text) : Except EndpointErr Id := do
  let (orgName, gwName, endpointName) ←
    (parseEndpointName name).mapError (EndpointErr.invalidArgument "endpoint.name")
  let org ← (q.getOrganizationByName orgName).mapError (EndpointErr.resource "Organization" orgName)
  let gw ← (q.getStorageGatewayByName org gwName).mapError
    (EndpointErr.resource "StorageGateway"
      ("organizations/".toList ++ orgName ++ "/storageGateways/".toList ++ gwName))
  (q.getStorageEndpointByName gw endpointName).mapError (EndpointErr.resource "Endpoint" name)

def updateParams (req : UpdateEndpointRequest) : Except EndpointErr UpdateStorageEndpointParams :=
  match req.updateMask with
  | some paths => maskedParams req.endpoint (paths.map MaskPath.ofString)
  | none => .ok (unmaskedParams req.endpoint)

abbrev EndpointRows := AList fun _ : Id => StorageEndpoint

/- `commits` is whether the database carries out the transaction. -/
def updateEndpoint (q : EndpointQueries) (commits : Bool) (stamp : Stamp) (rows : EndpointRows)
    (req : UpdateEndpointRequest) : Except EndpointErr StorageEndpoint × EndpointRows :=
  match resolveEndpoint q req.endpoint.name with
  | .error e => (.error e, rows)
  | .ok id =>
    match updateParams req with
    | .error e => (.error e, rows)
    | .ok params =>
      match rows.lookup id, commits with
      | none, _ => (.error (.resource "Endpoint" req.endpoint.name .noRows), rows)
      | some _, false => (.error (.resource "Endpoint" req.endpoint.name .database), rows)
      | some row, true =>
        let row := updateStorageEndpoint params stamp row
        (.ok row, if req.validateOnly then rows else rows.insert id row)

/-! The fields that a mask names -/

/- What of an endpoint an update can change; a cache policy is LRU unless it is LFU. -/
structure Resource where
  displayName : String
  configuration : Option ConfigurationJson
  cacheEnabled : Bool
  cacheMaxSizeGb : Int
  cacheEviction : DbEvictionPolicy
  cacheTtlHours : Int
  annotations : Annotations
  deriving DecidableEq

def StorageEndpoint.resource (row : StorageEndpoint) : Resource where
  displayName := row.displayName
  configuration := some row.configuration
  cacheEnabled := row.cacheEnabled
  cacheMaxSizeGb := row.cacheMaxSizeGb
  cacheEviction := row.cacheEviction
  cacheTtlHours := row.cacheTtlHours
  annotations := row.annotations.getD []

/- A message that is not set has the default of each of its fields. -/
def CacheConfig.ofUnset : CacheConfig := ⟨false, 0, .unspecified, 0⟩

def Endpoint.resource (endpoint : Endpoint) : Resource where
  displayName := endpoint.displayName
  configuration := (configToJSON endpoint).toOption
  cacheEnabled := (endpoint.cacheConfig.getD .ofUnset).enabled
  cacheMaxSizeGb := (endpoint.cacheConfig.getD .ofUnset).maxSizeGb
  cacheEviction := (endpoint.cacheConfig.getD .ofUnset).evictionPolicy.toDb
  cacheTtlHours := (endpoint.cacheConfig.getD .ofUnset).ttlHours
  annotations := endpoint.annotations.getD []

def Resource.s3 (r : Resource) : Option S3Config :=
  match r.configuration with
  | some (.s3 config) => some config
  | _ => none

def Resource.filesystem (r : Resource) : Option FileSystemConfig :=
  match r.configuration with
  | some (.filesystem config) => some config
  | _ => none

inductive Field where
  | displayName
  | s3EndpointUri
  | s3Bucket
  | s3Region
  | s3Credentials
  | filesystemPath
  | cacheEnabled
  | cacheMaxSizeGb
  | cacheEvictionPolicy
  | cacheTtlHours
  | annotations
  deriving DecidableEq

/-- The field has the same value in both, which may be that it is not set. -/
def Field.Same (a b : Resource) : Field → Prop
  | .displayName => a.displayName = b.displayName
  | .s3EndpointUri => a.s3.map (·.endpointUri) = b.s3.map (·.endpointUri)
  | .s3Bucket => a.s3.map (·.bucket) = b.s3.map (·.bucket)
  | .s3Region => a.s3.map (·.region) = b.s3.map (·.region)
  | .s3Credentials => a.s3.bind (·.accessKey) = b.s3.bind (·.accessKey)
  | .filesystemPath => a.filesystem.map (·.path) = b.filesystem.map (·.path)
  | .cacheEnabled => a.cacheEnabled = b.cacheEnabled
  | .cacheMaxSizeGb => a.cacheMaxSizeGb = b.cacheMaxSizeGb
  | .cacheEvictionPolicy => a.cacheEviction = b.cacheEviction
  | .cacheTtlHours => a.cacheTtlHours = b.cacheTtlHours
  | .annotations => a.annotations = b.annotations

def s3Fields : List Field := [.s3EndpointUri, .s3Bucket, .s3Region, .s3Credentials]

def configurationFields : List Field := s3Fields ++ [Field.filesystemPath]

def cacheFields : List Field :=
  [.cacheEnabled, .cacheMaxSizeGb, .cacheEvictionPolicy, .cacheTtlHours]

/- A nested path names one field, the path of a message all of its fields. -/
def MaskPath.fields : MaskPath → List Field
  | .displayName => [.displayName]
  | .s3Credentials => [.s3Credentials]
  | .s3 => s3Fields
  | .filesystem => [.filesystemPath]
  | .configuration => configurationFields
  | .cacheConfig => cacheFields
  | .cacheConfigEnabled => [.cacheEnabled]
  | .cacheConfigMaxSizeGb => [.cacheMaxSizeGb]
  | .cacheConfigEvictionPolicy => [.cacheEvictionPolicy]
  | .cacheConfigTtlHours => [.cacheTtlHours]
  | .annotations => [.annotations]
  | .unrecognized _ => []

def Named (paths : List MaskPath) (f : Field) : Prop := ∃ path ∈ paths, f ∈ path.fields

/-- The field is of the member of the oneof that gave way to the other one, named and set. -/
def GaveWay (paths : List MaskPath) (r : Resource) (f : Field) : Prop :=
  (f ∈ s3Fields ∧ Named paths .filesystemPath ∧ r.filesystem.isSome) ∨
    (f = .filesystemPath ∧ Named paths .s3EndpointUri ∧ r.s3.isSome)

/-- A mask frames an update: the fields that it names take the values of the request, and no other
field changes. -/
structure Framed (paths : List MaskPath) (stored request updated : Resource) : Prop where
  named : ∀ f, Named paths f → f.Same updated request
  unnamed : ∀ f, ¬ Named paths f → f.Same updated stored ∨ GaveWay paths updated f

/- A path of the mask names a field of the message. -/
def Touches (paths : List MaskPath) (fields : List Field) : Prop := ∃ g ∈ fields, Named paths g

instance (paths : List MaskPath) (f : Field) : Decidable (Named paths f) :=
  inferInstanceAs (Decidable (∃ path ∈ paths, f ∈ path.fields))

instance (paths : List MaskPath) (fields : List Field) : Decidable (Touches paths fields) :=
  inferInstanceAs (Decidable (∃ g ∈ fields, Named paths g))

/-- The request agrees with the stored endpoint in what the mask leaves out of a message that it
names in part, and in the named fields of a cache that the request leaves unset. -/
structure Agrees (paths : List MaskPath) (stored : Resource) (endpoint : Endpoint) : Prop where
  configuration : Touches paths configurationFields → ∀ f ∈ configurationFields, ¬ Named paths f →
    f.Same endpoint.resource stored ∨ GaveWay paths endpoint.resource f
  cache : endpoint.cacheConfig.isSome → Touches paths cacheFields →
    ∀ f ∈ cacheFields, ¬ Named paths f → f.Same endpoint.resource stored
  unsetCache : endpoint.cacheConfig = none →
    ∀ f ∈ cacheFields, Named paths f → f.Same endpoint.resource stored

/-! What the fold of a mask writes -/

/- Each column is the request's or the stored one; a message is written as a whole. -/
structure Written (paths : List MaskPath) (stored : Resource) (endpoint : Endpoint)
    (updated : Resource) : Prop where
  displayName : updated.displayName =
    if Named paths .displayName then endpoint.resource.displayName else stored.displayName
  configuration : updated.configuration =
    if Touches paths configurationFields then endpoint.resource.configuration
    else stored.configuration
  cacheEnabled : updated.cacheEnabled =
    if Touches paths cacheFields ∧ endpoint.cacheConfig.isSome then endpoint.resource.cacheEnabled
    else stored.cacheEnabled
  cacheMaxSizeGb : updated.cacheMaxSizeGb =
    if Touches paths cacheFields ∧ endpoint.cacheConfig.isSome then endpoint.resource.cacheMaxSizeGb
    else stored.cacheMaxSizeGb
  cacheEviction : updated.cacheEviction =
    if Touches paths cacheFields ∧ endpoint.cacheConfig.isSome then endpoint.resource.cacheEviction
    else stored.cacheEviction
  cacheTtlHours : updated.cacheTtlHours =
    if Touches paths cacheFields ∧ endpoint.cacheConfig.isSome then endpoint.resource.cacheTtlHours
    else stored.cacheTtlHours
  annotations : updated.annotations =
    if Named paths .annotations then endpoint.resource.annotations else stored.annotations

theorem named_append {more paths : List MaskPath} {f : Field} :
    Named (paths ++ more) f ↔ Named paths f ∨ Named more f := by
  simp only [Named, List.mem_append, or_and_right, exists_or]

theorem touches_append {more paths : List MaskPath} {fields : List Field} :
    Touches (paths ++ more) fields ↔ Touches paths fields ∨ Touches more fields := by
  simp only [Touches, named_append, and_or_left, exists_or]

/-- One update after the other writes what the update with both masks writes. -/
theorem Written.trans {paths more : List MaskPath} {stored middle updated : Resource}
    {endpoint : Endpoint} (h : Written paths stored endpoint middle)
    (h' : Written more middle endpoint updated) : Written (paths ++ more) stored endpoint updated := by
  obtain ⟨h1, h2, h3, h4, h5, h6, h7⟩ := h
  obtain ⟨h1', h2', h3', h4', h5', h6', h7'⟩ := h'
  constructor <;> simp only [named_append, touches_append] <;> grind -linarith

theorem Written.unique {paths : List MaskPath} {stored updated updated' : Resource}
    {endpoint : Endpoint} (h : Written paths stored endpoint updated)
    (h' : Written paths stored endpoint updated') : updated = updated' := by
  obtain ⟨h1, h2, h3, h4, h5, h6, h7⟩ := h
  obtain ⟨h1', h2', h3', h4', h5', h6', h7'⟩ := h'
  cases updated
  cases updated'
  simp_all

theorem Written.refl (stored : Resource) (endpoint : Endpoint) :
    Written [] stored endpoint stored := by
  constructor <;> simp [Touches, Named]

theorem configToJSON_of_setConfiguration {endpoint : Endpoint}
    {params params' : UpdateStorageEndpointParams}
    (h : params.setConfiguration endpoint = .ok params') :
    ∃ config, configToJSON endpoint = .ok config ∧
      params' = { params with configuration := some config } := by
  cases hc : configToJSON endpoint with
  | error text => simp [UpdateStorageEndpointParams.setConfiguration, hc] at h
  | ok config =>
    simp only [UpdateStorageEndpointParams.setConfiguration, hc, Except.ok.injEq] at h
    exact ⟨config, rfl, h.symm⟩

section setPath
variable {endpoint : Endpoint} {params params' : UpdateStorageEndpointParams} {path : MaskPath}
  {paths : List MaskPath} {stamp : Stamp} {row : StorageEndpoint}

theorem written_configuration (h : params.setConfiguration endpoint = .ok params')
    (htouches : Touches [path] configurationFields) (hcache : ¬ Touches [path] cacheFields)
    (hdisplayName : ¬ Named [path] .displayName) (hannotations : ¬ Named [path] .annotations) :
    Written [path] (updateStorageEndpoint params stamp row).resource endpoint
      (updateStorageEndpoint params' stamp row).resource := by
  obtain ⟨config, hconfig, rfl⟩ := configToJSON_of_setConfiguration h
  have hrequest : endpoint.resource.configuration = some config := by
    simp [Endpoint.resource, hconfig, Except.toOption]
  constructor <;>
    simp [StorageEndpoint.resource, updateStorageEndpoint, htouches, hcache, hdisplayName,
      hannotations, hrequest]

theorem written_cache (hcache : Touches [path] cacheFields)
    (hconfiguration : ¬ Touches [path] configurationFields)
    (hdisplayName : ¬ Named [path] .displayName) (hannotations : ¬ Named [path] .annotations) :
    Written [path] (updateStorageEndpoint params stamp row).resource endpoint
      (updateStorageEndpoint (params.setCache endpoint) stamp row).resource := by
  cases hcc : endpoint.cacheConfig with
  | none =>
    constructor <;>
      simp [UpdateStorageEndpointParams.setCache, hcc, hconfiguration, hdisplayName, hannotations]
  | some cc =>
    constructor <;>
      simp [UpdateStorageEndpointParams.setCache, StorageEndpoint.resource, updateStorageEndpoint,
        Endpoint.resource, hcc, hcache, hconfiguration, hdisplayName, hannotations]

theorem written_setPath (h : params.setPath endpoint path = .ok params') :
    Written [path] (updateStorageEndpoint params stamp row).resource endpoint
      (updateStorageEndpoint params' stamp row).resource := by
  cases path with
  | displayName =>
    cases h
    have hnamed : Named [.displayName] .displayName := by decide
    have hannotations : ¬ Named [.displayName] .annotations := by decide
    have hconfiguration : ¬ Touches [.displayName] configurationFields := by decide
    have hcache : ¬ Touches [.displayName] cacheFields := by decide
    constructor <;>
      simp [StorageEndpoint.resource, updateStorageEndpoint, Endpoint.resource, hnamed,
        hannotations, hconfiguration, hcache]
  | annotations =>
    cases h
    have hnamed : Named [.annotations] .annotations := by decide
    have hdisplayName : ¬ Named [.annotations] .displayName := by decide
    have hconfiguration : ¬ Touches [.annotations] configurationFields := by decide
    have hcache : ¬ Touches [.annotations] cacheFields := by decide
    constructor <;>
      simp [StorageEndpoint.resource, updateStorageEndpoint, Endpoint.resource, hnamed,
        hdisplayName, hconfiguration, hcache]
  | unrecognized text =>
    cases h
    constructor <;> simp [Touches, Named, MaskPath.fields]
  | s3Credentials | s3 | filesystem | configuration =>
    exact written_configuration h (by decide) (by decide) (by decide) (by decide)
  | cacheConfig | cacheConfigEnabled | cacheConfigMaxSizeGb | cacheConfigEvictionPolicy
  | cacheConfigTtlHours =>
    cases h
    exact written_cache (by decide) (by decide) (by decide) (by decide)

theorem written_foldlM
    (h : paths.foldlM (UpdateStorageEndpointParams.setPath endpoint) params = .ok params') :
    Written paths (updateStorageEndpoint params stamp row).resource endpoint
      (updateStorageEndpoint params' stamp row).resource := by
  induction paths generalizing params with
  | nil =>
    cases h
    exact .refl _ _
  | cons path paths ih =>
    rw [List.foldlM_cons, bind_eq_ok] at h
    obtain ⟨middle, hpath, hpaths⟩ := h
    exact (written_setPath hpath).trans (ih hpaths)

end setPath

theorem written_maskedParams {endpoint : Endpoint} {paths : List MaskPath}
    {params : UpdateStorageEndpointParams} (h : maskedParams endpoint paths = .ok params)
    (stamp : Stamp) (row : StorageEndpoint) :
    Written paths row.resource endpoint (updateStorageEndpoint params stamp row).resource :=
  written_foldlM h

/-! A written update is framed if the request agrees where it writes more -/

theorem Field.same_refl (f : Field) (a : Resource) : f.Same a a := by
  cases f <;> rfl

theorem Field.same_symm {f : Field} {a b : Resource} (h : f.Same a b) : f.Same b a := by
  cases f <;> exact Eq.symm h

theorem same_of_configuration {f : Field} (hf : f ∈ configurationFields) {a a' : Resource}
    (h : a.configuration = a'.configuration) (b : Resource) : f.Same a b ↔ f.Same a' b := by
  have hs3 : a.s3 = a'.s3 := by simp only [Resource.s3, h]
  have hfilesystem : a.filesystem = a'.filesystem := by simp only [Resource.filesystem, h]
  cases f <;> simp_all [Field.Same, configurationFields, s3Fields]

theorem gaveWay_of_configuration {paths : List MaskPath} {f : Field} {a a' : Resource}
    (h : a.configuration = a'.configuration) : GaveWay paths a f ↔ GaveWay paths a' f := by
  simp only [GaveWay, Resource.s3, Resource.filesystem, h]

theorem not_gaveWay_of_cache {paths : List MaskPath} {f : Field} (hf : f ∈ cacheFields)
    (r : Resource) : ¬ GaveWay paths r f := by
  have hs3 : f ∉ s3Fields := by
    revert f
    decide
  have hfilesystem : f ≠ .filesystemPath := by
    rintro rfl
    revert hf
    decide
  simp [GaveWay, hs3, hfilesystem]

theorem touches_of_named {paths : List MaskPath} {fields : List Field} {f : Field}
    (hf : f ∈ fields) (h : Named paths f) : Touches paths fields := ⟨f, hf, h⟩

section framed
variable {paths : List MaskPath} {stored updated : Resource} {endpoint : Endpoint} {f : Field}

theorem Written.same_cache (h : Written paths stored endpoint updated) (hf : f ∈ cacheFields)
    (hcache : Touches paths cacheFields ∧ endpoint.cacheConfig.isSome) (b : Resource) :
    f.Same updated b ↔ f.Same endpoint.resource b := by
  have henabled := h.cacheEnabled
  have hmaxSizeGb := h.cacheMaxSizeGb
  have heviction := h.cacheEviction
  have httlHours := h.cacheTtlHours
  rw [if_pos hcache] at henabled hmaxSizeGb heviction httlHours
  cases f <;> simp_all [Field.Same, cacheFields]

theorem Written.same_stored_cache (h : Written paths stored endpoint updated)
    (hf : f ∈ cacheFields) (hcache : ¬ (Touches paths cacheFields ∧ endpoint.cacheConfig.isSome))
    (b : Resource) : f.Same updated b ↔ f.Same stored b := by
  have henabled := h.cacheEnabled
  have hmaxSizeGb := h.cacheMaxSizeGb
  have heviction := h.cacheEviction
  have httlHours := h.cacheTtlHours
  rw [if_neg hcache] at henabled hmaxSizeGb heviction httlHours
  cases f <;> simp_all only [Field.Same]
  all_goals simp [cacheFields] at hf

theorem Field.group (f : Field) : f = .displayName ∨ f = .annotations ∨ f ∈ configurationFields ∨
    f ∈ cacheFields := by
  cases f <;> decide

theorem Written.agrees (h : Written paths stored endpoint updated)
    (hframed : Framed paths stored endpoint.resource updated) : Agrees paths stored endpoint := by
  constructor
  · intro htouches f hf hnamed
    have hconfiguration := h.configuration
    rw [if_pos htouches] at hconfiguration
    rw [← same_of_configuration hf hconfiguration, ← gaveWay_of_configuration hconfiguration]
    exact hframed.unnamed f hnamed
  · intro hset htouches f hf hnamed
    have hsame := (hframed.unnamed f hnamed).resolve_right (not_gaveWay_of_cache hf updated)
    exact (h.same_cache hf ⟨htouches, hset⟩ stored).mp hsame
  · intro hunset f hf hnamed
    have hkept : ¬ (Touches paths cacheFields ∧ endpoint.cacheConfig.isSome) := by simp [hunset]
    exact Field.same_symm ((h.same_stored_cache hf hkept _).mp (hframed.named f hnamed))

theorem Written.named (h : Written paths stored endpoint updated) (hagrees : Agrees paths stored endpoint)
    (hnamed : Named paths f) : f.Same updated endpoint.resource := by
  obtain rfl | rfl | hf | hf := f.group
  · exact h.displayName.trans (if_pos hnamed)
  · exact h.annotations.trans (if_pos hnamed)
  · have hconfiguration := h.configuration
    rw [if_pos (touches_of_named hf hnamed)] at hconfiguration
    exact (same_of_configuration hf hconfiguration _).mpr (Field.same_refl _ _)
  · have htouches := touches_of_named hf hnamed
    cases hcc : endpoint.cacheConfig with
    | none =>
      have hkept : ¬ (Touches paths cacheFields ∧ endpoint.cacheConfig.isSome) := by simp [hcc]
      exact (h.same_stored_cache hf hkept _).mpr (Field.same_symm (hagrees.unsetCache hcc f hf hnamed))
    | some cc => exact (h.same_cache hf ⟨htouches, by simp [hcc]⟩ _).mpr (Field.same_refl _ _)

theorem Written.unnamed (h : Written paths stored endpoint updated)
    (hagrees : Agrees paths stored endpoint) (hnamed : ¬ Named paths f) :
    f.Same updated stored ∨ GaveWay paths updated f := by
  obtain rfl | rfl | hf | hf := f.group
  · exact .inl (h.displayName.trans (if_neg hnamed))
  · exact .inl (h.annotations.trans (if_neg hnamed))
  · have hconfiguration := h.configuration
    by_cases htouches : Touches paths configurationFields
    · rw [if_pos htouches] at hconfiguration
      rw [same_of_configuration hf hconfiguration, gaveWay_of_configuration hconfiguration]
      exact hagrees.configuration htouches f hf hnamed
    · rw [if_neg htouches] at hconfiguration
      exact .inl ((same_of_configuration hf hconfiguration _).mpr (Field.same_refl _ _))
  · left
    by_cases hcache : Touches paths cacheFields ∧ endpoint.cacheConfig.isSome
    · exact (h.same_cache hf hcache _).mpr (hagrees.cache hcache.2 hcache.1 f hf hnamed)
    · exact (h.same_stored_cache hf hcache _).mpr (Field.same_refl _ _)

theorem Written.framed_iff (h : Written paths stored endpoint updated) :
    Framed paths stored endpoint.resource updated ↔ Agrees paths stored endpoint :=
  ⟨h.agrees, fun hagrees => ⟨fun _ => h.named hagrees, fun _ => h.unnamed hagrees⟩⟩

end framed

/-! The committed row -/

section update
variable {q : EndpointQueries} {commits : Bool} {stamp : Stamp} {rows rows' : EndpointRows}
  {req : UpdateEndpointRequest} {row : StorageEndpoint}

theorem updateEndpoint_eq_ok (h : updateEndpoint q commits stamp rows req = (.ok row, rows')) :
    ∃ id params stored, resolveEndpoint q req.endpoint.name = .ok id ∧
      updateParams req = .ok params ∧ rows.lookup id = some stored ∧ commits = true ∧
      row = updateStorageEndpoint params stamp stored ∧
      rows' = if req.validateOnly then rows else rows.insert id row := by
  unfold updateEndpoint at h
  split at h
  · cases h
  · next id hid =>
    split at h
    · cases h
    · next params hparams =>
      split at h
      · cases h
      · cases h
      · next stored hstored =>
        cases h
        exact ⟨id, params, stored, hid, hparams, hstored, rfl, rfl, rfl⟩

theorem updateEndpoint_of_params {id : Id} {params : UpdateStorageEndpointParams}
    {stored : StorageEndpoint} (hid : resolveEndpoint q req.endpoint.name = .ok id)
    (hparams : updateParams req = .ok params) (hstored : rows.lookup id = some stored) :
    updateEndpoint q true stamp rows req = (.ok (updateStorageEndpoint params stamp stored),
      if req.validateOnly then rows
      else rows.insert id (updateStorageEndpoint params stamp stored)) := by
  simp [updateEndpoint, hid, hparams, hstored]

/- Whether a path can be written does not depend on what has been. -/
theorem setPath_of_setPath {endpoint : Endpoint} {path : MaskPath}
    {params params' : UpdateStorageEndpointParams} (h : params.setPath endpoint path = .ok params')
    (params'' : UpdateStorageEndpointParams) :
    ∃ written, params''.setPath endpoint path = .ok written := by
  cases path with
  | s3Credentials | s3 | filesystem | configuration =>
    obtain ⟨config, hconfig, -⟩ := configToJSON_of_setConfiguration h
    simp [UpdateStorageEndpointParams.setPath, UpdateStorageEndpointParams.setConfiguration, hconfig]
  | _ => exact ⟨_, rfl⟩

theorem foldlM_of_foldlM {endpoint : Endpoint} {paths : List MaskPath}
    {params params' : UpdateStorageEndpointParams}
    (h : paths.foldlM (UpdateStorageEndpointParams.setPath endpoint) params = .ok params')
    (params'' : UpdateStorageEndpointParams) :
    ∃ written, paths.foldlM (UpdateStorageEndpointParams.setPath endpoint) params'' = .ok written := by
  induction paths generalizing params params'' with
  | nil => exact ⟨params'', rfl⟩
  | cons path paths ih =>
    rw [List.foldlM_cons, bind_eq_ok] at h
    obtain ⟨middle, hpath, hpaths⟩ := h
    obtain ⟨middle', hpath'⟩ := setPath_of_setPath hpath params''
    obtain ⟨written, hwritten⟩ := ih hpaths middle'
    exact ⟨written, by rw [List.foldlM_cons, bind_eq_ok]; exact ⟨middle', hpath', hwritten⟩⟩

theorem maskedParams_append {endpoint : Endpoint} {paths more : List MaskPath}
    {params params' : UpdateStorageEndpointParams} (h : maskedParams endpoint paths = .ok params)
    (h' : maskedParams endpoint more = .ok params') :
    ∃ params'', maskedParams endpoint (paths ++ more) = .ok params'' := by
  obtain ⟨written, hwritten⟩ := foldlM_of_foldlM h' params
  exact ⟨written, by rw [maskedParams, List.foldlM_append, bind_eq_ok]; exact ⟨params, h, hwritten⟩⟩

/-- An update with a second mask after this one makes of the endpoint what the update with both
makes of it. -/
def Composes (q : EndpointQueries) (rows rows' : EndpointRows) (req : UpdateEndpointRequest)
    (paths : List String) : Prop :=
  ∀ more stamp stamp' row rows'',
    updateEndpoint q true stamp rows' { req with updateMask := some more } = (.ok row, rows'') →
      ∃ both rows₂, updateEndpoint q true stamp' rows { req with updateMask := some (paths ++ more) } =
        (.ok both, rows₂) ∧ both.resource = row.resource

theorem composes_of_update {paths : List String}
    (h : updateEndpoint q commits stamp rows req = (.ok row, rows'))
    (hmask : req.updateMask = some paths) (hlive : req.validateOnly = false) :
    Composes q rows rows' req paths := by
  obtain ⟨id, params, stored, hid, hparams, hstored, -, rfl, rfl⟩ := updateEndpoint_eq_ok h
  intro more stamp₁ stamp₂ row₁ rows₁ h₁
  obtain ⟨id', params₁, stored₁, hid₁, hparams₁, hstored₁, -, rfl, -⟩ := updateEndpoint_eq_ok h₁
  obtain rfl : id = id' := Except.ok.inj (hid.symm.trans hid₁)
  simp only [updateParams, hmask] at hparams
  simp only [updateParams] at hparams₁
  have hmiddle : updateStorageEndpoint params stamp stored = stored₁ := by
    simpa [hlive] using hstored₁
  subst hmiddle
  obtain ⟨params₂, hparams₂⟩ := maskedParams_append hparams hparams₁
  rw [← List.map_append] at hparams₂
  refine ⟨_, _, updateEndpoint_of_params hid hparams₂ hstored, ?_⟩
  have hfirst := written_maskedParams hparams stamp stored
  have hsecond := written_maskedParams hparams₁ stamp₁ (updateStorageEndpoint params stamp stored)
  have hboth := written_maskedParams hparams₂ stamp₂ stored
  rw [List.map_append] at hboth
  exact hboth.unique (hfirst.trans hsecond)

/-- UpdateEndpoint writes one row, and a mask frames the update exactly if the request agrees with
the stored endpoint where the update writes more than the mask names, or nothing for it. -/
theorem update_framed_iff {paths : List String}
    (h : updateEndpoint q commits stamp rows req = (.ok row, rows'))
    (hmask : req.updateMask = some paths) (hlive : req.validateOnly = false) :
    ∃ id stored, rows.lookup id = some stored ∧ rows' = rows.insert id row ∧
      row.gatewayId = stored.gatewayId ∧ row.name = stored.name ∧
      (Framed (paths.map MaskPath.ofString) stored.resource req.endpoint.resource row.resource ∧
          Composes q rows rows' req paths ↔
        Agrees (paths.map MaskPath.ofString) stored.resource req.endpoint) := by
  have hcomposes := composes_of_update h hmask hlive
  obtain ⟨id, params, stored, -, hparams, hstored, -, rfl, rfl⟩ := updateEndpoint_eq_ok h
  simp only [updateParams, hmask] at hparams
  have hwritten := written_maskedParams hparams stamp stored
  refine ⟨id, stored, hstored, by simp [hlive], rfl, rfl, ?_⟩
  rw [and_iff_left hcomposes]
  exact hwritten.framed_iff

end update

/-! An endpoint with a cache of 100 GB, which is to be disabled -/

def siteQueries : EndpointQueries := ⟨fun _ => .ok 1, fun _ _ => .ok 2, fun _ _ => .ok 3⟩

def siteStamp : Stamp := ⟨4, 0, "e"⟩

def siteRow : StorageEndpoint :=
  ⟨2, "main".toList, "Main", .filesystem ⟨"/mnt/assets"⟩, true, 100, .lru, 24, some [], 1, siteStamp⟩

def siteRows : EndpointRows := (∅ : EndpointRows).insert 3 siteRow

def disableCache (cache : CacheConfig) : UpdateEndpointRequest where
  endpoint :=
    { name := "organizations/acme/storageGateways/gw/endpoints/main".toList, displayName := ""
      configuration := none, cacheConfig := some cache, annotations := none }
  updateMask := some ["cache_config.enabled"]
  validateOnly := false

def siteRowWith (cache : CacheConfig) : StorageEndpoint :=
  { siteRow with
    cacheEnabled := cache.enabled
    cacheMaxSizeGb := cache.maxSizeGb
    cacheEviction := cache.evictionPolicy.toDb
    cacheTtlHours := cache.ttlHours
    revision := 2 }

theorem updateEndpoint_disableCache (cache : CacheConfig) :
    updateEndpoint siteQueries true siteStamp siteRows (disableCache cache) =
      (.ok (siteRowWith cache), siteRows.insert 3 (siteRowWith cache)) := rfl

theorem lookup_siteRows {id : Id} {stored : StorageEndpoint} (h : siteRows.lookup id = some stored) :
    stored = siteRow := by
  by_cases hid : id = 3
  · subst hid
    rw [siteRows, AList.lookup_insert] at h
    exact (Option.some.inj h).symm
  · rw [siteRows, AList.lookup_insert_ne hid] at h
    cases h

/-- All that the mask leaves out is as it is stored. -/
theorem update_framed_kept :
    ∃ id stored, siteRows.lookup id = some stored ∧
      siteRows.insert 3 (siteRowWith ⟨false, 100, .lru, 24⟩) =
        siteRows.insert id (siteRowWith ⟨false, 100, .lru, 24⟩) ∧
      Framed (["cache_config.enabled"].map MaskPath.ofString) stored.resource
        (disableCache ⟨false, 100, .lru, 24⟩).endpoint.resource
        (siteRowWith ⟨false, 100, .lru, 24⟩).resource ∧
      Composes siteQueries siteRows (siteRows.insert 3 (siteRowWith ⟨false, 100, .lru, 24⟩))
        (disableCache ⟨false, 100, .lru, 24⟩) ["cache_config.enabled"] := by
  obtain ⟨id, stored, hstored, hrows, -, -, hiff⟩ :=
    update_framed_iff (updateEndpoint_disableCache ⟨false, 100, .lru, 24⟩) rfl rfl
  obtain rfl := lookup_siteRows hstored
  refine ⟨id, siteRow, hstored, hrows, hiff.mpr ⟨?_, ?_, ?_⟩⟩
  · exact fun htouches => absurd htouches (by decide)
  · intro _ _ f hf hnamed
    cases f with
    | cacheEnabled => exact absurd (by decide) hnamed
    | cacheMaxSizeGb | cacheEvictionPolicy | cacheTtlHours => rfl
    | _ => exact absurd hf (by decide)
  · rintro ⟨⟩

/- A cache config with nothing but `enabled` in it: the size of the cache is lost. -/
theorem update_not_framed : ¬ ∀ q stamp rows rows' req row paths,
    updateEndpoint q true stamp rows req = (.ok row, rows') → req.updateMask = some paths →
      req.validateOnly = false → ∃ id stored, rows.lookup id = some stored ∧
        Framed (paths.map MaskPath.ofString) stored.resource req.endpoint.resource row.resource := by
  intro h
  obtain ⟨id, stored, hstored, hframed⟩ :=
    h _ _ _ _ _ _ _ (updateEndpoint_disableCache ⟨false, 0, .unspecified, 0⟩) rfl rfl
  obtain rfl := lookup_siteRows hstored
  have hunnamed : ¬ Named (["cache_config.enabled"].map MaskPath.ofString) .cacheMaxSizeGb := by
    decide
  obtain hsame | hgave := hframed.unnamed .cacheMaxSizeGb hunnamed
  · cases hsame
  · exact not_gaveWay_of_cache (by decide) _ hgave

end Pivox.Gateways.Endpoints
