import Mathlib.Data.List.AList

/-!
The endpoint store of a storage agent: the routing map in memory, the table on disk, and an Update
that replaces both in separate steps.
-/

namespace Pivox.StorageAgent

section insertAll
variable {α κ β : Type} [DecidableEq κ] {key : α → κ} {val : α → β} {xs : List α}
  {m : AList fun _ : κ => β}

/- Insert one after the other: of one key the last stays. -/
def insertAll (key : α → κ) (val : α → β) : List α → (AList fun _ : κ => β) → AList fun _ : κ => β
  | [], m => m
  | x :: xs, m => insertAll key val xs (m.insert (key x) (val x))

theorem lookup_insertAll_of_notMem {k : κ} (h : k ∉ xs.map key) :
    (insertAll key val xs m).lookup k = m.lookup k := by
  induction xs generalizing m with
  | nil => rfl
  | cons x xs ih =>
    simp only [List.map_cons, List.mem_cons, not_or] at h
    rw [insertAll, ih h.2, AList.lookup_insert_ne h.1]

theorem lookup_insertAll {x : α} (hnodup : (xs.map key).Nodup) (h : x ∈ xs) :
    (insertAll key val xs m).lookup (key x) = some (val x) := by
  induction xs generalizing m with
  | nil => cases h
  | cons y ys ih =>
    simp only [List.map_cons, List.nodup_cons] at hnodup
    obtain rfl | h := List.mem_cons.mp h
    · rw [insertAll, lookup_insertAll_of_notMem hnodup.1, AList.lookup_insert]
    · exact ih hnodup.2 h

/-- With distinct keys the map holds the values of the list, each at its key. -/
theorem lookup_insertAll_empty (hnodup : (xs.map key).Nodup) {k : κ} {v : β} :
    (insertAll key val xs ∅).lookup k = some v ↔ ∃ x ∈ xs, key x = k ∧ val x = v := by
  constructor
  · intro h
    by_cases hk : k ∈ xs.map key
    · obtain ⟨x, hx, rfl⟩ := List.mem_map.mp hk
      rw [lookup_insertAll hnodup hx, Option.some.injEq] at h
      exact ⟨x, hx, rfl, h⟩
    · rw [lookup_insertAll_of_notMem hk] at h
      cases h
  · rintro ⟨x, hx, rfl, rfl⟩
    exact lookup_insertAll hnodup hx

end insertAll

structure S3EndpointConfig where
  endpointUri : String
  bucket : String
  region : String
  accessKeyId : String
  secretAccessKey : String
  deriving DecidableEq

structure EndpointCacheConfig where
  enabled : Bool
  maxSizeGb : Int
  evictionPolicy : String
  ttlHours : Int
  deriving DecidableEq

inductive Configuration where
  | s3 (config : S3EndpointConfig)
  | filesystem (path : String)
  | unset
  deriving DecidableEq

/- A resource name, split at its slashes: the empty name is one empty segment. -/
abbrev ResourceName := List String

structure EndpointConfig where
  name : ResourceName
  cacheConfig : Option EndpointCacheConfig
  configuration : Configuration
  deriving DecidableEq

/- A client is taken as the configuration that it was made from. -/
structure Endpoint where
  config : EndpointConfig
  s3 : Option S3EndpointConfig
  cacheEnabled : Bool
  deriving DecidableEq

def shortName (name : ResourceName) : String := name.getLast?.getD ""

abbrev Routes := AList fun _ : String => Endpoint

/- The rows of the endpoints table; a BLOB is taken as the config that it encodes. -/
abbrev Rows := AList fun _ : ResourceName => EndpointConfig

/- What newS3Client finds: whether a client can be made and the bucket exists. -/
abbrev Backends := S3EndpointConfig → Bool

def EndpointConfig.s3 (cfg : EndpointConfig) : Option S3EndpointConfig :=
  match cfg.configuration with
  | .s3 config => some config
  | _ => none

def EndpointConfig.endpoint (cfg : EndpointConfig) : Endpoint :=
  { config := cfg, s3 := cfg.s3, cacheEnabled := cfg.cacheConfig.any (·.enabled) }

/- The first endpoint whose client cannot be made ends it. -/
def resolveInto (backends : Backends) : List EndpointConfig → Routes → Option Routes
  | [], out => some out
  | cfg :: rest, out =>
    if cfg.s3.all backends then
      resolveInto backends rest (out.insert (shortName cfg.name) cfg.endpoint)
    else none

def resolveEndpoints (backends : Backends) (configs : List EndpointConfig) : Option Routes :=
  resolveInto backends configs ∅

def insertEndpoints (configs : List EndpointConfig) : Rows := insertAll (·.name) id configs ∅

/- One SQLite transaction: DELETE, then an upsert of each. -/
def replaceEndpoints (configs : List EndpointConfig) : Option Rows :=
  if configs.all fun cfg => cfg.name ≠ [""] then some (insertEndpoints configs) else none

/- Without a store the agent runs in memory only. -/
structure EndpointStore where
  endpoints : Routes
  persist : Option Rows

/-- The routes of a set, when all of its clients can be made. -/
def routes (configs : List EndpointConfig) : Routes :=
  insertAll (fun cfg => shortName cfg.name) (·.endpoint) configs ∅

theorem resolveInto_eq {backends : Backends} {configs : List EndpointConfig} {out r : Routes}
    (h : resolveInto backends configs out = some r) :
    r = insertAll (fun cfg => shortName cfg.name) (·.endpoint) configs out := by
  induction configs generalizing out with
  | nil =>
    cases h
    rfl
  | cons cfg rest ih =>
    simp only [resolveInto] at h
    split at h
    · exact ih h
    · cases h

theorem resolveEndpoints_eq {backends : Backends} {configs : List EndpointConfig} {r : Routes}
    (h : resolveEndpoints backends configs = some r) : r = routes configs :=
  resolveInto_eq h

theorem replaceEndpoints_eq {configs : List EndpointConfig} {rows : Rows}
    (h : replaceEndpoints configs = some rows) : rows = insertEndpoints configs := by
  simp only [replaceEndpoints, Option.ite_none_right_eq_some, Option.some.injEq] at h
  exact h.2.symm

/-! An Update -/

/- Where an Update is: the routes that it has resolved, before the disk, then before the memory. -/
inductive Stage where
  | resolving
  | persisting (resolved : Routes)
  | swapping (resolved : Routes)

def Stage.resolved : Stage → Option Routes
  | .resolving => none
  | .persisting r => some r
  | .swapping r => some r

structure Update where
  configs : List EndpointConfig
  stage : Stage
  sound : ∀ r ∈ stage.resolved, r = routes configs

def Update.start (configs : List EndpointConfig) : Update := ⟨configs, .resolving, nofun⟩

inductive Next where
  | goesOn (u : Update)
  | returned (applied : Bool)

def Update.resolve (u : Update) (backends : Backends) : Next :=
  match h : resolveEndpoints backends u.configs with
  | none => .returned false
  | some r => .goesOn ⟨u.configs, .persisting r, fun _ hr => by
      cases hr
      exact resolveEndpoints_eq h⟩

/-- What an Update does next, as the backends answer and the SQLite transaction commits. -/
def Update.step (backends : Backends) (commits : Bool) (store : EndpointStore) :
    Update → Next × EndpointStore
  | ⟨configs, .resolving, h⟩ => (Update.resolve ⟨configs, .resolving, h⟩ backends, store)
  | ⟨configs, .persisting r, h⟩ =>
    let next : Next := .goesOn ⟨configs, .swapping r, h⟩
    match store.persist, replaceEndpoints configs with
    | none, _ => (next, store)
    | some _, none => (.returned false, store)
    | some _, some rows =>
      if commits then (next, { store with persist := some rows }) else (.returned false, store)
  | ⟨_, .swapping r, _⟩ => (.returned true, { store with endpoints := r })

end Pivox.StorageAgent
