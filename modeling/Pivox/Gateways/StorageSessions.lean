import Pivox.StorageAgent.Sessions
import Pivox.Path.Clean
import Pivox.Service

/-!
Storage sessions: the patterns that CreateStorageSession sends to the agents of an organization,
and the request paths that an agent then authorizes.
-/

namespace Pivox.Gateways
open Path hiding Token
open StorageAgent hiding Time

inductive SessionErr where
  | notFound (resourceType : String) (name : Text)
  | invalidArgument (field : String) (text : Text)
  | permissionDenied (text : String)
  | failedPrecondition (text : String)
  | internal (text : String)
  | pathSegment (kind : String) (s : Text) (text : String)
  deriving DecidableEq

def collectionFromName (name : Text) : Text := (splitFirst name).1

def parseSegment (name : Text) : Option Text := (splitFirst name).2.filter (· ≠ [])

/- What the four queries of one call answer: none of them shares a transaction. -/
structure SessionQueries where
  getOrganizationByName : Text → Except Err Id
  effectiveOrgPermissions : Id → Id → Except Err (List String)
  listSpaceMembershipsForIdentityInOrg : Id → Id → Except Err (List Text)
  listStorageEndpointShortNamesByOrg : Id → Except Err (List Text)

def required {α : Type} (e : SessionErr) : Option α → Except SessionErr α
  | some a => .ok a
  | none => .error e

def invalidParent (parent : Text) : Text :=
  "invalid parent ".toList ++ parent

def resolveOrgParent (q : SessionQueries) (parent : Text) : Except SessionErr Id :=
  if collectionFromName parent ≠ "organizations".toList then
    throw (.invalidArgument "parent" (invalidParent parent ++ ": expected organizations/*".toList))
  else
    match parseSegment parent with
    | none =>
      throw (.invalidArgument "parent" (invalidParent parent ++ ": invalid resource name".toList))
    | some segment =>
      match q.getOrganizationByName segment with
      | .ok org => pure org
      | .error .noRows => throw (.notFound "parent" parent)
      | .error _ => throw (.internal "failed to validate parent")

def assetsAssetsRead : String := "assets.assets.read"

def validatePathSegment (s : Text) (kind : String) : Except SessionErr Unit :=
  if s = [] then throw (.pathSegment kind s "is empty; pattern shape would be malformed")
  else if '/' ∈ s ∨ '*' ∈ s then
    throw (.pathSegment kind s "contains illegal character ('/' or '*')")
  else if s = dot ∨ s = dotdot ∨ s.head? = some '.' then
    throw (.pathSegment kind s "has illegal leading-dot shape")
  else pure ()

def hour : Int := 3600 * second
def defaultMaxSessionTTL : Int := 8 * hour
def defaultSessionTTL : Int := hour

/- NewStorageGatewaysServer: the cap on a session's lifetime, from the configured one. -/
def maxSessionTTL (configured : Int) : Int :=
  if configured ≤ 0 then defaultMaxSessionTTL else configured

structure CreateStorageSessionRequest where
  parent : Text
  ttl : Option Int

/- The message to the agents of `orgId`, and the claims of the JWT but for its encoding. -/
structure SessionGrant where
  token : Token
  patterns : List Text
  expiry : StorageAgent.Time
  orgId : Id
  sub : Id
  org : Text
  deriving DecidableEq

def pattern (dir : List Text) : Text := dir.flatMap ('/' :: ·) ++ ['/', '*']

def orgWidePatterns (endpoints : List Text) (orgSlug : Text) : List Text :=
  endpoints.map fun ep => pattern [ep, orgSlug]

def perSpacePatterns (endpoints : List Text) (orgSlug : Text) (spaces : List Text) : List Text :=
  endpoints.flatMap fun ep => spaces.map fun sp => pattern [ep, orgSlug, sp]

def internal (text : String) : Err → SessionErr := fun _ => .internal text

/- The spaces that the patterns are built from; an org-wide role does without them. -/
def callerSpaces (q : SessionQueries) (orgId identity : Id) (hasOrgWideRead : Bool) :
    Except SessionErr (List Text) :=
  if hasOrgWideRead then .ok []
  else
    match q.listSpaceMembershipsForIdentityInOrg orgId identity with
    | .error _ => .error (.internal "list space memberships")
    | .ok [] => .error (.permissionDenied
        ("caller has no storage access in the requested organization; " ++
          "storage session cannot be minted"))
    | .ok spaces => .ok spaces

def orgEndpointNames (q : SessionQueries) (orgId : Id) : Except SessionErr (List Text) :=
  match q.listStorageEndpointShortNamesByOrg orgId with
  | .error _ => .error (.internal "list endpoint short names")
  | .ok [] => .error (.failedPrecondition
      "organization has no storage endpoints; storage session cannot be minted")
  | .ok names => .ok names

def sessionTTL : Option Int → Except SessionErr Int
  | none => .ok defaultSessionTTL
  | some d =>
    if d ≤ 0 then .error (.invalidArgument "ttl" "ttl must be positive when set".toList) else .ok d

def sessionPatterns (hasOrgWideRead : Bool) (endpoints : List Text) (orgSlug : Text)
    (spaces : List Text) : List Text :=
  if hasOrgWideRead then orgWidePatterns endpoints orgSlug
  else perSpacePatterns endpoints orgSlug spaces

/-- The token is a fresh UUID, the time is that of the call. -/
def createStorageSession (q : SessionQueries) (configured : Int) (now : StorageAgent.Time)
    (token : StorageAgent.Token) (identity : Id) (req : CreateStorageSessionRequest) :
    Except SessionErr SessionGrant := do
  let orgId ← resolveOrgParent q req.parent
  let orgSlug ← required (.internal "database error") (parseSegment req.parent)
  let orgPerms ← (q.effectiveOrgPermissions orgId identity).mapError
    (internal "get effective org permissions")
  let hasOrgWideRead := orgPerms.contains assetsAssetsRead
  let spaces ← callerSpaces q orgId identity hasOrgWideRead
  let endpointNames ← orgEndpointNames q orgId
  validatePathSegment orgSlug "organization slug"
  endpointNames.forM (validatePathSegment · "endpoint name")
  spaces.forM (validatePathSegment · "space name")
  let ttl ← sessionTTL req.ttl
  let expiry := now + min ttl (maxSessionTTL configured)
  let patterns := sessionPatterns hasOrgWideRead endpointNames orgSlug spaces
  pure { token, patterns, expiry, orgId, sub := identity, org := orgSlug }

/-! What a call that succeeds has read, and what it sends -/

theorem forM_eq_ok {ε α : Type} {g : α → Except ε Unit} {xs : List α} (h : xs.forM g = .ok ()) :
    ∀ a ∈ xs, g a = .ok () := by
  induction xs with
  | nil => simp
  | cons a xs ih =>
    obtain ⟨⟨⟩, ha, hxs⟩ := bind_eq_ok.mp h
    intro a' ha'
    obtain rfl | ha' := List.mem_cons.mp ha'
    · exact ha
    · exact ih hxs a' ha'

/-- A name that stands for one segment of a path. -/
structure Segment (s : Text) : Prop where
  ne_nil : s ≠ []
  no_slash : '/' ∉ s

theorem segment_of_validatePathSegment {s : Text} {kind : String}
    (h : validatePathSegment s kind = .ok ()) : Segment s := by
  unfold validatePathSegment at h
  split_ifs at h with hnil hchar hdot
  exact ⟨hnil, fun hs => hchar (.inl hs)⟩

variable {q : SessionQueries} {configured : Int} {now later : StorageAgent.Time}
  {token : StorageAgent.Token} {identity orgId : Id} {req : CreateStorageSessionRequest}
  {sent : SessionGrant} {org : Text} {perms : List String} {endpoints spaces : List Text}

theorem resolveOrgParent_ok {parent : Text} (h : resolveOrgParent q parent = .ok orgId)
    (horg : parseSegment parent = some org) : q.getOrganizationByName org = .ok orgId := by
  unfold resolveOrgParent at h
  split_ifs at h with hcollection
  simp only [horg] at h
  split at h
  · rename_i id hid
    obtain rfl : id = orgId := Except.ok.inj h
    exact hid
  · cases h
  · cases h

theorem callerSpaces_ok (h : callerSpaces q orgId identity false = .ok spaces) :
    q.listSpaceMembershipsForIdentityInOrg orgId identity = .ok spaces := by
  simp only [callerSpaces, Bool.false_eq_true, if_false] at h
  split at h
  · cases h
  · cases h
  · rename_i hread
    rw [hread, Except.ok.inj h]

theorem orgEndpointNames_ok (h : orgEndpointNames q orgId = .ok endpoints) :
    q.listStorageEndpointShortNamesByOrg orgId = .ok endpoints := by
  simp only [orgEndpointNames] at h
  split at h
  · cases h
  · cases h
  · rename_i hread
    rw [hread, Except.ok.inj h]

theorem forM_ok {α : Type} {g : α → Except SessionErr Unit} {xs : List α}
    (h : ∀ a ∈ xs, g a = .ok ()) : xs.forM g = .ok () := by
  induction xs with
  | nil => rfl
  | cons a xs ih =>
    refine bind_eq_ok.mpr ⟨(), h a (by simp), ?_⟩
    exact ih fun a' ha' => h a' (List.mem_cons_of_mem _ ha')

/-- A call mints a session when the caller has somewhere to read, there is an endpoint, and all
names are accepted. -/
theorem createStorageSession_mints (hparent : collectionFromName req.parent = "organizations".toList)
    (horg : parseSegment req.parent = some org) (hid : q.getOrganizationByName org = .ok orgId)
    (hperms : q.effectiveOrgPermissions orgId identity = .ok perms)
    (hspaces : callerSpaces q orgId identity (perms.contains assetsAssetsRead) = .ok spaces)
    (hendpoints : orgEndpointNames q orgId = .ok endpoints)
    (horgOk : validatePathSegment org "organization slug" = .ok ())
    (hendpointsOk : ∀ ep ∈ endpoints, validatePathSegment ep "endpoint name" = .ok ())
    (hspacesOk : ∀ sp ∈ spaces, validatePathSegment sp "space name" = .ok ())
    (httl : ∀ d, req.ttl = some d → 0 < d) :
    ∃ sent, createStorageSession q configured now token identity req = .ok sent := by
  have hresolve : resolveOrgParent q req.parent = .ok orgId := by
    simp [resolveOrgParent, hparent, horg, hid, pure, Except.pure]
  obtain ⟨ttl, hsessionTTL⟩ : ∃ ttl, sessionTTL req.ttl = .ok ttl := by
    cases hd : req.ttl with
    | none => exact ⟨_, rfl⟩
    | some d => exact ⟨d, if_neg (not_le.mpr (httl d hd))⟩
  refine ⟨_, bind_eq_ok.mpr ⟨orgId, hresolve, bind_eq_ok.mpr ⟨org, by rw [horg]; rfl,
    bind_eq_ok.mpr ⟨perms, by rw [hperms]; rfl, bind_eq_ok.mpr ⟨spaces, hspaces,
    bind_eq_ok.mpr ⟨endpoints, hendpoints, bind_eq_ok.mpr ⟨(), horgOk,
    bind_eq_ok.mpr ⟨(), forM_ok hendpointsOk, bind_eq_ok.mpr ⟨(), forM_ok hspacesOk,
    bind_eq_ok.mpr ⟨ttl, hsessionTTL, rfl⟩⟩⟩⟩⟩⟩⟩⟩⟩⟩

/-- What a call that succeeds has read, checked and sent. -/
structure Minted (q : SessionQueries) (token : StorageAgent.Token) (identity : Id)
    (req : CreateStorageSessionRequest) (sent : SessionGrant) where
  orgId : Id
  org : Text
  perms : List String
  endpoints : List Text
  spaces : List Text
  segment_org : parseSegment req.parent = some org
  found_org : q.getOrganizationByName org = .ok orgId
  read_perms : q.effectiveOrgPermissions orgId identity = .ok perms
  read_spaces : assetsAssetsRead ∉ perms →
    q.listSpaceMembershipsForIdentityInOrg orgId identity = .ok spaces
  read_endpoints : q.listStorageEndpointShortNamesByOrg orgId = .ok endpoints
  org_ok : Segment org
  endpoints_ok : ∀ ep ∈ endpoints, Segment ep
  spaces_ok : ∀ sp ∈ spaces, Segment sp
  sent_token : sent.token = token
  sent_patterns : sent.patterns =
    sessionPatterns (decide (assetsAssetsRead ∈ perms)) endpoints org spaces

theorem minted_of_ok
    (h : createStorageSession q configured now token identity req = .ok sent) :
    Nonempty (Minted q token identity req sent) := by
  obtain ⟨orgId, horgId, h⟩ := bind_eq_ok.mp h
  obtain ⟨org, horg, h⟩ := bind_eq_ok.mp h
  obtain ⟨perms, hperms, h⟩ := bind_eq_ok.mp h
  obtain ⟨spaces, hspaces, h⟩ := bind_eq_ok.mp h
  obtain ⟨endpoints, hendpoints, h⟩ := bind_eq_ok.mp h
  obtain ⟨_, horgOk, h⟩ := bind_eq_ok.mp h
  obtain ⟨_, hendpointsOk, h⟩ := bind_eq_ok.mp h
  obtain ⟨_, hspacesOk, h⟩ := bind_eq_ok.mp h
  obtain ⟨ttl, -, h⟩ := bind_eq_ok.mp h
  have hsegment : parseSegment req.parent = some org := by
    cases hp : parseSegment req.parent with
    | none => simp [hp, required] at horg
    | some s => simpa [hp, required] using horg
  have hread : q.effectiveOrgPermissions orgId identity = .ok perms := by
    cases hp : q.effectiveOrgPermissions orgId identity with
    | error e => simp [hp, Except.mapError] at hperms
    | ok ps => simpa [hp, Except.mapError] using hperms
  obtain rfl : _ = sent := Except.ok.inj h
  exact ⟨{
    orgId, org, perms, endpoints, spaces
    segment_org := hsegment
    found_org := resolveOrgParent_ok horgId hsegment
    read_perms := hread
    read_spaces := fun hno => callerSpaces_ok (by simpa [hno] using hspaces)
    read_endpoints := orgEndpointNames_ok hendpoints
    org_ok := segment_of_validatePathSegment horgOk
    endpoints_ok := fun ep hep =>
      segment_of_validatePathSegment (forM_eq_ok hendpointsOk ep hep)
    spaces_ok := fun sp hsp => segment_of_validatePathSegment (forM_eq_ok hspacesOk sp hsp)
    sent_token := rfl
    sent_patterns := by simp }⟩

/-! What the agents authorize -/

theorem cutSuffix_append (s suffix : Text) : cutSuffix (s ++ suffix) suffix = some s := by
  simp [cutSuffix, List.isSuffixOf_iff_suffix]

/-- A directory, from the root on. -/
def directory (dir : List Text) : Text := dir.flatMap ('/' :: ·)

theorem matchPattern_pattern {dir : List Text} {p : Text} :
    matchPattern (pattern dir) p = true ↔ Under (directory dir) p := by
  simp [matchPattern, pattern, cutSuffix_append, Under, directory, or_comm]

theorem directory_eq {dir : List Text} (hne : dir ≠ []) :
    directory dir = List.intercalate ['/'] ([] :: dir) := by
  induction dir with
  | nil => exact absurd rfl hne
  | cons seg dir ih =>
    rw [intercalate_cons [] (by simp), List.nil_append]
    cases dir with
    | nil => simp [directory]
    | cons seg' dir =>
      have hrest := ih (by simp)
      rw [intercalate_cons [] (by simp), List.nil_append] at hrest
      rw [intercalate_cons seg (by simp), ← hrest]
      simp [directory]

/-- The paths that a pattern grants, segment by segment. -/
theorem under_directory_iff {dir : List Text} {p : Text} (hne : dir ≠ [])
    (h : ∀ seg ∈ dir, Segment seg) : Under (directory dir) p ↔ [] :: dir <+: segments p := by
  rw [directory_eq hne, segments_prefix_iff (by simp)]
  intro seg hseg
  obtain rfl | hseg := List.mem_cons.mp hseg
  · simp
  · exact (h seg hseg).no_slash

theorem authorize_grant {st st' : AgentState} {ok : Bool} {patterns : List Text}
    {expiry : StorageAgent.Time} (h : grant st ok token patterns expiry = (true, st')) {p : Text} :
    authorize st' later token p = true ↔
      later ≤ truncate expiry ∧ ∃ ps ∈ patterns, matchPattern ps p = true := by
  have hlookup : st'.sessions.lookup token = some ⟨some patterns, truncate expiry⟩ := by
    unfold grant writeThrough at h
    split at h
    · obtain rfl := (Prod.mk.inj h).2
      exact AList.lookup_insert _
    · split at h
      · cases (Prod.mk.inj h).1
      · obtain rfl := (Prod.mk.inj h).2
        exact AList.lookup_insert _
  simp [authorize, hlookup, Session.authorizes]

theorem mem_orgWide {p : Text} : (∃ ps ∈ orgWidePatterns endpoints org, matchPattern ps p = true) ↔
    ∃ ep ∈ endpoints, Under (directory [ep, org]) p := by
  simp [orgWidePatterns, matchPattern_pattern]

theorem mem_perSpace {p : Text} :
    (∃ ps ∈ perSpacePatterns endpoints org spaces, matchPattern ps p = true) ↔
      ∃ ep ∈ endpoints, ∃ sp ∈ spaces, Under (directory [ep, org, sp]) p := by
  simp only [perSpacePatterns, List.mem_flatMap, List.mem_map]
  constructor
  · rintro ⟨ps, ⟨ep, hep, sp, hsp, rfl⟩, hmatch⟩
    exact ⟨ep, hep, sp, hsp, matchPattern_pattern.mp hmatch⟩
  · rintro ⟨ep, hep, sp, hsp, hunder⟩
    exact ⟨_, ⟨ep, hep, sp, hsp, rfl⟩, matchPattern_pattern.mpr hunder⟩

/-- What lies under a directory lies under the one above it. -/
theorem under_parent {dir : List Text} {seg p : Text} (h : Under (directory (dir ++ [seg])) p) :
    Under (directory dir) p := by
  have hdir : directory (dir ++ [seg]) = directory dir ++ '/' :: seg := by simp [directory]
  right
  obtain rfl | ⟨rest, rfl⟩ := h
  · exact ⟨seg, by simp [hdir]⟩
  · exact ⟨seg ++ '/' :: rest, by simp [hdir]⟩

/-- A path that begins as the granted directories do lies in no other endpoint, organization or
space. -/
theorem area_of_segments {m : Minted q token identity req sent} {p ep' org' : Text}
    {rest : List Text} (hp : segments p = [] :: ep' :: org' :: rest)
    (h : ∃ ps ∈ sent.patterns, matchPattern ps p = true) :
    ep' ∈ m.endpoints ∧ org' = m.org ∧
      (assetsAssetsRead ∉ m.perms → ∃ sp ∈ m.spaces, rest.head? = some sp) := by
  rw [m.sent_patterns] at h
  by_cases hwide : assetsAssetsRead ∈ m.perms
  · simp only [hwide, decide_true, sessionPatterns, if_true] at h
    obtain ⟨ep, hep, hunder⟩ := mem_orgWide.mp h
    have hsegs : ∀ seg ∈ [ep, m.org], Segment seg := by
      simp [m.endpoints_ok ep hep, m.org_ok]
    rw [under_directory_iff (by simp) hsegs, hp] at hunder
    obtain ⟨rfl, rfl⟩ : ep = ep' ∧ m.org = org' := by
      simpa [List.cons_prefix_cons] using hunder
    exact ⟨hep, rfl, fun hno => absurd hwide hno⟩
  · simp only [hwide, decide_false, sessionPatterns, Bool.false_eq_true, if_false] at h
    obtain ⟨ep, hep, sp, hsp, hunder⟩ := mem_perSpace.mp h
    have hsegs : ∀ seg ∈ [ep, m.org, sp], Segment seg := by
      simp [m.endpoints_ok ep hep, m.org_ok, m.spaces_ok sp hsp]
    rw [under_directory_iff (by simp) hsegs, hp] at hunder
    obtain ⟨rfl, rfl, hrest⟩ : ep = ep' ∧ m.org = org' ∧ [sp] <+: rest := by
      simpa [List.cons_prefix_cons] using hunder
    obtain ⟨tail, rfl⟩ := hrest
    exact ⟨hep, rfl, fun _ => ⟨sp, hsp, rfl⟩⟩

/-- Before its expiry a session grants the directories of its organization at each endpoint, or
those of the caller's spaces in it, and nothing else. -/
theorem session_grants_area {st st' : AgentState} {ok : Bool}
    (hsent : createStorageSession q configured now token identity req = .ok sent)
    (hgrant : grant st ok sent.token sent.patterns sent.expiry = (true, st')) :
    ∃ m : Minted q token identity req sent,
      (∀ later p, authorize st' later token p = true ↔ later ≤ truncate sent.expiry ∧
        ∃ ep ∈ m.endpoints,
          if assetsAssetsRead ∈ m.perms then Under (directory [ep, m.org]) p
          else ∃ sp ∈ m.spaces, Under (directory [ep, m.org, sp]) p) ∧
      (∀ later p ep org rest, segments p = [] :: ep :: org :: rest →
        authorize st' later token p = true → ep ∈ m.endpoints ∧ org = m.org ∧
          (assetsAssetsRead ∉ m.perms → ∃ sp ∈ m.spaces, rest.head? = some sp)) ∧
      ∀ spaces p, (∃ ps ∈ perSpacePatterns m.endpoints m.org spaces, matchPattern ps p = true) →
        ∃ ps ∈ orgWidePatterns m.endpoints m.org, matchPattern ps p = true := by
  obtain ⟨m⟩ := minted_of_ok hsent
  have hauth : ∀ {later p}, authorize st' later token p = true ↔
      later ≤ truncate sent.expiry ∧ ∃ ps ∈ sent.patterns, matchPattern ps p = true := by
    rw [m.sent_token] at hgrant
    exact authorize_grant hgrant
  refine ⟨m, fun later p => ?_, fun later p ep org rest hp h => ?_, fun spaces p h => ?_⟩
  · rw [hauth, m.sent_patterns]
    by_cases hwide : assetsAssetsRead ∈ m.perms
    · simp only [hwide, decide_true, sessionPatterns, if_true, mem_orgWide]
    · simp only [hwide, decide_false, sessionPatterns, Bool.false_eq_true, if_false, mem_perSpace]
  · exact area_of_segments hp (hauth.mp h).2
  · obtain ⟨ep, hep, sp, -, hunder⟩ := mem_perSpace.mp h
    exact mem_orgWide.mpr ⟨ep, hep, under_parent (by exact hunder)⟩

/- One endpoint, and a caller with one space in the organization. -/
def oneSpace : SessionQueries where
  getOrganizationByName _ := .ok 1
  effectiveOrgPermissions _ _ := .ok []
  listSpaceMembershipsForIdentityInOrg _ _ := .ok [['s']]
  listStorageEndpointShortNamesByOrg _ := .ok [['e']]

def oneSpaceRequest : CreateStorageSessionRequest := ⟨"organizations/acme".toList, none⟩

def oneSpaceSent : SessionGrant :=
  ⟨['t'], ["/e/acme/s/*".toList], hour, 1, 2, "acme".toList⟩

def oneSpaceGranted : AgentState :=
  (grant ⟨∅, [], none⟩ true ['t'] oneSpaceSent.patterns oneSpaceSent.expiry).2

theorem session_grants_area_one_space :
    ∃ m : Minted oneSpace ['t'] 2 oneSpaceRequest oneSpaceSent, ∀ later p ep org rest,
      segments p = [] :: ep :: org :: rest → authorize oneSpaceGranted later ['t'] p = true →
        ep ∈ m.endpoints ∧ org = m.org ∧
          (assetsAssetsRead ∉ m.perms → ∃ sp ∈ m.spaces, rest.head? = some sp) := by
  have hsent : createStorageSession oneSpace 0 0 ['t'] 2 oneSpaceRequest = .ok oneSpaceSent := rfl
  have hgrant : grant ⟨∅, [], none⟩ true oneSpaceSent.token oneSpaceSent.patterns
      oneSpaceSent.expiry = (true, oneSpaceGranted) := rfl
  obtain ⟨m, -, harea, -⟩ := session_grants_area hsent hgrant
  exact ⟨m, harea⟩

end Pivox.Gateways
