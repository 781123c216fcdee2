import Pivox.Path.Escape
import Pivox.StorageAgent.Sessions

/-!
The file server of a storage agent: which file a request opens, and whether the session and the
denied patterns allow that file.
-/

namespace Pivox.StorageAgent
open Path

/- The Path and the RawPath of a URL, and what EscapedPath makes of them. -/
structure Url where
  path : Text
  rawPath : Text
  escapedPath : Text
  decodes : unescape escapedPath = some (bytes path)

/- The token is what extractJWT and validateJWT make of the request: none is a 401, too. -/
structure Request where
  method : String
  url : Url
  token : Option Path.Text

inductive Response where
  | redirect
  | noContent
  | unauthorized
  | forbidden
  | notFound
  | cached (key : Text)
  | object (bucket key : Text)
  | noConfiguration
  | opened (endpoint key mount fullPath : Text)
  deriving DecidableEq

/- The state that a request reads: without an LRU cache there are no keys in it. Getwd may fail. -/
structure Server where
  agent : AgentState
  endpoints : Routes
  cache : List Text
  cwd : Option Text

def filesName : Text := "files".toList

def filesPrefix : Text := '/' :: filesName

/- The canonical path of a ServeMux: a trailing slash stays. -/
def cleanPath (p : Text) : Text :=
  let p := if isRooted p then p else '/' :: p
  let np := clean p
  if p.getLast? = some '/' ∧ np ≠ ['/'] then np ++ ['/'] else np

/- Where a file is: the endpoint and the key, neither of them empty. -/
def splitKey (path : Text) : Option (Text × Text) :=
  match splitFirst (trimPrefix path ['/']) with
  | (endpoint, some key) => if endpoint = [] ∨ key = [] then none else some (endpoint, key)
  | (_, none) => none

def serveFilesystem (cwd : Option Text) (endpoint mount objectKey : Text) : Response :=
  let cleaned := clean objectKey
  if contains dotdot cleaned then .forbidden
  else
    let fullPath := join mount cleaned
    if (abs cwd mount).isPrefixOf (abs cwd fullPath) then .opened endpoint objectKey mount fullPath
    else .forbidden

def serveFile (s : Server) (path : Text) : Response :=
  match splitKey path with
  | none => .notFound
  | some (endpointName, objectKey) =>
    match s.endpoints.lookup (String.ofList endpointName) with
    | none => .notFound
    | some ep =>
      let cacheKey := endpointName ++ '/' :: objectKey
      if ep.cacheEnabled ∧ cacheKey ∈ s.cache then .cached cacheKey
      else
        match ep.s3, ep.config.configuration with
        | some config, _ => .object config.bucket.toList objectKey
        | none, .filesystem mount => serveFilesystem s.cwd endpointName mount.toList objectKey
        | none, _ => .noConfiguration

/- `path` is what StripPrefix leaves of the path. -/
def serveHTTP (s : Server) (now : Time) (r : Request) (path : Text) : Response :=
  if r.method = "OPTIONS" then .noContent
  else
    match r.token with
    | none => .unauthorized
    | some token =>
      if token = [] then .unauthorized
      else if !authorize s.agent now token path then .forbidden
      else if isDenied s.agent path then .notFound
      else serveFile s path

/- Where the mux sends a request. -/
inductive Route where
  | redirect
  | notFound
  | files (path : Text)
  deriving DecidableEq

/- The first segment of an escaped path, and what is left where a slash follows it. -/
def firstSegment : Text → Text × Option Text
  | '/' :: p => splitFirst p
  | _ => ([], none)

/- StripPrefix asks for the prefix in the raw path, too, if there is one. -/
def stripPrefix (url : Url) : Route :=
  if filesPrefix.isPrefixOf url.path ∧ (url.rawPath = [] ∨ filesPrefix.isPrefixOf url.rawPath) then
    .files (trimPrefix url.path filesPrefix)
  else .notFound

/- Only a CONNECT keeps an escaped path that is not canonical. -/
def muxPath (r : Request) : Text :=
  if r.method = "CONNECT" then r.url.escapedPath else cleanPath r.url.escapedPath

/-- The mux sends /files on to /files/, and a path that is not canonical to the one that is. The
segments of the path are compared decoded. -/
def route (r : Request) : Route :=
  let (seg, rest) := firstSegment (muxPath r)
  if unescape seg = some (bytes filesName) then
    if rest = none ∨ muxPath r ≠ r.url.escapedPath then .redirect else stripPrefix r.url
  else if muxPath r ≠ r.url.escapedPath then .redirect
  else .notFound

def muxedHandler (s : Server) (now : Time) (r : Request) : Response :=
  match route r with
  | .redirect => .redirect
  | .notFound => .notFound
  | .files path => serveHTTP s now r path

/-! What a request opens -/

/-- Whose session a request claims, and the endpoint and the key it names. -/
structure Asked where
  token : Token
  endpoint : Text
  key : Text
  deriving DecidableEq

def Asked.path (a : Asked) : Text := '/' :: a.endpoint ++ '/' :: a.key

/- What reaches the endpoints of a request, if the session and the denied patterns let it pass. -/
def asked (r : Request) : Option Asked :=
  match route r with
  | .files path =>
    if r.method = "OPTIONS" then none
    else
      match r.token, splitKey path with
      | some token, some (endpoint, key) => if token = [] then none else some ⟨token, endpoint, key⟩
      | _, _ => none
  | _ => none

variable {s : Server} {now : Time} {r : Request} {a : Asked} {endpoint key mount fullPath : Text}

theorem splitKey_eq {rest : Text} (h : splitKey ('/' :: rest) = some (endpoint, key)) :
    '/' :: rest = '/' :: endpoint ++ '/' :: key ∧ '/' ∉ endpoint ∧ endpoint ≠ [] ∧ key ≠ [] := by
  have htrim : trimPrefix ('/' :: rest) ['/'] = rest := by simp [trimPrefix]
  unfold splitKey at h
  rw [htrim] at h
  split at h
  · rename_i ep k hsplit
    obtain ⟨hrest, hslash⟩ := splitFirst_eq_some.mp hsplit
    split at h
    · cases h
    · rename_i hne
      obtain ⟨hep, hk⟩ := not_or.mp hne
      cases h
      exact ⟨by simp [hrest], hslash, hep, hk⟩
  · cases h

theorem firstSegment_eq {path seg rest : Text} (h : firstSegment path = (seg, some rest)) :
    path = '/' :: seg ++ '/' :: rest := by
  unfold firstSegment at h
  split at h
  · rename_i p
    obtain ⟨hp, -⟩ := splitFirst_eq_some.mp h
    rw [hp]
    rfl
  · cases h

theorem files_ascii : ∀ c ∈ filesPrefix ++ ['/'], c.toNat < 128 := by
  simp [filesPrefix, filesName]

/-- A path that the mux knows for one of /files/ begins so when it is decoded. -/
theorem Url.path_eq {url : Url} {seg rest : Text}
    (h : firstSegment url.escapedPath = (seg, some rest))
    (hseg : unescape seg = some (bytes filesName)) : ∃ p, url.path = filesPrefix ++ '/' :: p := by
  have hdecodes := url.decodes
  rw [firstSegment_eq h, List.cons_append, unescape_slash, unescape_append_slash hseg] at hdecodes
  simp only [Option.map_map, Option.map_eq_some_iff] at hdecodes
  obtain ⟨tail, -, htail⟩ := hdecodes
  have hbytes : bytes url.path = bytes (filesPrefix ++ ['/']) ++ tail := by
    rw [← htail]
    rfl
  obtain ⟨p, hp⟩ := prefix_of_bytes files_ascii hbytes
  exact ⟨p, by rw [hp, List.append_assoc]; rfl⟩

/-- What StripPrefix leaves begins with a slash. -/
theorem route_files {path : Text} (h : route r = .files path) : ∃ rest, path = '/' :: rest := by
  unfold route at h
  obtain ⟨seg, rest, hfirst⟩ : ∃ seg rest, firstSegment (muxPath r) = (seg, rest) := ⟨_, _, rfl⟩
  simp only [hfirst] at h
  split_ifs at h with hseg hredirect
  obtain ⟨hsome, hcanonical⟩ := not_or.mp hredirect
  obtain ⟨rest, rfl⟩ := Option.ne_none_iff_exists'.mp hsome
  rw [not_not.mp hcanonical] at hfirst
  obtain ⟨p, hp⟩ := r.url.path_eq hfirst hseg
  unfold stripPrefix at h
  split_ifs at h
  cases h
  exact ⟨p, by rw [hp]; simp [trimPrefix]⟩

/-- What the handler has made sure of when a request gets to the endpoints. -/
structure Reaches (r : Request) (a : Asked) : Prop where
  route : route r = .files a.path
  method : r.method ≠ "OPTIONS"
  token : r.token = some a.token
  token_ne : a.token ≠ []
  split : splitKey a.path = some (a.endpoint, a.key)

theorem reaches_of_split {path : Text} {token : Token} (hroute : route r = .files path)
    (hmethod : r.method ≠ "OPTIONS") (htoken : r.token = some token) (hne : token ≠ [])
    (hsplit : splitKey path = some (endpoint, key)) :
    Reaches r ⟨token, endpoint, key⟩ ∧ path = Asked.path ⟨token, endpoint, key⟩ := by
  obtain ⟨rest, rfl⟩ := route_files hroute
  have hpath : '/' :: rest = Asked.path ⟨token, endpoint, key⟩ := (splitKey_eq hsplit).1
  exact ⟨⟨hpath ▸ hroute, hmethod, htoken, hne, hpath ▸ hsplit⟩, hpath⟩

theorem asked_iff : asked r = some a ↔ Reaches r a := by
  constructor
  · intro h
    unfold asked at h
    split at h
    · rename_i path hroute
      split_ifs at h with hmethod
      split at h
      · rename_i token ep k htoken hsplit
        split_ifs at h with hnil
        cases h
        exact (reaches_of_split hroute hmethod htoken hnil hsplit).1
      · cases h
    · cases h
  · intro h
    simp [asked, h.route, h.method, h.token, h.split, h.token_ne]

theorem Reaches.key_ne (h : Reaches r a) : a.key ≠ [] :=
  (splitKey_eq h.split).2.2.2

/- The two checks of the session and of the denied patterns: they read the path as it was sent. -/
structure Passes (s : Server) (now : Time) (a : Asked) : Prop where
  authorized : authorize s.agent now a.token a.path = true
  not_denied : isDenied s.agent a.path = false

theorem muxedHandler_of_reaches (h : Reaches r a) (hpass : Passes s now a) :
    muxedHandler s now r = serveFile s a.path := by
  simp [muxedHandler, serveHTTP, h.route, h.method, h.token, h.token_ne, hpass.authorized,
    hpass.not_denied]

theorem serveFile_opened {path : Text} (h : serveFile s path = .opened endpoint key mount fullPath) :
    splitKey path = some (endpoint, key) ∧ contains dotdot (clean key) = false ∧
      fullPath = join mount (clean key) := by
  unfold serveFile at h
  split at h
  · cases h
  · rename_i ep k hsplit
    split at h
    · cases h
    · dsimp only at h
      split_ifs at h with hcache
      split at h
      · cases h
      · unfold serveFilesystem at h
        dsimp only at h
        split_ifs at h with hdots hmount
        cases h
        exact ⟨hsplit, by simpa using hdots, rfl⟩
      · cases h

theorem reaches_of_opened (h : muxedHandler s now r = .opened endpoint key mount fullPath) :
    ∃ a, Reaches r a ∧ Passes s now a ∧ serveFile s a.path = .opened endpoint key mount fullPath ∧
      a.endpoint = endpoint ∧ a.key = key := by
  unfold muxedHandler at h
  split at h
  · cases h
  · cases h
  · rename_i path hroute
    unfold serveHTTP at h
    cases htoken : r.token with
    | none =>
      simp only [htoken] at h
      split_ifs at h
    | some token =>
      simp only [htoken] at h
      split_ifs at h with hoptions hnil hauth hdenied
      obtain ⟨hreaches, rfl⟩ :=
        reaches_of_split hroute hoptions htoken hnil (serveFile_opened h).1
      exact ⟨_, hreaches, ⟨by simpa using hauth, by simpa using hdenied⟩, h, rfl, rfl⟩

/-! The file as a pattern would name it -/

/-- The cleaned path of a file behind its endpoint. -/
def logicalPath (endpoint key : Text) : Text :=
  '/' :: List.intercalate ['/'] (endpoint :: kept key)

/-- A key that cleaning leaves as it is, below the endpoint: no empty segment and no dot. -/
def CleanKey (key : Text) : Prop := List.intercalate ['/'] (kept key) = key

theorem CleanKey.logicalPath_eq (h : CleanKey a.key) (hne : a.key ≠ []) :
    logicalPath a.endpoint a.key = a.path := by
  have hkept : kept a.key ≠ [] := by
    intro hnil
    rw [CleanKey, hnil] at h
    exact hne h.symm
  rw [logicalPath, intercalate_cons _ hkept, h]
  rfl

theorem CleanKey.plain (h : CleanKey key) (hne : key ≠ [])
    (hdots : contains dotdot (clean key) = false) : Plain key := by
  refine plain_of_kept h hne fun hup => ?_
  have hinfix : contains dotdot (clean key) = true := contains_iff.mpr (infix_clean hup)
  rw [hdots] at hinfix
  cases hinfix

/-- The file that a response opens is one that the session and the denied patterns allow. -/
structure Allowed (s : Server) (now : Time) (r : Request)
    (endpoint key mount fullPath : Text) : Prop where
  inside : Inside mount fullPath
  granted : ∃ token, r.token = some token ∧
    authorize s.agent now token (logicalPath endpoint key) = true
  not_denied : isDenied s.agent (logicalPath endpoint key) = false

theorem allowed_of_clean (hreaches : Reaches r a) (hpass : Passes s now a)
    (hserve : serveFile s a.path = .opened a.endpoint a.key mount fullPath)
    (hclean : CleanKey a.key) : Allowed s now r a.endpoint a.key mount fullPath := by
  have hkey := hreaches.key_ne
  obtain ⟨-, hdots, rfl⟩ := serveFile_opened hserve
  have hplain : Plain a.key := hclean.plain hkey hdots
  have hlogical := hclean.logicalPath_eq hkey
  refine ⟨?_, ⟨a.token, hreaches.token, ?_⟩, ?_⟩
  · rw [hplain.clean_eq]
    exact hplain.inside_join mount
  · rw [hlogical]
    exact hpass.authorized
  · rw [hlogical]
    exact hpass.not_denied

/- A server of one endpoint at the root of the file system and a session that may read all of it;
   denied is the file that the request names. -/
def denying (a : Asked) : Server where
  agent := {
    sessions := AList.insert a.token ⟨some [['/', '*']], 0⟩ ∅
    denied := [escape (logicalPath a.endpoint a.key)]
    store := none }
  endpoints := AList.insert (String.ofList a.endpoint)
    ⟨⟨["e"], none, .filesystem "/"⟩, none, false⟩ ∅
  cache := []
  cwd := none

theorem logicalPath_ne (h : ¬ CleanKey a.key) : a.path ≠ logicalPath a.endpoint a.key := by
  intro heq
  have htail : a.endpoint ++ '/' :: a.key = List.intercalate ['/'] (a.endpoint :: kept a.key) :=
    List.cons.inj heq |>.2
  by_cases hnil : kept a.key = []
  · have hlen := congrArg List.length htail
    simp [hnil] at hlen
  · rw [intercalate_cons _ hnil] at htail
    exact h (List.cons.inj (List.append_cancel_left htail)).2.symm

theorem isDenied_denying {path : Text} :
    isDenied (denying a).agent path = decide (path = logicalPath a.endpoint a.key) := by
  have hne : logicalPath a.endpoint a.key ≠ [] := List.cons_ne_nil _ _
  simp [isDenied, denying, pathMatch_escape hne]

theorem passes_denying (h : ¬ CleanKey a.key) : Passes (denying a) 0 a where
  authorized := by
    have hmatch : matchPattern ['/', '*'] a.path = true := by
      simp [matchPattern, cutSuffix, Asked.path]
    have hlookup : (denying a).agent.sessions.lookup a.token = some ⟨some [['/', '*']], 0⟩ :=
      AList.lookup_insert _
    simp [authorize, hlookup, Session.authorizes, hmatch]
  not_denied := by simp [isDenied_denying, logicalPath_ne h]

theorem isRooted_join_root (p : Text) : isRooted (join ['/'] p) = true := by
  rw [join, if_neg (by simp), isRooted_clean]
  rfl

theorem serveFile_denying (hsplit : splitKey a.path = some (a.endpoint, a.key))
    (hdots : contains dotdot (clean a.key) = false) :
    serveFile (denying a) a.path =
      .opened a.endpoint a.key ['/'] (join ['/'] (clean a.key)) := by
  have hmount : Path.abs none ['/'] = ['/'] := by decide
  have hfull : ∃ rest, Path.abs none (join ['/'] (clean a.key)) = '/' :: rest := by
    have hroot := isRooted_join_root (clean a.key)
    rw [Path.abs, if_pos hroot, clean, hroot, render, if_pos rfl]
    exact ⟨_, rfl⟩
  obtain ⟨rest, hrest⟩ := hfull
  have hchars : "/".toList = ['/'] := rfl
  have hlookup : (denying a).endpoints.lookup (String.ofList a.endpoint) =
      some ⟨⟨["e"], none, .filesystem "/"⟩, none, false⟩ := AList.lookup_insert _
  have hcwd : (denying a).cwd = none := rfl
  simp only [serveFile, hsplit, hlookup, Bool.false_eq_true, false_and, if_false, serveFilesystem,
    hdots, hcwd, hchars, hmount, hrest]
  simp

/-- Every file that a request may open, whatever the state of the server, is one that the session
and the denied patterns allow exactly when cleaning leaves the key as it is, or finds a dot-dot. -/
theorem opened_file_allowed_iff (r : Request) :
    (∀ s now endpoint key mount fullPath,
      muxedHandler s now r = .opened endpoint key mount fullPath →
        Allowed s now r endpoint key mount fullPath) ↔
      ∀ a, asked r = some a → contains dotdot (clean a.key) = true ∨ CleanKey a.key := by
  constructor
  · intro h a ha
    have hreaches := asked_iff.mp ha
    by_contra hneither
    obtain ⟨hdots, hclean⟩ := not_or.mp hneither
    have hpass := passes_denying hclean
    have hopened := (muxedHandler_of_reaches hreaches hpass).trans
      (serveFile_denying hreaches.split (by simpa using hdots))
    have hdenied := (h _ _ _ _ _ _ hopened).not_denied
    simp [isDenied_denying] at hdenied
  · intro h s now endpoint key mount fullPath hopened
    obtain ⟨a, hreaches, hpass, hserve, rfl, rfl⟩ := reaches_of_opened hopened
    obtain hdots | hclean := h a (asked_iff.mpr hreaches)
    · have hnone := (serveFile_opened hserve).2.1
      rw [hdots] at hnone
      cases hnone
    · exact allowed_of_clean hreaches hpass hserve hclean

/- A file below /e/b, asked for by way of /e/a: the dots are escaped. -/
def climbing : Request where
  method := "GET"
  url :=
    { path := "/files/e/a/../b/x".toList
      rawPath := "/files/e/a/%2e%2e/b/x".toList
      escapedPath := "/files/e/a/%2e%2e/b/x".toList
      decodes := by decide }
  token := some ['t']

def grantedA : Server where
  agent := {
    sessions := AList.insert ['t'] ⟨some ["/e/a/*".toList], 0⟩ ∅
    denied := []
    store := none }
  endpoints := AList.insert "e" ⟨⟨["e"], none, .filesystem "/"⟩, none, false⟩ ∅
  cache := []
  cwd := none

theorem opened_file_not_allowed :
    ¬ ∀ s now r endpoint key mount fullPath,
      muxedHandler s now r = .opened endpoint key mount fullPath →
        Allowed s now r endpoint key mount fullPath := by
  intro h
  have hopened : muxedHandler grantedA 0 climbing =
      .opened ['e'] "a/../b/x".toList ['/'] "/b/x".toList := by decide
  obtain ⟨token, htoken, hgranted⟩ := (h _ _ _ _ _ _ _ hopened).granted
  cases htoken
  exact absurd hgranted (by decide)

/- The trailing slash is canonical, and the denied pattern is not the path that is asked for. -/
example : muxedHandler (denying ⟨['t'], ['e'], "o/x/".toList⟩) 0
    ⟨"GET", ⟨"/files/e/o/x/".toList, [], "/files/e/o/x/".toList, by decide⟩, some ['t']⟩ =
      .opened ['e'] "o/x/".toList ['/'] "/o/x".toList := by decide

end Pivox.StorageAgent
