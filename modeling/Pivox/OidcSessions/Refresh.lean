import Pivox.Transition
import Mathlib.Data.List.Basic
import Mathlib.Logic.Function.Basic

/-!
The session rows and the token refresh of one process of the web server: a flight reads the row,
spends its refresh token, stores the new set and settles, each at an await of its own.
-/

namespace Pivox.OidcSessions
open Transition

/- Times are in milliseconds. -/
structure SessionTokens where
  accessToken : String
  refreshToken : Option String
  idToken : Option String
  expiresAt : Int
  deriving DecidableEq

structure TokenEndpointResponse where
  accessToken : String
  refreshToken : Option String
  idToken : Option String
  expiresIn : Option Int
  deriving DecidableEq

structure SessionRow where
  tokens : SessionTokens
  expiresAt : Int
  deriving DecidableEq

def expirySkewMs : Int := 30000

def sessionTtlMs : Int := 1000 * 60 * 60 * 24 * 30

/- The empty string counts as no token. -/
def truthy (token : Option String) : Option String :=
  token.filter fun token => token ≠ ""

def tokensFromResponse (response : TokenEndpointResponse) (now : Int) : SessionTokens :=
  ⟨response.accessToken, response.refreshToken, response.idToken,
    now + response.expiresIn.getD 300 * 1000⟩

def isTokenFresh (tokens : SessionTokens) (now : Int) : Bool :=
  decide (expirySkewMs ≤ tokens.expiresAt - now)

/- What refreshTokens makes of the response to a grant with `refreshToken`. -/
def refreshTokens (response : TokenEndpointResponse) (refreshToken : String) (now : Int) :
    SessionTokens :=
  let tokens := tokensFromResponse response now
  if truthy tokens.refreshToken = none then { tokens with refreshToken := some refreshToken }
  else tokens

/- Where the promise of a flight is. -/
inductive Phase where
  | reading
  | expired
  | checking (current : SessionTokens)
  | configuring (refreshToken : String)
  | granting (refreshToken : String)
  | storing (tokens : SessionTokens)
  | settled (result : Except String SessionTokens)

/- The owner of a flight is the call that started it. -/
structure Flight (C : Type) where
  id : String
  owner : C
  phase : Phase

inductive Call where
  | idle
  | joined (f : ℕ)
  | returned (f : ℕ) (result : Except String SessionTokens)

/- A promise is its place among the flights. Besides the rows and the variables of the process the
state counts how often a refresh token was sent and how often in vain, and keeps the refresh tokens
that the provider has issued, the sessions deleted and those rewritten by no flight. -/
structure State (C : Type) where
  rows : String → Option SessionRow
  inflightRefresh : String → Option ℕ
  flights : List (Flight C)
  calls : C → Call
  sends : String → ℕ
  failures : String → ℕ
  issued : List String
  deleted : List String
  rewritten : List String

namespace State
variable {C : Type} [DecidableEq C]

def initial : State C where
  rows _ := none
  inflightRefresh _ := none
  flights := []
  calls _ := .idle
  sends _ := 0
  failures _ := 0
  issued := []
  deleted := []
  rewritten := []

def issue (s : State C) (tokens : SessionTokens) : State C :=
  { s with issued := (truthy tokens.refreshToken).toList ++ s.issued }

def setPhase (s : State C) (f : ℕ) (phase : Phase) : State C :=
  { s with flights := s.flights.modify f fun flight => { flight with phase := phase } }

def settle (s : State C) (f : ℕ) (result : Except String SessionTokens) : State C :=
  s.setPhase f (.settled result)

def insertRow (s : State C) (id : String) (tokens : SessionTokens) (now : Int) : State C :=
  { s with rows := Function.update s.rows id (some ⟨tokens, now + sessionTtlMs⟩) }

def updateRow (s : State C) (id : String) (tokens : SessionTokens) (now : Int) : State C :=
  { s with
    rows := Function.update s.rows id ((s.rows id).map fun _ => ⟨tokens, now + sessionTtlMs⟩) }

def deleteRow (s : State C) (id : String) : State C :=
  { s with rows := Function.update s.rows id none, deleted := id :: s.deleted }

def send (s : State C) (refreshToken : String) : State C :=
  { s with sends := Function.update s.sends refreshToken (s.sends refreshToken + 1) }

def failGrant (s : State C) (refreshToken : String) : State C :=
  { s with failures := Function.update s.failures refreshToken (s.failures refreshToken + 1) }

/- The IIFE runs up to its first await, and its promise is put into the map. -/
def startFlight (s : State C) (c : C) (id : String) : State C :=
  { s with
    flights := s.flights ++ [⟨id, c, .reading⟩]
    inflightRefresh := Function.update s.inflightRefresh id (some s.flights.length)
    calls := Function.update s.calls c (.joined s.flights.length) }

def join (s : State C) (c : C) (f : ℕ) : State C :=
  { s with calls := Function.update s.calls c (.joined f) }

/- Only the call that started the flight has the `finally`. -/
def finish (s : State C) (c : C) (f : ℕ) (flight : Flight C)
    (result : Except String SessionTokens) : State C :=
  { s with
    calls := Function.update s.calls c (.returned f result)
    inflightRefresh :=
      if flight.owner = c then Function.update s.inflightRefresh flight.id none
      else s.inflightRefresh }

end State

/- The reads of other callers of getSession change nothing, and their lazy expiry is a
`deleteSession`. A flight does its own: `select` and `deleteExpired`. -/
inductive Event (C : Type) where
  | createSession (id : String) (tokens : SessionTokens) (now : Int)
  | updateSession (id : String) (tokens : SessionTokens) (now : Int)
  | deleteSession (id : String)
  | refreshSession (c : C) (id : String)
  | select (f : ℕ) (now : Int)
  | deleteExpired (f : ℕ)
  | check (f : ℕ) (now : Int)
  | getOidcConfig (f : ℕ) (failure : Option String)
  | refreshTokenGrant (f : ℕ) (response : Except String TokenEndpointResponse) (now : Int)
  | update (f : ℕ) (now : Int)
  | resume (c : C)

variable {C : Type} [DecidableEq C]

namespace State

def selectRow (s : State C) (f : ℕ) (id : String) (now : Int) : State C :=
  match s.rows id with
  | none => s.settle f (.error "refreshSession: no live session row")
  | some row =>
    if row.expiresAt < now then s.setPhase f .expired else s.setPhase f (.checking row.tokens)

def checkTokens (s : State C) (f : ℕ) (current : SessionTokens) (now : Int) : State C :=
  if isTokenFresh current now then s.settle f (.ok current)
  else
    match truthy current.refreshToken with
    | none => s.settle f (.error "refreshSession: session has no refresh token")
    | some refreshToken => s.setPhase f (.configuring refreshToken)

def configured (s : State C) (f : ℕ) (refreshToken : String) : Option String → State C
  | some failure => s.settle f (.error failure)
  | none => (s.send refreshToken).setPhase f (.granting refreshToken)

def granted (s : State C) (f : ℕ) (refreshToken : String) (now : Int) :
    Except String TokenEndpointResponse → State C
  | .error failure => (s.failGrant refreshToken).settle f (.error failure)
  | .ok response =>
    (s.issue (tokensFromResponse response now)).setPhase f
      (.storing (refreshTokens response refreshToken now))

end State

def step (s : State C) : Event C → Option (State C)
  | .createSession id tokens now =>
    match s.rows id with
    | none => some ((s.insertRow id tokens now).issue tokens)
    | some _ => none
  | .updateSession id tokens now =>
    some { (s.updateRow id tokens now).issue tokens with rewritten := id :: s.rewritten }
  | .deleteSession id => some (s.deleteRow id)
  | .refreshSession c id =>
    match s.calls c with
    | .idle =>
      match s.inflightRefresh id with
      | some f => some (s.join c f)
      | none => some (s.startFlight c id)
    | _ => none
  | .select f now =>
    match s.flights[f]? with
    | some ⟨id, _, .reading⟩ => some (s.selectRow f id now)
    | _ => none
  | .deleteExpired f =>
    match s.flights[f]? with
    | some ⟨id, _, .expired⟩ =>
      some ((s.deleteRow id).settle f (.error "refreshSession: no live session row"))
    | _ => none
  | .check f now =>
    match s.flights[f]? with
    | some ⟨_, _, .checking current⟩ => some (s.checkTokens f current now)
    | _ => none
  | .getOidcConfig f failure =>
    match s.flights[f]? with
    | some ⟨_, _, .configuring refreshToken⟩ => some (s.configured f refreshToken failure)
    | _ => none
  | .refreshTokenGrant f response now =>
    match s.flights[f]? with
    | some ⟨_, _, .granting refreshToken⟩ => some (s.granted f refreshToken now response)
    | _ => none
  | .update f now =>
    match s.flights[f]? with
    | some ⟨id, _, .storing tokens⟩ => some ((s.updateRow id tokens now).settle f (.ok tokens))
    | _ => none
  | .resume c =>
    match s.calls c with
    | .joined f =>
      match s.flights[f]? with
      | some ⟨id, owner, .settled result⟩ =>
        some (s.finish c f ⟨id, owner, .settled result⟩ result)
      | _ => none
    | _ => none

/-- The set has no refresh token that the provider has issued before. -/
def Issues (s : State C) (refreshToken : Option String) : Prop :=
  ∀ token ∈ truthy refreshToken, token ∉ s.issued

instance (s : State C) (refreshToken : Option String) : Decidable (Issues s refreshToken) :=
  inferInstanceAs (Decidable (∀ token ∈ truthy refreshToken, token ∉ s.issued))

/-- The provider rotates the refresh token at every grant that succeeds, session ids are not used
twice, and the sets given to createSession and updateSession come newly from the provider. -/
def Rotates (s : State C) : Event C → Prop
  | .createSession id tokens _ => id ∉ s.deleted ∧ Issues s tokens.refreshToken
  | .updateSession _ tokens _ => Issues s tokens.refreshToken
  | .refreshTokenGrant _ (.ok response) _ =>
    truthy response.refreshToken ≠ none ∧ Issues s response.refreshToken
  | _ => True

instance (s : State C) : ∀ ev : Event C, Decidable (Rotates s ev)
  | .createSession id tokens _ =>
    inferInstanceAs (Decidable (id ∉ s.deleted ∧ Issues s tokens.refreshToken))
  | .updateSession _ tokens _ => inferInstanceAs (Decidable (Issues s tokens.refreshToken))
  | .refreshTokenGrant _ (.ok response) _ =>
    inferInstanceAs (Decidable (truthy response.refreshToken ≠ none ∧
      Issues s response.refreshToken))
  | .refreshTokenGrant _ (.error _) _ => .isTrue trivial
  | .deleteSession _ | .refreshSession _ _ | .select _ _ | .deleteExpired _ | .check _ _
  | .getOidcConfig _ _ | .update _ _ | .resume _ => .isTrue trivial

end Pivox.OidcSessions
