import Pivox.Json.Strings
import Pivox.Path.Match
import Pivox.StorageAgent.Endpoints

/-!
The access state of a storage agent: session grants and denied patterns in memory, and the tables
of the SQLite store that they are written through to.
-/

namespace Pivox.StorageAgent
open Path

/- Nanoseconds since the Unix epoch. -/
abbrev Time := Int

def second : Int := 1000000000

/- time.Truncate to the second, and the Unix seconds of a time. -/
def truncate (t : Time) : Time := t / second * second
def unix (t : Time) : Int := t / second

abbrev Token := Text

/- A nil slice of patterns is `none`. -/
structure Session where
  patterns : Option (List Text)
  expiry : Time
  deriving DecidableEq

abbrev Sessions := AList fun _ : Token => Session

structure SessionRow where
  patternsJson : Text
  expiryUnix : Int
  deriving DecidableEq

abbrev SessionRows := AList fun _ : Token => SessionRow

/- The tables of the local database, but for the endpoints; a pattern is a primary key. -/
structure Store where
  sessions : SessionRows
  denied : List Text

/- Without a store the agent runs in memory only. -/
structure AgentState where
  sessions : Sessions
  denied : List Text
  store : Option Store

def cutSuffix (s suffix : Text) : Option Text :=
  if suffix.isSuffixOf s then some (s.take (s.length - suffix.length)) else none

/-- A pattern that ends in `/*` grants all that lies below, any other is a shell pattern. -/
def matchPattern (pattern requestPath : Text) : Bool :=
  match cutSuffix pattern ['/', '*'] with
  | some start => (start ++ ['/']).isPrefixOf requestPath || decide (requestPath = start)
  | none => pathMatch pattern requestPath = some true

def Session.authorizes (s : Session) (now : Time) (requestPath : Text) : Bool :=
  !decide (now > s.expiry) && (s.patterns.getD []).any (matchPattern · requestPath)

def authorize (st : AgentState) (now : Time) (token requestPath : Text) : Bool :=
  (st.sessions.lookup token).any (·.authorizes now requestPath)

def isDenied (st : AgentState) (path : Text) : Bool :=
  st.denied.any fun pattern => pathMatch pattern path = some true

section keep
variable {κ β : Type} [DecidableEq κ]

/- The entries of which the condition holds. -/
def keep (p : β → Bool) (m : AList fun _ : κ => β) : AList fun _ : κ => β :=
  ⟨m.entries.filter fun e => p e.2, m.nodupKeys.sublist List.filter_sublist⟩

theorem lookup_keep (p : β → Bool) (m : AList fun _ : κ => β) (k : κ) :
    (keep p m).lookup k = (m.lookup k).filter p := by
  obtain ⟨entries, hnodup⟩ := m
  simp only [keep, AList.lookup]
  induction entries with
  | nil => rfl
  | cons e entries ih =>
    obtain ⟨k', v⟩ := e
    obtain ⟨hmem, hnodup⟩ := List.nodupKeys_cons.mp hnodup
    have ih := ih hnodup
    by_cases hk : k = k'
    · subst hk
      have hnone : List.dlookup k entries = none := List.dlookup_eq_none.mpr hmem
      cases hp : p v with
      | true => simp [hp, Option.filter]
      | false =>
        rw [hnone] at ih
        simp [hp, ih, Option.filter]
    · cases hp : p v with
      | true => simp [hp, hk, ih]
      | false => simp [hp, hk, ih]

end keep

/-! The statements of the store: `ok` is whether SQLite carries them out -/

def saveSession (store : Store) (ok : Bool) (token : Token) (patterns : Option (List Text))
    (expiry : Time) : Option Store :=
  if token = [] then none
  else if ok then
    some { store with
      sessions := store.sessions.insert token ⟨Json.marshal patterns, unix expiry⟩ }
  else none

def deleteSession (store : Store) (ok : Bool) (token : Token) : Option Store :=
  if ok then some { store with sessions := store.sessions.erase token } else none

def deleteExpiredSessions (store : Store) (ok : Bool) (now : Time) : Option Store :=
  if ok then
    some { store with sessions := keep (fun row => !decide (row.expiryUnix < unix now)) store.sessions }
  else none

/- One transaction: DELETE, then an INSERT of each that a pattern already there ignores. -/
def replaceDeniedPatterns (store : Store) (ok : Bool) (patterns : List Text) : Option Store :=
  if ok then some { store with denied := patterns.foldl (fun rows p => rows.insert p) [] } else none

def SessionRow.session (row : SessionRow) : Option Session :=
  (Json.unmarshal row.patternsJson).map (⟨·, row.expiryUnix * second⟩)

/- The rows in the order in which SQLite returns them; one that does not decode ends it. -/
def loadSessions (rows : List (Sigma fun _ : Token => SessionRow)) : Option (List (Token × Session)) :=
  rows.mapM fun r => (r.2.session).map (r.1, ·)

/-! The operations -/

/- A write goes to the store first, and to memory only if that succeeds. -/
def writeThrough (st : AgentState) (persist : Store → Option Store)
    (memory : AgentState → AgentState) : Bool × AgentState :=
  match st.store with
  | none => (true, memory st)
  | some store =>
    match persist store with
    | none => (false, st)
    | some store' => (true, { memory st with store := some store' })

def grant (st : AgentState) (ok : Bool) (token : Token) (patterns : Option (List Text))
    (expiry : Time) : Bool × AgentState :=
  writeThrough st (saveSession · ok token patterns (truncate expiry)) fun st =>
    { st with sessions := st.sessions.insert token ⟨patterns, truncate expiry⟩ }

def revoke (st : AgentState) (ok : Bool) (token : Token) : Bool × AgentState :=
  writeThrough st (deleteSession · ok token) fun st =>
    { st with sessions := st.sessions.erase token }

def flushExpired (st : AgentState) (ok : Bool) (now : Time) : Bool × AgentState :=
  writeThrough st (deleteExpiredSessions · ok now) fun st =>
    { st with sessions := keep (fun s => !decide (now > s.expiry)) st.sessions }

def updateDenied (st : AgentState) (ok : Bool) (patterns : List Text) : Bool × AgentState :=
  writeThrough st (replaceDeniedPatterns · ok patterns) fun st => { st with denied := patterns }

/- LoadFromStore of both, into fresh memory: the expired rows go first. Rows that do not decode
   leave the sessions empty. -/
def loadFromStore (store : Store) (now : Time) (rows : List (Sigma fun _ : Token => SessionRow))
    (patterns : List Text) : Option AgentState :=
  let flushed := keep (fun row => !decide (row.expiryUnix < unix now)) store.sessions
  if rows.Perm flushed.entries ∧ patterns.Perm store.denied then
    some { sessions := insertAll Prod.fst Prod.snd ((loadSessions rows).getD []) ∅
           denied := patterns
           store := some { store with sessions := flushed } }
  else none

end Pivox.StorageAgent
