import Mathlib.Data.List.Nodup
import Mathlib.Logic.Function.Basic

/-!
The browser's storage, shared by the tabs of one origin: each tab answers from a cache of its own,
and hears of the others' changes by broadcast messages.
-/

namespace Pivox.BrowserStorage
variable {V T : Type}

inductive Backend where
  | cookie | localStorage
  deriving DecidableEq, Repr

inductive Scope where
  | user | device
  deriving DecidableEq, Repr

/- A `parse` that throws is one that gives nothing. -/
structure StorageItem (V : Type) where
  name : String
  path : String := "/"
  parse : String → Option V
  broadcast : Bool := false
  scope : Scope := .device

/- The registry is keyed by name. -/
structure Registry (V : Type) where
  items : List (StorageItem V)
  nodup : (items.map StorageItem.name).Nodup

def Registry.find? (registry : Registry V) (name : String) : Option (StorageItem V) :=
  registry.items.find? fun item => item.name = name

/- What the tabs run on: the backend, whether there are broadcast channels, and whether a tab shows a
page under a cookie's path. -/
structure Platform (T : Type) where
  backend : Backend
  broadcastChannel : Bool
  underPath : T → String → Bool

/- The payload of a message, with the number of the sign-out that posted it, if one did. -/
structure ChangePayload where
  name : String
  value : Option String
  signOut : Option ℕ
  deriving DecidableEq, Repr

/- In the cache, `none` has not been observed and `some none` is cleared. -/
structure Tab where
  valueCache : String → Option (Option String)
  channel : Bool
  inbox : List ChangePayload

def Tab.fresh : Tab := ⟨fun _ => none, false, []⟩

/- The cookies or the local storage, by name. -/
structure State (T : Type) where
  store : String → Option String
  tabs : T → Tab
  signOuts : ℕ

def State.fresh : State T := ⟨fun _ => none, fun _ => .fresh, 0⟩

namespace State
variable [DecidableEq T]

def setTab (s : State T) (t : T) (tab : Tab) : State T :=
  { s with tabs := Function.update s.tabs t tab }

def writeCache (s : State T) (t : T) (name : String) (value : Option String) : State T :=
  s.setTab t
    { s.tabs t with valueCache := Function.update (s.tabs t).valueCache name (some value) }

def getChannel (p : Platform T) (s : State T) (t : T) : State T :=
  s.setTab t { s.tabs t with channel := p.broadcastChannel }

/- A message comes to every other tab that has opened its channel. -/
def postMessage (s : State T) (t : T) (payload : ChangePayload) : State T :=
  { s with
    tabs := fun t' =>
      if t' ≠ t ∧ (s.tabs t').channel then
        { s.tabs t' with inbox := (s.tabs t').inbox ++ [payload] }
      else s.tabs t' }

def notifyChange (p : Platform T) (s : State T) (t : T) (payload : ChangePayload)
    (broadcast : Bool) : State T :=
  let s := s.writeCache t payload.name payload.value
  if broadcast then
    let s := s.getChannel p t
    if p.broadcastChannel then s.postMessage t payload else s
  else s

def readRaw (p : Platform T) (s : State T) (t : T) (item : StorageItem V) : Option String :=
  match (s.tabs t).valueCache item.name with
  | some cached => cached
  | none =>
    match p.backend with
    | .cookie =>
      if p.underPath t item.path then (s.store item.name).filter (· ≠ "") else none
    | .localStorage => s.store item.name

/- What `get` returns; it also opens the tab's channel. -/
def get (p : Platform T) (s : State T) (t : T) (item : StorageItem V) : Option V :=
  (s.readRaw p t item).bind item.parse

/- `raw` is the value as a string; `set` throws where the item would not parse it. -/
def set (p : Platform T) (s : State T) (t : T) (item : StorageItem V) (raw : String) :
    Option (State T) :=
  if (item.parse raw).isSome then
    some (notifyChange p { s with store := Function.update s.store item.name (some raw) } t
      ⟨item.name, some raw, none⟩ item.broadcast)
  else none

def clear (p : Platform T) (s : State T) (t : T) (signOut : Option ℕ) (item : StorageItem V) :
    State T :=
  notifyChange p { s with store := Function.update s.store item.name none } t
    ⟨item.name, none, signOut⟩ item.broadcast

def clearUserScopedItems (p : Platform T) (registry : Registry V) (s : State T) (t : T) : State T :=
  (registry.items.filter fun item => item.scope = .user).foldl
    (fun s item => s.clear p t (some s.signOuts) item) s

/- The channel's listener puts the payload of a message into the cache. -/
def deliver (s : State T) (t : T) (i : ℕ) : Option (State T) :=
  ((s.tabs t).inbox[i]?).map fun payload =>
    let s := s.writeCache t payload.name payload.value
    s.setTab t { s.tabs t with inbox := (s.tabs t).inbox.eraseIdx i }

end State

inductive Event (T : Type) where
  | get (t : T)
  | set (t : T) (name : String) (raw : String)
  | clear (t : T) (name : String)
  | clearUserScopedItems (t : T)
  | subscribeToChanges (t : T)
  | deliver (t : T) (i : ℕ)
  | reload (t : T)

def step [DecidableEq T] (p : Platform T) (registry : Registry V) (s : State T) :
    Event T → Option (State T)
  | .get t | .subscribeToChanges t => some (s.getChannel p t)
  | .set t name raw => (registry.find? name).bind fun item => s.set p t item raw
  | .clear t name => (registry.find? name).map fun item => s.clear p t none item
  | .clearUserScopedItems t =>
    some { s.clearUserScopedItems p registry t with signOuts := s.signOuts + 1 }
  | .deliver t i => s.deliver t i
  | .reload t => some (s.setTab t .fresh)

end Pivox.BrowserStorage
