import Pivox.BrowserStorage.Operations
import Pivox.Transition

/-!
Signing out clears the user's items in every tab that holds no value of them, or hears of it by a
broadcast that no older value overtakes.
-/

namespace Pivox.BrowserStorage
open Transition

variable {V T : Type} [DecidableEq T] {p : Platform T} {registry : Registry V} {s s' : State T}
  {t t' : T} {item : StorageItem V} {name : String} {payload : ChangePayload}

/-! What a change does to a tab -/

namespace State
variable {broadcast : Bool}

@[simp] theorem setTab_self {tab : Tab} : (s.setTab t tab).tabs t = tab :=
  Function.update_self ..

theorem setTab_of_ne {tab : Tab} (h : t' ≠ t) : (s.setTab t tab).tabs t' = s.tabs t' :=
  Function.update_of_ne h ..

theorem notifyChange_store : (s.notifyChange p t payload broadcast).store = s.store := by
  unfold notifyChange
  dsimp only
  split
  · split <;> rfl
  · rfl

theorem notifyChange_signOuts : (s.notifyChange p t payload broadcast).signOuts = s.signOuts := by
  unfold notifyChange
  dsimp only
  split
  · split <;> rfl
  · rfl

/- The tab that makes the change puts it into its cache. -/
theorem notifyChange_self (p : Platform T) (s : State T) (t : T) (payload : ChangePayload)
    (broadcast : Bool) : ∃ channel, (s.notifyChange p t payload broadcast).tabs t =
    ⟨Function.update (s.tabs t).valueCache payload.name (some payload.value), channel,
      (s.tabs t).inbox⟩ := by
  unfold notifyChange
  dsimp only
  split
  · split
    · exact ⟨p.broadcastChannel, by simp [postMessage, getChannel, writeCache]⟩
    · exact ⟨p.broadcastChannel, by simp [getChannel, writeCache]⟩
  · exact ⟨(s.tabs t).channel, by simp [writeCache]⟩

/- Another one gets a message of it, if it has opened its channel. -/
theorem notifyChange_of_ne (h : t' ≠ t) : (s.notifyChange p t payload broadcast).tabs t' =
    { s.tabs t' with
      inbox := (s.tabs t').inbox ++
        if broadcast ∧ p.broadcastChannel ∧ (s.tabs t').channel then [payload] else [] } := by
  unfold notifyChange
  dsimp only
  split
  · next hbroadcast =>
    split
    · next hp =>
      simp only [postMessage, getChannel, writeCache, setTab_of_ne h, hbroadcast, hp, h, ne_eq,
        not_false_eq_true, true_and]
      split <;> simp
    · next hp => simp [getChannel, writeCache, setTab_of_ne h, hp]
  · next hbroadcast => simp [writeCache, setTab_of_ne h, hbroadcast]

end State

/-! What stays cleared -/

/- The sign-out's message about an item. -/
def ChangePayload.isSignOut (payload : ChangePayload) (name : String) (n : ℕ) : Prop :=
  payload.name = name ∧ payload.value = none ∧ payload.signOut = some n

/- A tab holds no value of an item, or is still to hear that it was cleared. -/
structure Tab.Settled (tab : Tab) (name : String) (n : ℕ) : Prop where
  cleared : (∃ raw, tab.valueCache name = some (some raw)) →
    ∃ payload ∈ tab.inbox, payload.isSignOut name n

structure Settled (s : State T) (name : String) (n : ℕ) : Prop where
  store : s.store name = none
  tabs : ∀ t, (s.tabs t).Settled name n

namespace Tab.Settled
variable {tab : Tab} {n : ℕ}

theorem fresh : Tab.fresh.Settled name n where
  cleared := by
    rintro ⟨raw, hraw⟩
    cases hraw

theorem write (h : tab.Settled name n) {name' : String} {value : Option String} {channel : Bool}
    (hvalue : name' = name → value = none) :
    Tab.Settled ⟨Function.update tab.valueCache name' (some value), channel, tab.inbox⟩ name n where
  cleared := by
    rintro ⟨raw, hraw⟩
    dsimp only at hraw
    by_cases hname : name' = name
    · subst hname
      rw [Function.update_self, hvalue rfl] at hraw
      cases hraw
    · rw [Function.update_of_ne (Ne.symm hname)] at hraw
      exact h.cleared ⟨raw, hraw⟩

theorem receive (h : tab.Settled name n) (messages : List ChangePayload) :
    Tab.Settled { tab with inbox := tab.inbox ++ messages } name n where
  cleared := by
    intro hraw
    obtain ⟨payload, hmem, hsignOut⟩ := h.cleared hraw
    exact ⟨payload, List.mem_append_left _ hmem, hsignOut⟩

theorem deliver (h : tab.Settled name n) {i : ℕ} (hpayload : tab.inbox[i]? = some payload)
    (horder : payload.name = name → payload.value.isSome →
      ∃ payload' ∈ tab.inbox.eraseIdx i, payload'.isSignOut name n) :
    Tab.Settled ⟨Function.update tab.valueCache payload.name (some payload.value), tab.channel,
      tab.inbox.eraseIdx i⟩ name n where
  cleared := by
    rintro ⟨raw, hraw⟩
    dsimp only at hraw
    by_cases hname : payload.name = name
    · subst hname
      rw [Function.update_self, Option.some.injEq] at hraw
      exact horder rfl (Option.isSome_of_mem hraw)
    · rw [Function.update_of_ne (Ne.symm hname)] at hraw
      obtain ⟨payload', hmem, hsignOut⟩ := h.cleared ⟨raw, hraw⟩
      obtain ⟨j, hj⟩ := List.mem_iff_getElem?.mp hmem
      refine ⟨payload', List.mem_eraseIdx_iff_getElem?.mpr ⟨j, ?_, hj⟩, hsignOut⟩
      rintro rfl
      cases hj.symm.trans hpayload
      exact hname hsignOut.1

end Tab.Settled

namespace Settled
variable {n : ℕ}

theorem notifyChange (h : Settled s name n) {broadcast : Bool}
    (hvalue : payload.name = name → payload.value = none) :
    Settled (s.notifyChange p t payload broadcast) name n where
  store := by rw [State.notifyChange_store, h.store]
  tabs t' := by
    by_cases ht : t' = t
    · subst ht
      obtain ⟨channel, hself⟩ := State.notifyChange_self p s t' payload broadcast
      rw [hself]
      exact (h.tabs t').write hvalue
    · rw [State.notifyChange_of_ne ht]
      exact (h.tabs t').receive _

omit [DecidableEq T] in
theorem update (h : Settled s name n) {name' : String} {value : Option String}
    (hvalue : name' = name → value = none) :
    Settled { s with store := Function.update s.store name' value } name n where
  store := by
    by_cases hname : name' = name
    · subst hname
      simp [hvalue]
    · simp [Function.update_of_ne (Ne.symm hname), h.store]
  tabs := h.tabs

theorem clear (h : Settled s name n) (signOut : Option ℕ) (item : StorageItem V) :
    Settled (s.clear p t signOut item) name n :=
  (h.update fun _ => rfl).notifyChange fun _ => rfl

theorem set (h : Settled s name n) {raw : String} (hname : item.name ≠ name)
    (hset : s.set p t item raw = some s') : Settled s' name n := by
  simp only [State.set, Option.ite_none_right_eq_some, Option.some.injEq] at hset
  obtain ⟨-, rfl⟩ := hset
  exact (h.update fun heq => absurd heq hname).notifyChange fun heq => absurd heq hname

theorem clearAll (h : Settled s name n) (items : List (StorageItem V)) :
    Settled (items.foldl (fun s item => s.clear p t (some s.signOuts) item) s) name n := by
  induction items generalizing s with
  | nil => exact h
  | cons item items ih => exact ih (h.clear _ item)

theorem setTab (h : Settled s name n) {tab : Tab} (htab : tab.Settled name n) :
    Settled (s.setTab t tab) name n where
  store := h.store
  tabs t' := by
    by_cases ht : t' = t
    · subst ht
      rw [State.setTab_self]
      exact htab
    · rw [State.setTab_of_ne ht]
      exact h.tabs t'

end Settled

/-! Signing out -/

/- Where another tab holds a value, the item is broadcast and the tab has opened its channel. -/
def Heard (p : Platform T) (s : State T) (t : T) (item : StorageItem V) : Prop :=
  ∀ t' ≠ t, (∃ raw, (s.tabs t').valueCache item.name = some (some raw)) →
    item.broadcast ∧ p.broadcastChannel ∧ (s.tabs t').channel

def Event.sets : Event T → String → Prop
  | .set _ name' _, name => name' = name
  | _, _ => False

/- An older value is delivered to a tab only before the message of the sign-out. -/
def InOrder (name : String) (n : ℕ) (s : State T) : Event T → Prop
  | .deliver t i => ∀ payload ∈ (s.tabs t).inbox[i]?, payload.name = name → payload.value.isSome →
      ∃ payload' ∈ (s.tabs t).inbox.eraseIdx i, payload'.isSignOut name n
  | _ => True

theorem Settled.step {n : ℕ} (h : Settled s name n) {ev : Event T} (hsets : ¬ ev.sets name)
    (horder : InOrder name n s ev) (hstep : step p registry s ev = some s') : Settled s' name n := by
  cases ev with
  | get t =>
    cases hstep
    exact h.setTab ⟨(h.tabs t).cleared⟩
  | set t name' raw =>
    obtain ⟨item, hitem, hset⟩ := Option.bind_eq_some_iff.mp hstep
    have hname : item.name = name' := by simpa using List.find?_some (show _ = _ from hitem)
    exact h.set (fun heq => hsets (hname.symm.trans heq)) hset
  | clear t name' =>
    obtain ⟨item, -, rfl⟩ := Option.map_eq_some_iff.mp hstep
    exact h.clear none item
  | clearUserScopedItems t =>
    cases hstep
    exact ⟨(h.clearAll _).store, (h.clearAll _).tabs⟩
  | subscribeToChanges t =>
    cases hstep
    exact h.setTab ⟨(h.tabs t).cleared⟩
  | deliver t i =>
    obtain ⟨payload, hpayload, rfl⟩ := Option.map_eq_some_iff.mp hstep
    refine ⟨h.store, fun t' => ?_⟩
    by_cases ht : t' = t
    · subst ht
      simp only [State.setTab_self, State.writeCache]
      exact (h.tabs t').deliver hpayload fun hname hvalue => horder payload hpayload hname hvalue
    · simp only [State.setTab_of_ne ht, State.writeCache]
      exact h.tabs t'
  | reload t =>
    cases hstep
    exact h.setTab .fresh

theorem Heard.clear (h : Heard p s t item) (signOut : Option ℕ) (item' : StorageItem V) :
    Heard p (s.clear p t signOut item') t item := by
  intro t' ht
  unfold State.clear
  rw [State.notifyChange_of_ne ht]
  exact h t' ht

theorem Heard.settled (h : Heard p s t item) {n : ℕ} :
    Settled (s.clear p t (some n) item) item.name n where
  store := by simp [State.clear, State.notifyChange_store]
  tabs t' := by
    constructor
    rintro ⟨raw, hraw⟩
    unfold State.clear at *
    by_cases ht : t' = t
    · subst ht
      obtain ⟨channel, hself⟩ := State.notifyChange_self p
        { s with store := Function.update s.store item.name none } t' ⟨item.name, none, some n⟩
        item.broadcast
      rw [hself] at hraw
      simp at hraw
    · rw [State.notifyChange_of_ne ht] at hraw ⊢
      have hheard := h t' ht ⟨raw, hraw⟩
      exact ⟨⟨item.name, none, some n⟩, by simp [hheard], rfl, rfl, rfl⟩

theorem Heard.clearAll (h : Heard p s t item) {items : List (StorageItem V)} (hitem : item ∈ items) :
    Settled (items.foldl (fun s item => s.clear p t (some s.signOuts) item) s) item.name
      s.signOuts := by
  induction items generalizing s with
  | nil => cases hitem
  | cons item' items ih =>
    rw [List.foldl_cons]
    obtain rfl | hmem := List.mem_cons.mp hitem
    · exact h.settled.clearAll items
    · have hsignOuts : (s.clear p t (some s.signOuts) item').signOuts = s.signOuts :=
        State.notifyChange_signOuts
      have hrest := ih (h.clear (some s.signOuts) item') hmem
      rwa [hsignOuts] at hrest

/-- After a sign-out, once its messages have been delivered and as long as no tab sets the item
again, no tab has a value of it, if every tab that had one at the sign-out heard of it and none was
told an older value afterwards. -/
theorem sign_out_clears {s₁ s₂ s₃ : State T} (hitem : item ∈ registry.items)
    (hscope : item.scope = .user) (hheard : Heard p s₁ t item)
    (hsignOut : step p registry s₁ (.clearUserScopedItems t) = some s₂)
    (hrun : Runs (step p registry)
      (fun s ev => ¬ ev.sets item.name ∧ InOrder item.name s₁.signOuts s ev) s₂ s₃)
    (hdelivered : ∀ t, ∀ payload ∈ (s₃.tabs t).inbox,
      ¬ payload.isSignOut item.name s₁.signOuts) (t' : T) : s₃.get p t' item = none := by
  have huser : item ∈ registry.items.filter fun item => item.scope = .user :=
    List.mem_filter.mpr ⟨hitem, decide_eq_true hscope⟩
  have hsettled₂ : Settled s₂ item.name s₁.signOuts := by
    cases hsignOut
    exact ⟨(hheard.clearAll huser).store, (hheard.clearAll huser).tabs⟩
  have hsettled₃ : Settled s₃ item.name s₁.signOuts :=
    hrun.invariant (I := fun s => Settled s item.name s₁.signOuts) hsettled₂
      fun _ _ _ h hev hstep => h.step hev.1 hev.2 hstep
  have hraw : s₃.readRaw p t' item = none := by
    unfold State.readRaw
    split
    · next cached hcached =>
      cases cached with
      | none => rfl
      | some raw =>
        obtain ⟨payload, hmem, hpayload⟩ := (hsettled₃.tabs t').cleared ⟨raw, hcached⟩
        exact absurd hpayload (hdelivered t' payload hmem)
    · rw [hsettled₃.store]
      cases p.backend <;> simp
  rw [State.get, hraw, Option.bind_none]

/-! The items of the application -/

inductive Value where
  | string (s : String)
  | bool (b : Bool)
  deriving DecidableEq, Repr

def THEME : StorageItem Value where
  name := "pivox.theme"
  path := "/"
  broadcast := true
  parse v := if v = "light" ∨ v = "dark" ∨ v = "system" then some (.string v) else none

def LAST_EMAIL : StorageItem Value where
  name := "pivox.login.last-email"
  path := "/auth/login"
  parse v := if 0 < v.length then some (.string v) else none

def ACTIVE_ORG : StorageItem Value where
  name := "pivox.active-organization"
  path := "/"
  scope := .user
  parse v := if 0 < v.length then some (.string v) else none

def SIDEBAR_OPEN : StorageItem Value where
  name := "pivox.sidebar-state"
  path := "/"
  parse v := if v = "true" then some (.bool true) else if v = "false" then some (.bool false) else none

def allItems : Registry Value where
  items := [THEME, LAST_EMAIL, ACTIVE_ORG, SIDEBAR_OPEN]
  nodup := by decide

/-! Two tabs of the web application, in one of which an organization is selected -/

def web : Platform Bool := ⟨.cookie, true, fun _ _ => true⟩

def selected : List (Event Bool) := [.set true "pivox.active-organization" "organizations/a"]

/- The same item as one that is broadcast, and a sign-out in the other tab. -/
def SHARED_ORG : StorageItem Value := { ACTIVE_ORG with broadcast := true }

def sharedItems : Registry Value where
  items := [THEME, SHARED_ORG]
  nodup := by decide

def sharedState : State Bool := (exec (step web sharedItems) .fresh selected).get rfl

def signedOut : State Bool :=
  (step web sharedItems sharedState (.clearUserScopedItems false)).get rfl

theorem sign_out_clears_shared :
    signedOut.get web true SHARED_ORG = some (.string "organizations/a") ∧
      ∃ s, exec (step web sharedItems) signedOut [.get false, .deliver true 0] = some s ∧
        ∀ t, s.get web t SHARED_ORG = none := by
  have hitem : SHARED_ORG ∈ sharedItems.items := by simp [sharedItems]
  have hheard : Heard web sharedState false SHARED_ORG := by
    intro t ht
    cases t with
    | false => exact absurd rfl ht
    | true => exact fun _ => ⟨rfl, rfl, rfl⟩
  refine ⟨by decide, _, rfl, sign_out_clears hitem rfl hheard rfl
    (((Runs.refl _).tail (a := .get false) ⟨id, trivial⟩ rfl).tail (a := .deliver true 0) ⟨id, ?_⟩
      rfl) ?_⟩
  · rintro payload ⟨⟩ _ hvalue
    cases hvalue
  · intro t payload hmem
    cases t <;> cases hmem

theorem not_sign_out_clears : ¬ ∀ (p : Platform Bool) (s₁ s₂ s₃ : State Bool) (t t' : Bool)
    (item : StorageItem Value),
    Runs (step p allItems) (fun _ _ => True) .fresh s₁ → item ∈ allItems.items →
      item.scope = .user → step p allItems s₁ (.clearUserScopedItems t) = some s₂ →
        Runs (step p allItems) (fun _ ev => ¬ ev.sets item.name) s₂ s₃ →
          (∀ t, ∀ payload ∈ (s₃.tabs t).inbox, ¬ payload.isSignOut item.name s₁.signOuts) →
            s₃.get p t' item = none := by
  intro h
  have hget := h web _ _ _ false true ACTIVE_ORG (.of_exec selected rfl (by decide)) (by simp [allItems])
    rfl rfl (.refl _) (by intro t payload hmem; cases t <;> cases hmem)
  exact absurd hget (by decide)

end Pivox.BrowserStorage
