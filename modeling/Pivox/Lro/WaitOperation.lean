import Pivox.Transition
import Mathlib.Data.List.Basic
import Mathlib.Logic.Function.Basic

/-!
WaitOperation of one process: the read of the operation, the registration of a listener, the
notification of the operation's end and the LISTEN session that it comes by are separate steps, and a
wakeup can be lost between them.
-/

namespace Pivox.Lro
open Transition

variable {C O : Type} [DecidableEq C] [DecidableEq O]

/- A call of WaitOperation: it has read that the operation is not done, waits on its channel, or has
been woken or given up and reads the operation again. -/
inductive Caller (O : Type) where
  | idle
  | checked (opID : O)
  | waiting (opID : O)
  | reading (opID : O)
  | returned
  deriving DecidableEq

/- The rows say whether an operation is done. Notifications are under way from the database to the
session that listens for them, or from a CancelOperation of this process that has committed. -/
structure State (C O : Type) where
  rows : O → Option Bool
  callers : C → Caller O
  listeners : O → List C
  channels : C → Bool
  listening : Bool
  notifications : List O
  cancelled : List O

namespace State

def initial : State C O where
  rows _ := none
  callers _ := .idle
  listeners _ := []
  channels _ := false
  listening := false
  notifications := []
  cancelled := []

def setRow (s : State C O) (opID : O) (row : Option Bool) : State C O :=
  { s with rows := Function.update s.rows opID row }

def setCaller (s : State C O) (c : C) (caller : Caller O) : State C O :=
  { s with callers := Function.update s.callers c caller }

/- The trigger of the table: only the transition from not done to done notifies, and only a session
that is listening hears it. -/
def commitDone (s : State C O) (opID : O) : State C O :=
  { s.setRow opID (some true) with
    notifications := if s.listening then s.notifications ++ [opID] else s.notifications }

/- A channel holds one token, and a second one is dropped. -/
def notifyListeners (s : State C O) (opID : O) : State C O :=
  { s with channels := fun c => decide (c ∈ s.listeners opID) || s.channels c }

def register (s : State C O) (c : C) (opID : O) : State C O :=
  { s.setCaller c (.waiting opID) with
    listeners := Function.update s.listeners opID (s.listeners opID ++ [c])
    channels := Function.update s.channels c false }

def unregister (s : State C O) (c : C) (opID : O) : State C O :=
  { s.setCaller c .returned with
    listeners := Function.update s.listeners opID ((s.listeners opID).erase c) }

end State

/- CompleteOperation, FailOperation and the cancellations of other processes are `done`. -/
inductive Event (C O : Type) where
  | create (opID : O)
  | done (opID : O)
  | cancelOperation (opID : O)
  | notifyCancelled (opID : O)
  | delete (opID : O)
  | connect
  | disconnect
  | deliver
  | read (c : C) (opID : O)
  | register (c : C)
  | receive (c : C)
  | contextDone (c : C)
  | return (c : C)

def step (s : State C O) : Event C O → Option (State C O)
  | .create opID => if s.rows opID = none then some (s.setRow opID (some false)) else none
  | .done opID =>
    match s.rows opID with
    | none => none
    | some true => some s
    | some false => some (s.commitDone opID)
  | .cancelOperation opID =>
    match s.rows opID with
    | none => none
    | some true => some s
    | some false => some { s.commitDone opID with cancelled := s.cancelled ++ [opID] }
  | .notifyCancelled opID =>
    if opID ∈ s.cancelled then
      some { s.notifyListeners opID with cancelled := s.cancelled.erase opID }
    else none
  | .delete opID => if s.rows opID = some true then some (s.setRow opID none) else none
  | .connect => if s.listening then none else some { s with listening := true }
  | .disconnect => some { s with listening := false, notifications := [] }
  | .deliver =>
    match s.notifications with
    | [] => none
    | opID :: notifications => some { s.notifyListeners opID with notifications := notifications }
  | .read c opID =>
    match s.callers c with
    | .idle => some (s.setCaller c (if s.rows opID = some false then .checked opID else .returned))
    | _ => none
  | .register c =>
    match s.callers c with
    | .checked opID => some (s.register c opID)
    | _ => none
  | .receive c =>
    match s.callers c with
    | .waiting opID =>
      if s.channels c then
        some { s.setCaller c (.reading opID) with channels := Function.update s.channels c false }
      else none
    | _ => none
  | .contextDone c =>
    match s.callers c with
    | .waiting opID => some (s.setCaller c (.reading opID))
    | _ => none
  | .return c =>
    match s.callers c with
    | .reading opID => some (s.unregister c opID)
    | _ => none

/-- A call that waits with an empty channel for an operation that is done, with nothing under way to
wake it though the session listens. -/
def LostWakeup (s : State C O) : Prop :=
  ∃ c opID, s.callers c = .waiting opID ∧ s.channels c = false ∧ s.rows opID = some true ∧
    opID ∉ s.notifications ∧ opID ∉ s.cancelled ∧ s.listening = true

/- A notification of the operation is under way. -/
def State.UnderWay (s : State C O) (opID : O) : Prop :=
  opID ∈ s.notifications ∨ opID ∈ s.cancelled

/- A call is between its first read and its wakeup. -/
def State.Awaited (s : State C O) (opID : O) : Prop :=
  ∃ c, s.callers c = .checked opID ∨ s.callers c = .waiting opID ∧ s.channels c = false

/-- While an operation is awaited its end is committed only to a session that listens, or by this
process, and the session is not lost with the notification; and no call is between its read and its
registration when the last notification comes. -/
def Heard (s : State C O) : Event C O → Prop
  | .done opID => s.rows opID = some false → s.Awaited opID → s.listening = true
  | .disconnect => ∀ opID ∈ s.notifications, s.Awaited opID → opID ∈ s.cancelled
  | .deliver => ∀ opID notifications, s.notifications = opID :: notifications →
      (∃ c, s.callers c = .checked opID) → opID ∈ notifications ∨ opID ∈ s.cancelled
  | .notifyCancelled opID => (∃ c, s.callers c = .checked opID) →
      opID ∈ s.notifications ∨ opID ∈ s.cancelled.erase opID
  | _ => True

/-! Every call that awaits the end of an operation is owed a notification -/

structure Owed (s : State C O) : Prop where
  listed : ∀ c opID, s.callers c = .waiting opID → c ∈ s.listeners opID
  underWay : ∀ opID, s.rows opID = some true → s.Awaited opID → s.UnderWay opID

variable {s s' : State C O} {c : C} {opID : O}

omit [DecidableEq C] [DecidableEq O] in
theorem Owed.not_lost (h : Owed s) : ¬ LostWakeup s := by
  rintro ⟨c, opID, hwaiting, hempty, hdone, hnotifications, hcancelled, -⟩
  obtain hmem | hmem := h.underWay opID hdone ⟨c, .inr ⟨hwaiting, hempty⟩⟩
  · exact hnotifications hmem
  · exact hcancelled hmem

namespace Owed

omit [DecidableEq C] [DecidableEq O] in
theorem initial : Owed (State.initial : State C O) where
  listed c opID h := by
    cases h
  underWay opID h := by
    cases h

omit [DecidableEq C] in
theorem setRow (h : Owed s) {row : Option Bool} (hrow : row ≠ some true) :
    Owed (s.setRow opID row) where
  listed := h.listed
  underWay opID' hdone hawaited := by
    by_cases hop : opID' = opID
    · subst hop
      simp only [State.setRow, Function.update_self] at hdone
      exact absurd hdone hrow
    · simp only [State.setRow, Function.update_of_ne hop] at hdone
      exact h.underWay opID' hdone hawaited

omit [DecidableEq C] in
theorem commitDone (h : Owed s) (hheard : s.Awaited opID → s.listening = true) :
    Owed (s.commitDone opID) where
  listed := h.listed
  underWay opID' hdone hawaited := by
    by_cases hop : opID' = opID
    · subst hop
      simp [State.UnderWay, State.commitDone, hheard hawaited]
    · simp only [State.commitDone, State.setRow, Function.update_of_ne hop] at hdone
      obtain hmem | hmem := h.underWay opID' hdone hawaited
      · left
        simp only [State.commitDone]
        split
        · exact List.mem_append_left _ hmem
        · exact hmem
      · exact .inr hmem

omit [DecidableEq C] in
theorem cancelOperation (h : Owed s) :
    Owed { s.commitDone opID with cancelled := s.cancelled ++ [opID] } where
  listed := h.listed
  underWay opID' hdone hawaited := by
    by_cases hop : opID' = opID
    · subst hop
      simp [State.UnderWay]
    · simp only [State.commitDone, State.setRow, Function.update_of_ne hop] at hdone
      obtain hmem | hmem := h.underWay opID' hdone hawaited
      · left
        simp only [State.commitDone]
        split
        · exact List.mem_append_left _ hmem
        · exact hmem
      · exact .inr (List.mem_append_left _ hmem)

/- A notification of `opID` is taken away as its listeners are notified; what is left of the
notifications is all that the others had. -/
omit [DecidableEq O] in
theorem notifyListeners (h : Owed s) {notifications cancelled : List O}
    (hrest : ∀ opID' ≠ opID, s.UnderWay opID' → opID' ∈ notifications ∨ opID' ∈ cancelled)
    (hchecked : (∃ c, s.callers c = .checked opID) → opID ∈ notifications ∨ opID ∈ cancelled) :
    Owed { s.notifyListeners opID with notifications := notifications, cancelled := cancelled } where
  listed := h.listed
  underWay opID' hdone hawaited := by
    obtain ⟨c, hc | ⟨hc, hempty⟩⟩ := hawaited
    · by_cases hop : opID' = opID
      · subst hop
        exact hchecked ⟨c, hc⟩
      · exact hrest opID' hop (h.underWay opID' hdone ⟨c, .inl hc⟩)
    · simp only [State.notifyListeners, Bool.or_eq_false_iff, decide_eq_false_iff_not] at hempty
      have hop : opID' ≠ opID := by
        rintro rfl
        exact hempty.1 (h.listed c opID' hc)
      exact hrest opID' hop (h.underWay opID' hdone ⟨c, .inr ⟨hc, hempty.2⟩⟩)

/- A caller moves on; it may come to await only what it has just read not to be done. -/
omit [DecidableEq O] in
theorem setCaller (h : Owed s) {caller : Caller O} (hwaiting : ∀ opID, caller ≠ .waiting opID)
    (hchecked : ∀ opID, caller = .checked opID → s.rows opID ≠ some true) :
    Owed (s.setCaller c caller) where
  listed c' opID' hc' := by
    by_cases hcaller : c' = c
    · subst hcaller
      simp only [State.setCaller, Function.update_self] at hc'
      exact absurd hc' (hwaiting opID')
    · simp only [State.setCaller, Function.update_of_ne hcaller] at hc'
      exact h.listed c' opID' hc'
  underWay opID' hdone hawaited := by
    obtain ⟨c', hc'⟩ := hawaited
    by_cases hcaller : c' = c
    · subst hcaller
      simp only [State.setCaller, Function.update_self] at hc'
      obtain hc' | ⟨hc', -⟩ := hc'
      · exact absurd hdone (hchecked opID' hc')
      · exact absurd hc' (hwaiting opID')
    · simp only [State.setCaller, Function.update_of_ne hcaller] at hc'
      exact h.underWay opID' hdone ⟨c', hc'⟩

theorem register (h : Owed s) (hc : s.callers c = .checked opID) : Owed (s.register c opID) where
  listed c' opID' hc' := by
    by_cases hcaller : c' = c
    · subst hcaller
      simp only [State.register, State.setCaller, Function.update_self, Caller.waiting.injEq] at hc'
      subst hc'
      simp [State.register]
    · simp only [State.register, State.setCaller, Function.update_of_ne hcaller] at hc'
      have hmem := h.listed c' opID' hc'
      by_cases hop : opID' = opID
      · subst hop
        simp [State.register, hmem]
      · simpa [State.register, Function.update_of_ne hop] using hmem
  underWay opID' hdone hawaited := by
    obtain ⟨c', hc'⟩ := hawaited
    by_cases hcaller : c' = c
    · subst hcaller
      simp only [State.register, State.setCaller, Function.update_self, reduceCtorEq, false_or,
        Caller.waiting.injEq] at hc'
      rw [← hc'.1] at hdone ⊢
      exact h.underWay opID hdone ⟨c', .inl hc⟩
    · simp only [State.register, State.setCaller, Function.update_of_ne hcaller] at hc'
      exact h.underWay opID' hdone ⟨c', hc'⟩

theorem unregister (h : Owed s) : Owed (s.unregister c opID) where
  listed c' opID' hc' := by
    by_cases hcaller : c' = c
    · subst hcaller
      simp [State.unregister, State.setCaller] at hc'
    · simp only [State.unregister, State.setCaller, Function.update_of_ne hcaller] at hc'
      have hmem := h.listed c' opID' hc'
      by_cases hop : opID' = opID
      · subst hop
        simpa [State.unregister, List.mem_erase_of_ne hcaller] using hmem
      · simpa [State.unregister, Function.update_of_ne hop] using hmem
  underWay opID' hdone hawaited := by
    obtain ⟨c', hc'⟩ := hawaited
    by_cases hcaller : c' = c
    · subst hcaller
      simp [State.unregister, State.setCaller] at hc'
    · simp only [State.unregister, State.setCaller, Function.update_of_ne hcaller] at hc'
      exact h.underWay opID' hdone ⟨c', hc'⟩

omit [DecidableEq O] in
/- What becomes of the channel of a caller that reads again does not matter. -/
theorem stopWaiting (h : Owed s) {channel : Bool} :
    Owed { s.setCaller c (.reading opID) with
      channels := Function.update s.channels c channel } where
  listed := by
    have hreading : Owed (s.setCaller c (.reading opID)) := h.setCaller (by simp) (by simp)
    exact hreading.listed
  underWay opID' hdone hawaited := by
    obtain ⟨c', hc'⟩ := hawaited
    by_cases hcaller : c' = c
    · subst hcaller
      simp [State.setCaller] at hc'
    · simp only [State.setCaller, Function.update_of_ne hcaller] at hc'
      exact h.underWay opID' hdone ⟨c', hc'⟩

omit [DecidableEq C] [DecidableEq O] in
theorem disconnect (h : Owed s)
    (hheard : ∀ opID ∈ s.notifications, s.Awaited opID → opID ∈ s.cancelled) :
    Owed { s with listening := false, notifications := [] } where
  listed := h.listed
  underWay opID' hdone hawaited := by
    obtain hmem | hmem := h.underWay opID' hdone hawaited
    · exact .inr (hheard opID' hmem hawaited)
    · exact .inr hmem

theorem step {ev : Event C O} (h : Owed s) (hstep : step s ev = some s') (hheard : Heard s ev) :
    Owed s' := by
  cases ev with
  | create opID =>
    simp only [Lro.step, Option.ite_none_right_eq_some, Option.some.injEq] at hstep
    rw [← hstep.2]
    exact h.setRow (by simp)
  | done opID =>
    simp only [Lro.step] at hstep
    split at hstep
    · cases hstep
    · cases hstep
      exact h
    · rename_i hrow
      cases hstep
      exact h.commitDone (hheard hrow)
  | cancelOperation opID =>
    simp only [Lro.step] at hstep
    split at hstep
    · cases hstep
    · cases hstep
      exact h
    · cases hstep
      exact h.cancelOperation
  | notifyCancelled opID =>
    simp only [Lro.step, Option.ite_none_right_eq_some, Option.some.injEq] at hstep
    rw [← hstep.2]
    refine h.notifyListeners (fun opID' hop hunder => ?_) hheard
    obtain hmem | hmem := hunder
    · exact .inl hmem
    · exact .inr ((List.mem_erase_of_ne hop).2 hmem)
  | delete opID =>
    simp only [Lro.step, Option.ite_none_right_eq_some, Option.some.injEq] at hstep
    rw [← hstep.2]
    exact h.setRow (by simp)
  | connect =>
    simp only [Lro.step, Option.ite_none_left_eq_some, Option.some.injEq] at hstep
    rw [← hstep.2]
    exact ⟨h.listed, h.underWay⟩
  | disconnect =>
    cases hstep
    exact h.disconnect hheard
  | deliver =>
    simp only [Lro.step] at hstep
    split at hstep
    · cases hstep
    · rename_i opID notifications hqueue
      cases hstep
      refine h.notifyListeners (fun opID' hop hunder => ?_) (hheard opID notifications hqueue)
      simp only [State.UnderWay, hqueue, List.mem_cons, hop, false_or] at hunder
      exact hunder
  | read c opID =>
    simp only [Lro.step] at hstep
    split at hstep
    · cases hstep
      apply h.setCaller
      · intro opID'
        split <;> simp
      · intro opID' hcaller
        split at hcaller
        · rename_i hrow
          cases hcaller
          simp [hrow]
        · cases hcaller
    · cases hstep
  | register c =>
    simp only [Lro.step] at hstep
    split at hstep
    · rename_i hc
      cases hstep
      exact h.register hc
    · cases hstep
  | receive c =>
    simp only [Lro.step] at hstep
    split at hstep
    · simp only [Option.ite_none_right_eq_some, Option.some.injEq] at hstep
      rw [← hstep.2]
      exact h.stopWaiting
    · cases hstep
  | contextDone c =>
    simp only [Lro.step] at hstep
    split at hstep
    · cases hstep
      exact h.setCaller (by simp) (by simp)
    · cases hstep
  | «return» c =>
    simp only [Lro.step] at hstep
    split at hstep
    · cases hstep
      exact h.unregister
    · cases hstep

end Owed

/-- A run that every notification reaches in time loses no wakeup. -/
theorem wait_operation_wakes (hrun : Runs step Heard State.initial s) : ¬ LostWakeup s := by
  have howed : Owed s :=
    hrun.invariant (I := Owed) .initial fun _ _ _ h hheard hstep => h.step hstep hheard
  exact howed.not_lost

def completed : List (Event Unit Unit) :=
  [.connect, .create (), .read () (), .register (), .done (), .deliver]

theorem wait_operation_wakes_completed :
    ∃ s, exec step State.initial completed = some s ∧ ¬ LostWakeup s := by
  obtain ⟨s, hs, hrun⟩ : ∃ s, exec step State.initial completed = some s ∧
      Runs step Heard State.initial s := by
    refine ⟨_, rfl, Runs.tail (a := .deliver) (Runs.tail (a := .done ()) (Runs.tail
      (a := .register ()) (Runs.tail (a := .read () ()) (Runs.tail (a := .create ()) (Runs.tail
        (a := .connect) (.refl _) trivial rfl) trivial rfl) trivial rfl) trivial rfl)
      (fun _ _ => rfl) rfl) ?_ rfl⟩
    intro opID notifications _ hchecked
    obtain ⟨c, hc⟩ := hchecked
    cases hc
  exact ⟨s, hs, wait_operation_wakes hrun⟩

/-! The operation is completed, and its notification delivered, between the read and the
registration -/

def completedBetween : List (Event Unit Unit) :=
  [.connect, .create (), .read () (), .done (), .deliver, .register ()]

theorem wait_operation_sleeps : ¬ ∀ s : State Unit Unit,
    Runs step (fun _ _ => True) State.initial s → ¬ LostWakeup s := by
  intro h
  apply h _ (.of_exec completedBetween rfl (by decide))
  refine ⟨(), (), rfl, rfl, rfl, ?_, ?_, rfl⟩
  · exact List.not_mem_nil
  · exact List.not_mem_nil

end Pivox.Lro
