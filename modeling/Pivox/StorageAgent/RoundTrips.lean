import Pivox.Path.Match
import Pivox.Transition
import Mathlib.Data.List.AList

/-!
Requests and their responses on an agent's stream: each roundTrip registers a channel under its
correlation id, and the receive loop sends the messages with that id to it.
-/

namespace Pivox.StorageAgent.Stream
open Path Transition

variable {K β : Type}

structure ControlMessage (β : Type) where
  id : Text
  body : β
  deriving DecidableEq

inductive Outcome (β : Type) where
  | response (resp : ControlMessage β)
  | streamClosed
  | timedOut
  | sendFailed
  deriving DecidableEq

/- A roundTrip: what it does once it has registered its channel, up to its deferred delete. -/
inductive Phase (β : Type) where
  | notCalled
  | sending
  | selecting
  | leaving (outcome : Outcome β)
  | returned (outcome : Outcome β)
  deriving DecidableEq

/- A channel with one slot. -/
structure Chan (β : Type) where
  slot : Option (ControlMessage β)
  closed : Bool
  deriving DecidableEq

/- Where ReceiveLoop is: in Recv, before the lookup of an id, at a channel, in
   handleServerMessage, or past an error of Recv. -/
inductive Loop (K β : Type) where
  | receiving
  | routing (resp : ControlMessage β)
  | delivering (call : K) (resp : ControlMessage β)
  | handling (msg : ControlMessage β)
  | failed
  | returned
  deriving DecidableEq

structure State (K β : Type) where
  phase : K → Phase β
  chan : K → Chan β
  pending : AList fun _ : Text => K
  loop : Loop K β
  failed : Bool

def initial : State K β :=
  { phase := fun _ => .notCalled, chan := fun _ => ⟨none, false⟩, pending := ∅, loop := .receiving,
    failed := false }

inductive Event (K β : Type) where
  | call (call : K)
  | sent (call : K)
  | sendFailed (call : K)
  | receive (call : K)
  | timeOut (call : K)
  | leave (call : K)
  | fail
  | recv (msg : ControlMessage β)
  | recvError
  | lookup
  | deliver
  | handle
  | closePending

section step
variable [DecidableEq K]

def State.goTo (s : State K β) (k : K) (phase : Phase β) : State K β :=
  { s with phase := Function.update s.phase k phase }

@[simp, grind =] theorem State.goTo_phase (s : State K β) (k k' : K) (phase : Phase β) :
    (s.goTo k phase).phase k' = if k' = k then phase else s.phase k' := Function.update_apply ..

@[simp, grind =] theorem State.goTo_chan (s : State K β) (k : K) (phase : Phase β) :
    (s.goTo k phase).chan = s.chan := rfl

@[simp, grind =] theorem State.goTo_pending (s : State K β) (k : K) (phase : Phase β) :
    (s.goTo k phase).pending = s.pending := rfl

@[simp, grind =] theorem State.goTo_loop (s : State K β) (k : K) (phase : Phase β) :
    (s.goTo k phase).loop = s.loop := rfl

@[simp, grind =] theorem State.goTo_failed (s : State K β) (k : K) (phase : Phase β) :
    (s.goTo k phase).failed = s.failed := rfl

/- `ids` are the ids that the calls draw. A section under the mutex is one step, and so is each
   operation on a channel. -/
def step (ids : K → Text) (s : State K β) : Event K β → Option (State K β)
  | .call k =>
    match s.phase k with
    | .notCalled => some { s.goTo k .sending with pending := s.pending.insert (ids k) k }
    | _ => none
  | .sent k =>
    match s.phase k with
    | .sending => some (s.goTo k .selecting)
    | _ => none
  | .sendFailed k =>
    match s.phase k with
    | .sending => some (s.goTo k (.leaving .sendFailed))
    | _ => none
  | .receive k =>
    match s.phase k, s.chan k with
    | .selecting, ⟨some resp, closed⟩ => some
      { s.goTo k (.leaving (.response resp)) with chan := Function.update s.chan k ⟨none, closed⟩ }
    | .selecting, ⟨none, true⟩ => some (s.goTo k (.leaving .streamClosed))
    | _, _ => none
  | .timeOut k =>
    match s.phase k with
    | .selecting => some (s.goTo k (.leaving .timedOut))
    | _ => none
  | .leave k =>
    match s.phase k with
    | .leaving outcome =>
      some { s.goTo k (.returned outcome) with pending := s.pending.erase (ids k) }
    | _ => none
  | .fail => if s.failed then none else some { s with failed := true }
  | .recv msg =>
    match s.loop, s.failed with
    | .receiving, false => some { s with loop := if msg.id = [] then .handling msg else .routing msg }
    | _, _ => none
  | .recvError =>
    match s.loop, s.failed with
    | .receiving, true => some { s with loop := .failed }
    | _, _ => none
  | .lookup =>
    match s.loop with
    | .routing resp => some
      { s with
        loop :=
          match s.pending.lookup resp.id with
          | some k => .delivering k resp
          | none => .handling resp }
    | _ => none
  | .deliver =>
    match s.loop with
    | .delivering k resp =>
      match s.chan k with
      | ⟨none, false⟩ => some
        { s with chan := Function.update s.chan k ⟨some resp, false⟩, loop := .receiving }
      | _ => none
    | _ => none
  | .handle =>
    match s.loop with
    | .handling _ => some { s with loop := .receiving }
    | _ => none
  | .closePending =>
    match s.loop with
    | .failed => some
      { s with
        chan := fun k =>
          if s.pending.entries.any fun e => decide (e.2 = k) then { s.chan k with closed := true }
          else s.chan k
        pending := ∅
        loop := .returned }
    | _ => none

end step

def Phase.waits : Phase β → Bool
  | .sending | .selecting => true
  | _ => false

/- Past the select, the response of the call included. -/
def Phase.outcome : Phase β → Option (Outcome β)
  | .leaving outcome | .returned outcome => some outcome
  | _ => none

/-- The loop is at a full channel, and the call that alone receives from it does so no more. -/
def Blocked (s : State K β) : Prop :=
  ∃ k resp, s.loop = .delivering k resp ∧ (s.chan k).slot ≠ none ∧ (s.phase k).outcome ≠ none

/- Whether the lookup of the loop would find a channel whose slot is taken. -/
def State.slotTaken (s : State K β) : Bool :=
  match s.loop with
  | .routing resp => (s.pending.lookup resp.id).any fun k => (s.chan k).slot.isSome
  | _ => false

/-- No message is looked up for a call whose slot is taken. -/
def Fresh (s : State K β) : Event K β → Prop
  | .lookup => s.slotTaken = false
  | _ => True

instance (s : State K β) (e : Event K β) : Decidable (Fresh s e) :=
  match e with
  | .lookup => inferInstanceAs (Decidable (s.slotTaken = false))
  | .call _ | .sent _ | .sendFailed _ | .receive _ | .timeOut _ | .leave _ | .fail | .recv _
  | .recvError | .deliver | .handle | .closePending => isTrue trivial

theorem fresh_lookup {s : State K β} {resp : ControlMessage β} (hloop : s.loop = .routing resp) :
    Fresh s .lookup ↔ ∀ k, s.pending.lookup resp.id = some k → (s.chan k).slot = none := by
  simp only [Fresh, State.slotTaken, hloop]
  cases s.pending.lookup resp.id <;> simp

/- What happens without a message from the stream and without a time-out. -/
def Event.prompt : Event K β → Bool
  | .call _ | .timeOut _ | .fail | .recv _ => false
  | _ => true

variable [DecidableEq K]

/-- The call returns by steps that need no message and no time-out, and that meet the condition. -/
def Promptly (ids : K → Text) (C : State K β → Event K β → Prop) (s : State K β) (k : K) : Prop :=
  ∃ s' outcome, Runs (step ids) (fun s e => C s e ∧ e.prompt = true) s s' ∧
    s'.phase k = .returned outcome

/-- The receive loop delivers: it is not stuck, what a call returns is its own and stays what it is,
and when the stream has failed the calls that had registered before return at once. -/
structure Delivers (ids : K → Text) (C : State K β → Event K β → Prop) (s : State K β) : Prop where
  unblocked : ¬ Blocked s
  own : ∀ k resp, s.phase k = .returned (.response resp) → resp.id = ids k
  once : ∀ k outcome, s.phase k = .returned outcome →
    ∀ t, Runs (step ids) (fun _ _ => True) s t → t.phase k = .returned outcome
  ends : ∀ before after k, Runs (step ids) C initial before → before.phase k ≠ .notCalled →
    step ids before .fail = some after → Runs (step ids) C after s → Promptly ids C s k

/-! What a step can do -/

variable {ids : K → Text} {s s' : State K β} {e : Event K β}

inductive Moves (ids : K → Text) (s : State K β) : Event K β → State K β → Prop where
  | call {k : K} (hnew : s.phase k = .notCalled) :
      Moves ids s (.call k) { s.goTo k .sending with pending := s.pending.insert (ids k) k }
  | sent {k : K} (hsending : s.phase k = .sending) : Moves ids s (.sent k) (s.goTo k .selecting)
  | sendFailed {k : K} (hsending : s.phase k = .sending) :
      Moves ids s (.sendFailed k) (s.goTo k (.leaving .sendFailed))
  | response {k : K} {resp : ControlMessage β} {closed : Bool} (hselecting : s.phase k = .selecting)
      (hchan : s.chan k = ⟨some resp, closed⟩) :
      Moves ids s (.receive k)
        { s.goTo k (.leaving (.response resp)) with
          chan := Function.update s.chan k ⟨none, closed⟩ }
  | streamClosed {k : K} (hselecting : s.phase k = .selecting) (hchan : s.chan k = ⟨none, true⟩) :
      Moves ids s (.receive k) (s.goTo k (.leaving .streamClosed))
  | timeOut {k : K} (hselecting : s.phase k = .selecting) :
      Moves ids s (.timeOut k) (s.goTo k (.leaving .timedOut))
  | leave {k : K} {outcome : Outcome β} (hleaving : s.phase k = .leaving outcome) :
      Moves ids s (.leave k)
        { s.goTo k (.returned outcome) with pending := s.pending.erase (ids k) }
  | fail (hfailed : s.failed = false) : Moves ids s .fail { s with failed := true }
  | recv {msg : ControlMessage β} (hloop : s.loop = .receiving) (hfailed : s.failed = false) :
      Moves ids s (.recv msg)
        { s with loop := if msg.id = [] then .handling msg else .routing msg }
  | recvError (hloop : s.loop = .receiving) (hfailed : s.failed = true) :
      Moves ids s .recvError { s with loop := .failed }
  | found {resp : ControlMessage β} {k : K} (hloop : s.loop = .routing resp)
      (hpending : s.pending.lookup resp.id = some k) :
      Moves ids s .lookup { s with loop := .delivering k resp }
  | notFound {resp : ControlMessage β} (hloop : s.loop = .routing resp)
      (hpending : s.pending.lookup resp.id = none) :
      Moves ids s .lookup { s with loop := .handling resp }
  | deliver {k : K} {resp : ControlMessage β} (hloop : s.loop = .delivering k resp)
      (hchan : s.chan k = ⟨none, false⟩) :
      Moves ids s .deliver
        { s with chan := Function.update s.chan k ⟨some resp, false⟩, loop := .receiving }
  | handle {msg : ControlMessage β} (hloop : s.loop = .handling msg) :
      Moves ids s .handle { s with loop := .receiving }
  | closePending (hloop : s.loop = .failed) :
      Moves ids s .closePending
        { s with
          chan := fun k =>
            if s.pending.entries.any fun e => decide (e.2 = k) then { s.chan k with closed := true }
            else s.chan k
          pending := ∅
          loop := .returned }

theorem moves_of_step (h : step ids s e = some s') : Moves ids s e s' := by
  revert h
  fun_cases step ids s e <;> intro h <;> cases h
  case case15.refl hfailed => exact .fail (by simpa using hfailed)
  case case20.refl resp hloop =>
    cases hpending : s.pending.lookup resp.id with
    | some k => exact .found hloop hpending
    | none => exact .notFound hloop hpending
  all_goals constructor <;> assumption

theorem Moves.step (h : Moves ids s e s') : Stream.step ids s e = some s' := by
  cases h with
  | found hloop hpending => simp [Stream.step, hloop, hpending]
  | notFound hloop hpending => simp [Stream.step, hloop, hpending]
  | _ => simp [Stream.step, *]

/-! What every step keeps -/

omit [DecidableEq K] in
theorem lookup_insert (m : AList fun _ : Text => K) (id id' : Text) (k : K) :
    (m.insert id k).lookup id' = if id' = id then some k else m.lookup id' := by
  by_cases h : id' = id
  · subst h
    simp
  · rw [AList.lookup_insert_ne h, if_neg h]

omit [DecidableEq K] in
theorem lookup_erase (m : AList fun _ : Text => K) (id id' : Text) :
    (m.erase id).lookup id' = if id' = id then none else m.lookup id' := by
  by_cases h : id' = id
  · subst h
    simp
  · rw [AList.lookup_erase_ne h, if_neg h]

/- The entries of `pending` are of calls that have not returned, under their ids, and every call
   that waits has one as long as the loop goes on. -/
structure Registered (ids : K → Text) (s : State K β) : Prop where
  entry : ∀ id k, s.pending.lookup id = some k →
    ids k = id ∧ s.phase k ≠ .notCalled ∧ ∀ outcome, s.phase k ≠ .returned outcome
  waiting : ∀ k, s.loop ≠ .returned → (s.phase k).waits = true → s.pending.lookup (ids k) = some k
  opened : ∀ k, s.loop ≠ .returned → (s.chan k).closed = false
  failing : s.loop = .failed ∨ s.loop = .returned → s.failed = true

/- The messages that a call has, will have or is about to be sent carry its id. -/
structure Owned (ids : K → Text) (s : State K β) : Prop where
  held : ∀ k resp, s.loop = .delivering k resp → resp.id = ids k
  slot : ∀ k resp, (s.chan k).slot = some resp → resp.id = ids k
  answered : ∀ k resp, (s.phase k).outcome = some (.response resp) → resp.id = ids k

theorem Registered.step (hids : Function.Injective ids) (h : Registered ids s)
    (hstep : step ids s e = some s') : Registered ids s' := by
  obtain ⟨hentry, hwaiting, hopened, hfailing⟩ := h
  cases moves_of_step hstep with
  | call hnew =>
    constructor
    · simp only [State.goTo_phase, lookup_insert]
      grind -linarith
    -- an id that another call draws is another entry
    · simp only [State.goTo_phase, State.goTo_loop, lookup_insert, hids.eq_iff]
      grind -linarith
    · exact hopened
    · exact hfailing
  | leave hleaving =>
    constructor
    · simp only [State.goTo_phase, lookup_erase]
      grind -linarith
    · simp only [State.goTo_phase, State.goTo_loop, lookup_erase, hids.eq_iff]
      grind -linarith [Phase.waits]
    · exact hopened
    · exact hfailing
  | closePending hloop => exact ⟨by simp, by simp, by simp, fun _ => hfailing (.inl hloop)⟩
  | _ =>
    constructor <;>
      simp only [State.goTo_phase, State.goTo_chan, State.goTo_pending, State.goTo_loop,
        State.goTo_failed, Function.update_apply] <;>
      grind -linarith [Phase.waits]

theorem Owned.step (hregistered : Registered ids s) (h : Owned ids s)
    (hstep : step ids s e = some s') : Owned ids s' := by
  obtain ⟨hheld, hslot, hanswered⟩ := h
  have hentry := hregistered.entry
  cases moves_of_step hstep with
  | _ =>
    constructor <;> grind -linarith [Function.update_apply, Phase.outcome]

theorem returned_step {k : K} {outcome : Outcome β} (h : s.phase k = .returned outcome)
    (hstep : step ids s e = some s') : s'.phase k = .returned outcome := by
  cases moves_of_step hstep with
  | _ => grind -linarith [Function.update_apply]

theorem called_step {k : K} (h : s.phase k ≠ .notCalled) (hstep : step ids s e = some s') :
    s'.phase k ≠ .notCalled := by
  cases moves_of_step hstep with
  | _ => grind -linarith [Function.update_apply]

/- Only the loop fills a slot. -/
def Roomy (s : State K β) : Prop := ∀ k resp, s.loop = .delivering k resp → (s.chan k).slot = none

theorem Roomy.step (h : Roomy s) (hfresh : Fresh s e) (hstep : step ids s e = some s') :
    Roomy s' := by
  unfold Roomy at *
  cases moves_of_step hstep with
  | found hloop hpending =>
    intro k' resp' heq
    cases heq
    exact (fresh_lookup hloop).mp hfresh _ hpending
  | _ => grind -linarith [Function.update_apply]

theorem Blocked.step (h : Blocked s) (hstep : step ids s e = some s') : Blocked s' := by
  obtain ⟨k, resp, hloop, hslot, houtcome⟩ := h
  refine ⟨k, resp, ?_⟩
  cases moves_of_step hstep with
  | _ => grind -linarith [Function.update_apply, Phase.outcome]

/- Once the stream has failed, a call that had registered before is not left waiting. -/
structure Ending (s : State K β) (k : K) : Prop where
  failed : s.failed = true
  called : s.phase k ≠ .notCalled
  closed : s.loop = .returned → (s.phase k).waits = true → (s.chan k).closed = true

theorem Ending.step {k : K} (hregistered : Registered ids s) (h : Ending s k)
    (hstep : step ids s e = some s') : Ending s' k := by
  have hcalled' := called_step h.called hstep
  obtain ⟨hfailed, hcalled, hclosed⟩ := h
  have hwaiting := hregistered.waiting k
  cases moves_of_step hstep with
  | closePending hloop =>
    refine ⟨hfailed, hcalled', fun _ hwaits => ?_⟩
    have hentry := AList.mem_lookup_iff.mp (hwaiting (by simp [hloop]) hwaits)
    have hany : (s.pending.entries.any fun e => decide (e.2 = k)) = true :=
      List.any_eq_true.mpr ⟨_, hentry, by simp⟩
    simp [hany]
  | _ =>
    refine ⟨?_, hcalled', ?_⟩ <;> grind -linarith [Function.update_apply, Phase.waits]

/-! A call returns without its time-out -/

theorem promptly_head {C : State K β → Event K β → Prop} {k : K}
    (hmove : Moves ids s e s') (hc : C s e) (hprompt : e.prompt = true) (h : Promptly ids C s' k) :
    Promptly ids C s k := by
  obtain ⟨t, outcome, hrun, hreturned⟩ := h
  exact ⟨t, outcome, ((Runs.refl s).tail ⟨hc, hprompt⟩ hmove.step).trans hrun, hreturned⟩

theorem promptly_of_leaving {k : K} {outcome : Outcome β} (h : s.phase k = .leaving outcome) :
    Promptly ids Fresh s k := by
  refine promptly_head (.leave h) trivial rfl ⟨_, outcome, .refl _, ?_⟩
  simp

theorem promptly_of_selecting {k : K} (h : s.phase k = .selecting)
    (hclosed : (s.chan k).closed = true) : Promptly ids Fresh s k := by
  cases hchan : s.chan k with
  | mk slot closed =>
    obtain rfl : closed = true := by simpa [hchan] using hclosed
    cases slot with
    | none =>
      have hmove : Moves ids s (.receive k) _ := .streamClosed h hchan
      exact promptly_head hmove trivial rfl (promptly_of_leaving ((State.goTo_phase ..).trans (if_pos rfl)))
    | some resp =>
      have hmove : Moves ids s (.receive k) _ := .response h hchan
      exact promptly_head hmove trivial rfl (promptly_of_leaving ((State.goTo_phase ..).trans (if_pos rfl)))

theorem promptly_of_loop_returned {k : K} (h : Ending s k) (hloop : s.loop = .returned) :
    Promptly ids Fresh s k := by
  cases hphase : s.phase k with
  | notCalled => exact absurd hphase h.called
  | sending =>
    have hclosed := h.closed hloop (by simp [hphase, Phase.waits])
    have hmove : Moves ids s (.sent k) _ := .sent hphase
    exact promptly_head hmove trivial rfl (promptly_of_selecting (by simp) (by simpa using hclosed))
  | selecting => exact promptly_of_selecting hphase (h.closed hloop (by simp [hphase, Phase.waits]))
  | leaving outcome => exact promptly_of_leaving hphase
  | returned outcome => exact ⟨s, outcome, .refl s, hphase⟩

/- What the way of the loop to its end counts on. -/
structure Goes (ids : K → Text) (s : State K β) (k : K) : Prop where
  registered : Registered ids s
  roomy : Roomy s
  ending : Ending s k

theorem Goes.step (hids : Function.Injective ids) {k : K} (h : Goes ids s k) (hfresh : Fresh s e)
    (hstep : Stream.step ids s e = some s') : Goes ids s' k where
  registered := h.registered.step hids hstep
  roomy := h.roomy.step hfresh hstep
  ending := h.ending.step h.registered hstep

section prompt
variable (hids : Function.Injective ids) {k : K}
include hids

theorem Goes.head (h : Goes ids s k) (hmove : Moves ids s e s') (hfresh : Fresh s e)
    (hprompt : e.prompt = true) (next : Goes ids s' k → Promptly ids Fresh s' k) : Promptly ids Fresh s k :=
  promptly_head hmove hfresh hprompt (next (h.step hids hfresh hmove.step))

theorem Goes.promptly_of_failed (h : Goes ids s k) (hloop : s.loop = .failed) :
    Promptly ids Fresh s k :=
  h.head hids (.closePending hloop) trivial rfl fun hgoes => promptly_of_loop_returned hgoes.ending rfl

theorem Goes.promptly_of_receiving (h : Goes ids s k) (hloop : s.loop = .receiving) :
    Promptly ids Fresh s k :=
  h.head hids (.recvError hloop h.ending.failed) trivial rfl fun hgoes =>
    hgoes.promptly_of_failed hids rfl

theorem Goes.promptly_of_handling (h : Goes ids s k) {msg : ControlMessage β}
    (hloop : s.loop = .handling msg) : Promptly ids Fresh s k :=
  h.head hids (.handle hloop) trivial rfl fun hgoes => hgoes.promptly_of_receiving hids rfl

theorem Goes.promptly_of_delivering (h : Goes ids s k) {k' : K} {resp : ControlMessage β}
    (hloop : s.loop = .delivering k' resp) : Promptly ids Fresh s k := by
  have hchan : s.chan k' = ⟨none, false⟩ := by
    have hslot := h.roomy k' resp hloop
    have hclosed := h.registered.opened k' (by simp [hloop])
    cases hc : s.chan k' with
    | mk slot closed => simp_all
  exact h.head hids (.deliver hloop hchan) trivial rfl fun hgoes =>
    hgoes.promptly_of_receiving hids rfl

theorem Goes.promptly_of_notFound (h : Goes ids s k) {resp : ControlMessage β}
    (hloop : s.loop = .routing resp) (hpending : s.pending.lookup resp.id = none) :
    Promptly ids Fresh s k := by
  have hfresh : Fresh s .lookup := (fresh_lookup hloop).mpr (by simp [hpending])
  exact h.head hids (.notFound hloop hpending) hfresh rfl fun hgoes =>
    hgoes.promptly_of_handling hids rfl

theorem Goes.promptly_of_found (h : Goes ids s k) {resp : ControlMessage β} {k' : K}
    (hloop : s.loop = .routing resp) (hpending : s.pending.lookup resp.id = some k')
    (hslot : (s.chan k').slot = none) : Promptly ids Fresh s k := by
  have hfresh : Fresh s .lookup := (fresh_lookup hloop).mpr (by simp [hpending, hslot])
  exact h.head hids (.found hloop hpending) hfresh rfl fun hgoes =>
    hgoes.promptly_of_delivering hids rfl

/- A call whose slot is taken empties it or leaves first. -/
theorem Goes.promptly_of_selecting (h : Goes ids s k) {resp : ControlMessage β} {k' : K}
    (hloop : s.loop = .routing resp) (hpending : s.pending.lookup resp.id = some k')
    (hphase : s.phase k' = .selecting) : Promptly ids Fresh s k := by
  cases hchan : s.chan k' with
  | mk slot closed =>
    cases slot with
    | none => exact h.promptly_of_found hids hloop hpending (by simp [hchan])
    | some old =>
      have hmove : Moves ids s _ _ := .response hphase hchan
      exact h.head hids hmove trivial rfl fun hgoes =>
        hgoes.promptly_of_found hids hloop hpending (by simp)

theorem Goes.promptly (h : Goes ids s k) : Promptly ids Fresh s k := by
  cases hloop : s.loop with
  | receiving => exact h.promptly_of_receiving hids hloop
  | delivering k' resp => exact h.promptly_of_delivering hids hloop
  | handling msg => exact h.promptly_of_handling hids hloop
  | failed => exact h.promptly_of_failed hids hloop
  | returned => exact promptly_of_loop_returned h.ending hloop
  | routing resp =>
    cases hpending : s.pending.lookup resp.id with
    | none => exact h.promptly_of_notFound hids hloop hpending
    | some k' =>
      obtain ⟨hid, hcalled, hreturned⟩ := h.registered.entry _ _ hpending
      cases hphase : s.phase k' with
      | notCalled => exact absurd hphase hcalled
      | sending =>
        have hmove : Moves ids s _ _ := .sent hphase
        exact h.head hids hmove trivial rfl fun hgoes =>
          hgoes.promptly_of_selecting hids hloop hpending (by simp)
      | selecting => exact h.promptly_of_selecting hids hloop hpending hphase
      | leaving outcome =>
        have hmove : Moves ids s _ _ := .leave hphase
        have herased : (s.pending.erase (ids k')).lookup resp.id = none := by
          simp [hid]
        exact h.head hids hmove trivial rfl fun hgoes =>
          hgoes.promptly_of_notFound hids hloop herased
      | returned outcome => exact absurd hphase (hreturned outcome)

end prompt

/-! Every run -/

omit [DecidableEq K] in
theorem registered_initial : Registered ids (initial : State K β) := by
  constructor <;> simp [initial, Phase.waits]

omit [DecidableEq K] in
theorem owned_initial : Owned ids (initial : State K β) := by
  constructor <;> simp [initial, Phase.outcome]

theorem registered_of_runs (hids : Function.Injective ids) {C : State K β → Event K β → Prop}
    (h : Runs (step ids) C initial s) : Registered ids s :=
  h.invariant registered_initial fun _ _ _ h _ hstep => h.step hids hstep

theorem invariants_of_runs (hids : Function.Injective ids)
    (h : Runs (step ids) Fresh initial s) : Registered ids s ∧ Roomy s ∧ Owned ids s := by
  have hinitial : Roomy (initial : State K β) := by simp [Roomy, initial]
  refine h.invariant (I := fun s => Registered ids s ∧ Roomy s ∧ Owned ids s)
    ⟨registered_initial, hinitial, owned_initial⟩ ?_
  rintro s e s' ⟨hregistered, hroomy, howned⟩ hfresh hstep
  exact ⟨hregistered.step hids hstep, hroomy.step hfresh hstep, howned.step hregistered hstep⟩

theorem goes_of_fail {k : K} (hregistered : Registered ids s) (hroomy : Roomy s)
    (hids : Function.Injective ids) (hcalled : s.phase k ≠ .notCalled)
    (hstep : step ids s .fail = some s') : Goes ids s' k := by
  have hfresh : Fresh s .fail := trivial
  refine ⟨hregistered.step hids hstep, hroomy.step hfresh hstep, ?_⟩
  cases moves_of_step hstep with
  | fail hfailed =>
    refine ⟨rfl, hcalled, fun hloop => ?_⟩
    have hfailing := hregistered.failing (.inr hloop)
    rw [hfailed] at hfailing
    cases hfailing

theorem delivers_of_runs (hids : Function.Injective ids) (h : Runs (step ids) Fresh initial s) :
    Delivers ids Fresh s := by
  obtain ⟨hregistered, hroomy, howned⟩ := invariants_of_runs hids h
  constructor
  · rintro ⟨k, resp, hloop, hslot, -⟩
    exact hslot (hroomy k resp hloop)
  · intro k resp hreturned
    exact howned.answered k resp (by simp [hreturned, Phase.outcome])
  · intro k outcome hreturned t hrun
    exact hrun.invariant (I := fun t => t.phase k = .returned outcome) hreturned
      fun _ _ _ h _ hstep => returned_step h hstep
  · intro before after k hbefore hcalled hfail hafter
    obtain ⟨hregistered, hroomy, -⟩ := invariants_of_runs hids hbefore
    have hgoes : Goes ids after k := goes_of_fail hregistered hroomy hids hcalled hfail
    have hend : Goes ids s k := hafter.invariant (I := fun s => Goes ids s k) hgoes
      fun _ _ _ h hfresh hstep => h.step hids hfresh hstep
    exact hend.promptly hids

/- A second message for a full slot: the call may leave without having received. -/
theorem blocked_of_not_fresh (hregistered : Registered ids s)
    (hstep : step ids s .lookup = some s') (hfresh : ¬ Fresh s .lookup) :
    ∃ t, Runs (step ids) (fun _ _ => True) s' t ∧ Blocked t := by
  obtain ⟨resp, hloop⟩ : ∃ resp, s.loop = .routing resp := by
    cases moves_of_step hstep with
    | found hloop hpending => exact ⟨_, hloop⟩
    | notFound hloop hpending => exact ⟨_, hloop⟩
  rw [fresh_lookup hloop] at hfresh
  obtain ⟨k, hpending, hslot⟩ : ∃ k, s.pending.lookup resp.id = some k ∧ (s.chan k).slot ≠ none := by
    simpa using hfresh
  obtain ⟨-, hcalled, hreturned⟩ := hregistered.entry _ _ hpending
  have hmove : Moves ids s .lookup _ := .found hloop hpending
  obtain rfl : _ = s' := Option.some.inj (hmove.step.symm.trans hstep)
  have hleave : ∀ {e outcome}, Moves ids { s with loop := .delivering k resp } e
      (State.goTo { s with loop := .delivering k resp } k (.leaving outcome)) →
      ∃ t, Runs (step ids) (fun _ _ => True) { s with loop := .delivering k resp } t ∧ Blocked t :=
    fun hmove => ⟨_, (Runs.refl _).tail trivial hmove.step, k, resp, rfl, hslot,
      by simp [Phase.outcome]⟩
  cases hphase : s.phase k with
  | notCalled => exact absurd hphase hcalled
  | sending => exact hleave (.sendFailed hphase)
  | selecting => exact hleave (.timeOut hphase)
  | leaving outcome => exact ⟨_, .refl _, k, resp, rfl, hslot, by simp [hphase, Phase.outcome]⟩
  | returned outcome => exact absurd hphase (hreturned outcome)

/-- In every run in which no message is looked up for a call whose slot is taken, the receive loop
delivers. After a lookup that does find one it may come to be stuck, and then for ever. -/
theorem receiveLoop_delivers (hids : Function.Injective ids) :
    (∀ s : State K β, Runs (step ids) Fresh initial s → Delivers ids Fresh s) ∧
      ∀ s s' : State K β, Runs (step ids) (fun _ _ => True) initial s →
        step ids s .lookup = some s' → ¬ Fresh s .lookup →
          ∃ t, Runs (step ids) (fun _ _ => True) s' t ∧
            ∀ u, Runs (step ids) (fun _ _ => True) t u → Blocked u := by
  refine ⟨fun s => delivers_of_runs hids, ?_⟩
  intro s s' hrun hstep hfresh
  obtain ⟨t, hst, hblocked⟩ := blocked_of_not_fresh (registered_of_runs hids hrun) hstep hfresh
  exact ⟨t, hst, fun u htu => htu.invariant hblocked fun _ _ _ h _ hstep => h.step hstep⟩

/-! A handshake that is answered, and one that is answered twice as it times out -/

def handshakeId : Unit → Text := fun _ => ['h']

theorem handshakeId_injective : Function.Injective handshakeId := fun _ _ _ => rfl

def ack : ControlMessage Unit := ⟨['h'], ()⟩

def answered : List (Event Unit Unit) :=
  [.call (), .sent (), .recv ack, .lookup, .deliver, .receive (), .leave ()]

theorem receiveLoop_delivers_answered :
    ∃ s, exec (step handshakeId) initial answered = some s ∧ s.phase () = .returned (.response ack) ∧
      Delivers handshakeId Fresh s := by
  obtain ⟨s, hs, hphase, hrun⟩ : ∃ s, exec (step handshakeId) initial answered = some s ∧
      s.phase () = .returned (.response ack) ∧ Runs (step handshakeId) Fresh initial s :=
    ⟨_, rfl, rfl, .of_exec answered rfl (by decide)⟩
  exact ⟨s, hs, hphase, (receiveLoop_delivers handshakeId_injective).1 s hrun⟩

def answeredTwice : List (Event Unit Unit) :=
  [.call (), .sent (), .recv ack, .lookup, .deliver, .recv ack, .lookup, .timeOut ()]

theorem receiveLoop_blocked : ¬ ∀ s : State Unit Unit,
    Runs (step handshakeId) (fun _ _ => True) initial s →
      Delivers handshakeId (fun _ _ => True) s := by
  intro h
  have hdelivers := h _ (.of_exec answeredTwice rfl (by decide))
  exact hdelivers.unblocked ⟨(), ack, rfl, by decide, by decide⟩

end Pivox.StorageAgent.Stream
