import Pivox.Transition
import Mathlib.Data.List.AList

/-!
The registry of agent connections: an entry for each agent, that a stream's handler makes when the
stream is registered and takes away when it returns.
-/

namespace Pivox.AgentStream
open Transition

variable {A G O S : Type}

structure AgentConnection (A G O S : Type) where
  agentID : A
  gatewayID : G
  orgID : O
  stream : S

/- An agent's row belongs to a gateway, and a gateway's to an organization. -/
structure Directory (A G O : Type) where
  gatewayOf : A → G
  orgOf : G → O

abbrev Conns (A G O S : Type) := AList fun _ : A => AgentConnection A G O S

namespace Conns
variable [DecidableEq A] [DecidableEq O]

def register (conns : Conns A G O S) (conn : AgentConnection A G O S) : Conns A G O S :=
  conns.insert conn.agentID conn

def unregister (conns : Conns A G O S) (agentID : A) : Conns A G O S :=
  conns.erase agentID

/- The streams that the message is sent to; the nil id is `none`. -/
def sendToOrg (conns : Conns A G O S) (orgID : Option O) : List S :=
  match orgID with
  | none => []
  | some orgID =>
    conns.entries.filterMap fun entry => if entry.2.orgID = orgID then some entry.2.stream else none

end Conns

/- A stream's handler: before its registration, registered for an agent, or returned. -/
inductive Handler (A : Type) where
  | connecting
  | registered (agentID : A)
  | returned
  deriving DecidableEq

structure State (A G O S : Type) where
  conns : Conns A G O S
  handlers : S → Handler A

def initial : State A G O S := ⟨∅, fun _ => .connecting⟩

inductive Event (A S : Type) where
  | register (stream : S) (agentID : A)
  | fail (stream : S)
  | endStream (stream : S)

def connectionOf (d : Directory A G O) (stream : S) (agentID : A) : AgentConnection A G O S where
  agentID := agentID
  gatewayID := d.gatewayOf agentID
  orgID := d.orgOf (d.gatewayOf agentID)
  stream := stream

/- A handler that fails before its stream is registered has nothing to unregister; one whose stream
ends runs its deferred Unregister as it returns. -/
def step [DecidableEq A] [DecidableEq S] (d : Directory A G O) (s : State A G O S) :
    Event A S → Option (State A G O S)
  | .register stream agentID =>
    match s.handlers stream with
    | .connecting => some
      { conns := s.conns.register (connectionOf d stream agentID)
        handlers := Function.update s.handlers stream (.registered agentID) }
    | _ => none
  | .fail stream =>
    match s.handlers stream with
    | .connecting => some { s with handlers := Function.update s.handlers stream .returned }
    | _ => none
  | .endStream stream =>
    match s.handlers stream with
    | .registered agentID => some
      { conns := s.conns.unregister agentID
        handlers := Function.update s.handlers stream .returned }
    | _ => none

/-- The registry has a live stream of every agent that has one, and nothing of the others. -/
structure Tracks [DecidableEq A] [DecidableEq O] (d : Directory A G O) (s : State A G O S) :
    Prop where
  held : ∀ stream agentID, s.handlers stream = .registered agentID →
    ∃ conn, s.conns.lookup agentID = some conn ∧ s.handlers conn.stream = .registered agentID
  live : ∀ agentID, (∀ stream, s.handlers stream ≠ .registered agentID) →
    s.conns.lookup agentID = none
  sent : ∀ stream agentID, s.handlers stream = .registered agentID →
    ∃ stream' ∈ s.conns.sendToOrg (some (d.orgOf (d.gatewayOf agentID))),
      s.handlers stream' = .registered agentID

/-- No handler returns while another stream of its agent is registered. -/
def Alone (s : State A G O S) : Event A S → Prop
  | .endStream stream => ∀ agentID, s.handlers stream = .registered agentID →
      ∀ stream' ≠ stream, s.handlers stream' ≠ .registered agentID
  | _ => True

/-! Every entry is of a live stream -/

variable [DecidableEq A] [DecidableEq S] {d : Directory A G O} {s s' : State A G O S}

structure Live (d : Directory A G O) (s : State A G O S) : Prop where
  entry : ∀ agentID conn, s.conns.lookup agentID = some conn →
    conn = connectionOf d conn.stream agentID ∧ s.handlers conn.stream = .registered agentID
  held : ∀ stream agentID, s.handlers stream = .registered agentID →
    (s.conns.lookup agentID).isSome

namespace Live

omit [DecidableEq S] in
theorem initial : Live d (initial : State A G O S) where
  entry agentID conn h := by
    simp [AgentStream.initial] at h
  held stream agentID h := by
    cases h

theorem register (h : Live d s) {stream : S} {agentID : A} (hnew : s.handlers stream = .connecting) :
    Live d
      { conns := s.conns.register (connectionOf d stream agentID)
        handlers := Function.update s.handlers stream (.registered agentID) } where
  entry agentID' conn hconn := by
    by_cases hagent : agentID' = agentID
    · subst hagent
      simp only [Conns.register, connectionOf, AList.lookup_insert, Option.some.injEq] at hconn
      subst hconn
      exact ⟨rfl, Function.update_self ..⟩
    · simp only [Conns.register, connectionOf, AList.lookup_insert_ne hagent] at hconn
      obtain ⟨heq, hlive⟩ := h.entry agentID' conn hconn
      refine ⟨heq, ?_⟩
      by_cases hstream : conn.stream = stream
      · rw [hstream, hnew] at hlive
        cases hlive
      · simpa [Function.update_of_ne hstream] using hlive
  held stream' agentID' hlive := by
    by_cases hagent : agentID' = agentID
    · subst hagent
      simp [Conns.register, connectionOf]
    · simp only [Conns.register, connectionOf, AList.lookup_insert_ne hagent]
      by_cases hstream : stream' = stream
      · subst hstream
        simp only [Function.update_self, Handler.registered.injEq] at hlive
        exact absurd hlive.symm hagent
      · simp only [Function.update_of_ne hstream] at hlive
        exact h.held stream' agentID' hlive

theorem fail (h : Live d s) {stream : S} (hnew : s.handlers stream = .connecting) :
    Live d { s with handlers := Function.update s.handlers stream .returned } where
  entry agentID conn hconn := by
    obtain ⟨heq, hlive⟩ := h.entry agentID conn hconn
    refine ⟨heq, ?_⟩
    by_cases hstream : conn.stream = stream
    · rw [hstream, hnew] at hlive
      cases hlive
    · simpa [Function.update_of_ne hstream] using hlive
  held stream' agentID hlive := by
    by_cases hstream : stream' = stream
    · subst hstream
      simp at hlive
    · simp only [Function.update_of_ne hstream] at hlive
      exact h.held stream' agentID hlive

theorem endStream (h : Live d s) {stream : S} {agentID : A}
    (hlive : s.handlers stream = .registered agentID)
    (halone : ∀ stream' ≠ stream, s.handlers stream' ≠ .registered agentID) :
    Live d
      { conns := s.conns.unregister agentID
        handlers := Function.update s.handlers stream .returned } where
  entry agentID' conn hconn := by
    by_cases hagent : agentID' = agentID
    · subst hagent
      simp [Conns.unregister] at hconn
    · simp only [Conns.unregister, AList.lookup_erase_ne hagent] at hconn
      obtain ⟨heq, hlive'⟩ := h.entry agentID' conn hconn
      refine ⟨heq, ?_⟩
      by_cases hstream : conn.stream = stream
      · rw [hstream, hlive, Handler.registered.injEq] at hlive'
        exact absurd hlive'.symm hagent
      · simpa [Function.update_of_ne hstream] using hlive'
  held stream' agentID' hlive' := by
    by_cases hstream : stream' = stream
    · subst hstream
      simp at hlive'
    · simp only [Function.update_of_ne hstream] at hlive'
      have hagent : agentID' ≠ agentID := by
        rintro rfl
        exact halone stream' hstream hlive'
      simpa [Conns.unregister, AList.lookup_erase_ne hagent] using h.held stream' agentID' hlive'

theorem step (h : Live d s) {ev : Event A S} (halone : Alone s ev)
    (hstep : AgentStream.step d s ev = some s') : Live d s' := by
  cases ev with
  | register stream agentID =>
    simp only [AgentStream.step] at hstep
    split at hstep
    · next hnew =>
      cases hstep
      exact h.register hnew
    · cases hstep
  | fail stream =>
    simp only [AgentStream.step] at hstep
    split at hstep
    · next hnew =>
      cases hstep
      exact h.fail hnew
    · cases hstep
  | endStream stream =>
    simp only [AgentStream.step] at hstep
    split at hstep
    · next agentID hlive =>
      cases hstep
      exact h.endStream hlive (halone agentID hlive)
    · cases hstep

omit [DecidableEq S] in
theorem tracks [DecidableEq O] (h : Live d s) : Tracks d s where
  held stream agentID hlive := by
    obtain ⟨conn, hconn⟩ := Option.isSome_iff_exists.mp (h.held stream agentID hlive)
    exact ⟨conn, hconn, (h.entry agentID conn hconn).2⟩
  live agentID hnone := by
    cases hconn : s.conns.lookup agentID with
    | none => rfl
    | some conn => exact absurd (h.entry agentID conn hconn).2 (hnone conn.stream)
  sent stream agentID hlive := by
    obtain ⟨conn, hconn⟩ := Option.isSome_iff_exists.mp (h.held stream agentID hlive)
    obtain ⟨heq, hlive'⟩ := h.entry agentID conn hconn
    refine ⟨conn.stream, List.mem_filterMap.mpr ⟨⟨agentID, conn⟩, ?_, ?_⟩, hlive'⟩
    · exact AList.mem_lookup_iff.mp hconn
    · have horg : conn.orgID = d.orgOf (d.gatewayOf agentID) := congrArg AgentConnection.orgID heq
      simp [horg]

end Live

/-- A handler that returns while another stream of its agent is registered leaves the agent without
an entry. -/
theorem alone_of_tracks [DecidableEq O] {ev : Event A S} (hstep : step d s ev = some s')
    (htracks : Tracks d s') : Alone s ev := by
  cases ev with
  | endStream stream =>
    intro agentID hlive stream' hne hlive'
    simp only [step, hlive, Option.some.injEq] at hstep
    subst hstep
    obtain ⟨conn, hconn, -⟩ := htracks.held stream' agentID
      (by simpa [Function.update_of_ne hne] using hlive')
    simp [Conns.unregister] at hconn
  | _ => trivial

/-- In every run in which no handler returns while another stream of its agent is registered, the
registry tracks the live streams, and it goes on to do so exactly after such steps. -/
theorem connections_track [DecidableEq O] (h : Runs (step d) Alone initial s) :
    Tracks d s ∧ ∀ ev s', step d s ev = some s' → (Tracks d s' ↔ Alone s ev) := by
  have hlive : Live d s := h.invariant .initial fun _ _ _ h halone hstep => h.step halone hstep
  exact ⟨hlive.tracks, fun ev s' hstep =>
    ⟨alone_of_tracks hstep, fun halone => (hlive.step halone hstep).tracks⟩⟩

/-! Two agents, of which one connects anew once the handler of its old stream has returned -/

def fleet : Directory Bool Unit Unit := ⟨fun _ => (), fun _ => ()⟩

def returned : List (Event Bool ℕ) :=
  [.register 1 true, .register 2 false, .endStream 1, .register 3 true]

theorem connections_track_returned : ∃ s, exec (step fleet) initial returned = some s ∧
    Tracks fleet s ∧ ∀ ev s', step fleet s ev = some s' → (Tracks fleet s' ↔ Alone s ev) := by
  obtain ⟨s, hs, hrun⟩ : ∃ s, exec (step fleet) initial returned = some s ∧
      Runs (step fleet) Alone initial s := by
    refine ⟨_, rfl, ((((Runs.refl _).tail (a := .register 1 true) trivial rfl).tail
      (a := .register 2 false) trivial rfl).tail (a := .endStream 1) ?_ rfl).tail
        (a := .register 3 true) trivial rfl⟩
    rintro agentID ⟨⟩ stream hstream hsame
    by_cases htwo : stream = 2
    · subst htwo
      cases hsame
    · simp [Function.update_of_ne hstream, Function.update_of_ne htwo, initial] at hsame
  exact ⟨s, hs, connections_track hrun⟩

/-! An agent that connects anew before the handler of its old stream returns -/

def site : Directory Unit Unit Bool := ⟨id, fun _ => true⟩

def reconnected : List (Event Unit Bool) :=
  [.register false (), .register true (), .endStream false]

theorem connections_not_tracked : ¬ ∀ s : State Unit Unit Bool Bool,
    Runs (step site) (fun _ _ => True) initial s → Tracks site s := by
  intro h
  have htracks := h _ (.of_exec reconnected rfl (by decide))
  obtain ⟨conn, hconn, -⟩ := htracks.held true () rfl
  cases hconn

end Pivox.AgentStream
