import Pivox.Transition
import Pivox.Gateways.StorageSessions

/-!
Delivery of storage sessions: a grant is sent once, to the streams that are registered when the
session is minted, and a handshake does not bring the earlier ones along.
-/

namespace Pivox.Gateways
open Path hiding Token
open StorageAgent hiding Time
open Transition

/- The OrgID that SendToOrg takes for a programmer error; a gateway has none such. -/
def uuidNil : Id := 0

/- An agent process, of a gateway of the organization. -/
structure Agent where
  orgId : Id
  state : AgentState

inductive Phase where
  | handshaking
  | acked
  | registered
  | ended
  deriving DecidableEq, Repr

def Phase.completed : Phase → Bool
  | .acked => true
  | .registered => true
  | _ => false

/- A stream of an agent: `agentId` is the row of the handshake, `queue` what was sent and is not
applied, `missed` what the agent could not persist. -/
structure Stream where
  agent : Nat
  agentId : Id
  phase : Phase
  live : Bool
  queue : List SessionGrant
  missed : List SessionGrant

/- A CreateStorageSession call in SendToOrg: `rest` is what is left of its snapshot. -/
structure Call where
  grant : SessionGrant
  rest : List Nat

structure State where
  now : StorageAgent.Time
  agents : List Agent
  streams : List Stream
  conns : AList fun _ : Id => Nat
  calls : List Call

def State.orgOf (st : State) (j : Nat) : Option Id :=
  st.streams[j]?.bind fun s => st.agents[s.agent]?.map (·.orgId)

/- The streams that SendToOrg finds in the connection manager. -/
def State.snapshot (st : State) (orgId : Id) : List Nat :=
  if orgId = uuidNil then []
  else (st.conns.entries.map (·.2)).filter fun j => decide (st.orgOf j = some orgId)

inductive Action where
  | tick (elapsed : Nat)
  | boot (agent : Agent)
  | restart (i : Nat) (loaded : Bool)
      (rows : List (Sigma fun _ : StorageAgent.Token => SessionRow)) (patterns : List Text)
  | flushExpired (i : Nat) (ok : Bool)
  | connect (i : Nat)
  | handshakeAck (j : Nat) (agentId : Id)
  | register (j : Nat)
  | drop (j : Nat)
  | unregister (j : Nat)
  | mint (q : SessionQueries) (configured : Int) (token : StorageAgent.Token) (identity : Id)
      (req : CreateStorageSessionRequest) (order : List Nat)
  | send (k : Nat)
  | receive (j : Nat) (ok : Bool)

/- Without a store a new process starts from nothing, and so it does when it cannot load it. -/
def openAgentState (st : AgentState) (now : StorageAgent.Time) (loaded : Bool)
    (rows : List (Sigma fun _ : StorageAgent.Token => SessionRow)) (patterns : List Text) :
    Option AgentState :=
  match st.store with
  | none => some ⟨∅, [], none⟩
  | some store =>
    if loaded then loadFromStore store now rows patterns else some ⟨∅, [], some store⟩

def State.setAgent (st : State) (i : Nat) (agent : Agent) : State :=
  { st with agents := st.agents.set i agent }

def State.setStream (st : State) (j : Nat) (s : Stream) : State :=
  { st with streams := st.streams.set j s }

def step (st : State) : Action → Option State
  | .tick elapsed => some { st with now := st.now + elapsed }
  | .boot agent =>
    if agent.orgId = uuidNil then none else some { st with agents := st.agents ++ [agent] }
  | .restart i loaded rows patterns =>
    st.agents[i]?.bind fun agent =>
      (openAgentState agent.state st.now loaded rows patterns).map fun state =>
        { st.setAgent i { agent with state } with
          streams := st.streams.map fun s => if s.agent = i then { s with live := false } else s }
  | .flushExpired i ok =>
    st.agents[i]?.map fun agent =>
      st.setAgent i { agent with state := (flushExpired agent.state ok st.now).2 }
  | .connect i =>
    st.agents[i]?.map fun _ =>
      { st with streams := st.streams ++ [⟨i, uuidNil, .handshaking, true, [], []⟩] }
  | .handshakeAck j agentId =>
    st.streams[j]?.bind fun s =>
      if s.phase = .handshaking ∧ s.live then some (st.setStream j { s with agentId, phase := .acked })
      else none
  | .register j =>
    st.streams[j]?.bind fun s =>
      if s.phase = .acked then
        some { st.setStream j { s with phase := .registered } with
               conns := st.conns.insert s.agentId j }
      else none
  | .drop j => st.streams[j]?.map fun s => st.setStream j { s with live := false }
  | .unregister j =>
    st.streams[j]?.bind fun s =>
      if s.phase = .registered then
        some { st.setStream j { s with phase := .ended, live := false } with
               conns := st.conns.erase s.agentId }
      else none
  | .mint q configured token identity req order =>
    match createStorageSession q configured st.now token identity req with
    | .error _ => none
    | .ok grant =>
      if (∀ call ∈ st.calls, call.grant.token ≠ grant.token) ∧ order.Perm (st.snapshot grant.orgId)
      then some { st with calls := st.calls ++ [⟨grant, order⟩] }
      else none
  | .send k =>
    st.calls[k]?.bind fun call =>
      match call.rest with
      | [] => none
      | j :: rest =>
        st.streams[j]?.map fun s =>
          { (if s.live then st.setStream j { s with queue := s.queue ++ [call.grant] } else st) with
            calls := st.calls.set k { call with rest } }
  | .receive j ok =>
    st.streams[j]?.bind fun s => st.agents[s.agent]?.bind fun agent =>
      match s.live, s.queue with
      | true, g :: queue =>
        let granted := grant agent.state ok g.token g.patterns g.expiry
        some ((st.setAgent s.agent { agent with state := granted.2 }).setStream j
          { s with queue, missed := if granted.1 then s.missed else s.missed ++ [g] })
      | _, _ => none

/-! Delivery -/

/- An agent that holds the session. -/
def Holds (st : AgentState) (g : SessionGrant) : Prop :=
  st.sessions.lookup g.token = some ⟨some g.patterns, truncate g.expiry⟩

/-- A minted session that has not expired is authorized, for the patterns it was granted, by every
agent of its organization with a live stream on which all that was sent is applied. -/
def Delivered (st : State) : Prop :=
  ∀ call ∈ st.calls, call.rest = [] → st.now ≤ truncate call.grant.expiry →
    ∀ s ∈ st.streams, s.live = true → s.phase.completed = true → s.queue = [] → s.missed = [] →
      ∀ agent, st.agents[s.agent]? = some agent → agent.orgId = call.grant.orgId →
        ∀ path, authorize agent.state st.now call.grant.token path = true ↔
          ∃ p ∈ call.grant.patterns, matchPattern p path = true

/-- Each live stream of the organization, its handshake completed, is the one in the connection
manager. -/
def AllRegistered (st : State) (orgId : Id) : Prop :=
  ∀ x ∈ st.streams.zipIdx, x.1.live = true → x.1.phase.completed = true →
    st.orgOf x.2 = some orgId → st.conns.lookup x.1.agentId = some x.2

/-- The agent holds every session of its organization that is minted, or about to be, and has not
expired. -/
def HoldsAll (st : State) (i : Nat) : Prop :=
  ∀ call ∈ st.calls, st.now ≤ truncate call.grant.expiry → ∀ agent ∈ st.agents[i]?,
    agent.orgId = call.grant.orgId → Holds agent.state call.grant

def Orderly (st : State) : Action → Prop
  | .handshakeAck j _ => ∀ s ∈ st.streams[j]?, HoldsAll st s.agent
  | .mint q configured token identity req _ =>
    ∀ grant ∈ (createStorageSession q configured st.now token identity req).toOption,
      AllRegistered st grant.orgId
  | _ => True

/-! The invariant -/

/- Where the grant of a call is, for a stream of its organization. -/
def Reaches (agent : Agent) (s : Stream) (j : Nat) (call : Call) : Prop :=
  Holds agent.state call.grant ∨ call.grant ∈ s.queue ∨ call.grant ∈ s.missed ∨ j ∈ call.rest

structure State.Ok (st : State) : Prop where
  agents : ∀ s ∈ st.streams, s.agent < st.agents.length
  orgs : ∀ agent ∈ st.agents, agent.orgId ≠ uuidNil
  tokens : ∀ call ∈ st.calls, ∀ call' ∈ st.calls, call.grant.token = call'.grant.token →
    call.grant = call'.grant
  queued : ∀ s ∈ st.streams, ∀ g ∈ s.queue, ∃ call ∈ st.calls, call.grant = g
  reached : ∀ call ∈ st.calls, st.now ≤ truncate call.grant.expiry → ∀ j s agent,
    st.streams[j]? = some s → s.live = true → s.phase.completed = true →
    st.agents[s.agent]? = some agent → agent.orgId = call.grant.orgId → Reaches agent s j call

theorem getElem?_set_cases {α : Type} {l : List α} {i j : Nat} {a b : α}
    (h : (l.set i a)[j]? = some b) : (j = i ∧ b = a) ∨ (j ≠ i ∧ l[j]? = some b) := by
  rw [List.getElem?_set] at h
  split_ifs at h with hij hlen
  · exact .inl ⟨hij.symm, (Option.some.inj h).symm⟩
  · exact .inr ⟨Ne.symm hij, h⟩

theorem authorize_of_holds {st : AgentState} {g : SessionGrant} {now : StorageAgent.Time}
    (h : Holds st g) (hnow : now ≤ truncate g.expiry) (path : Text) :
    authorize st now g.token path = true ↔ ∃ p ∈ g.patterns, matchPattern p path = true := by
  have hlookup : st.sessions.lookup g.token = some ⟨some g.patterns, truncate g.expiry⟩ := h
  simp [authorize, hlookup, Session.authorizes, hnow]

theorem State.Ok.delivered {st : State} (h : st.Ok) : Delivered st := by
  intro call hcall hrest hnow s hs hlive hphase hqueue hmissed agent hagent horg path
  obtain ⟨j, hj⟩ := List.getElem?_of_mem hs
  obtain hholds | hin | hin | hin := h.reached call hcall hnow j s agent hj hlive hphase hagent horg
  · exact authorize_of_holds hholds hnow path
  · rw [hqueue] at hin
    cases hin
  · rw [hmissed] at hin
    cases hin
  · rw [hrest] at hin
    cases hin

theorem State.start_ok (now : StorageAgent.Time) : State.Ok ⟨now, [], [], ∅, []⟩ :=
  ⟨nofun, nofun, nofun, nofun, nofun⟩

/-! What an operation of an agent leaves of a session that it holds -/

theorem holds_flushExpired {st : AgentState} {g : SessionGrant} {now : StorageAgent.Time} {ok : Bool}
    (h : Holds st g) (hnow : now ≤ truncate g.expiry) : Holds (flushExpired st ok now).2 g := by
  have hlookup : st.sessions.lookup g.token = some ⟨some g.patterns, truncate g.expiry⟩ := h
  have hkept : (keep (fun s => !decide (now > s.expiry)) st.sessions).lookup g.token =
      some ⟨some g.patterns, truncate g.expiry⟩ := by
    rw [lookup_keep, hlookup]
    simp [hnow]
  unfold flushExpired writeThrough
  split
  · exact hkept
  · split
    · exact h
    · exact hkept

theorem sessions_grant {st : AgentState} {ok : Bool} {token : StorageAgent.Token}
    {patterns : Option (List Text)} {expiry : StorageAgent.Time} :
    (grant st ok token patterns expiry).2.sessions =
      if (grant st ok token patterns expiry).1 then
        st.sessions.insert token ⟨patterns, truncate expiry⟩
      else st.sessions := by
  cases hstore : st.store with
  | none => simp [grant, writeThrough, hstore]
  | some store =>
    cases hsave : saveSession store ok token patterns (truncate expiry) with
    | none => simp [grant, writeThrough, hstore, hsave]
    | some store' => simp [grant, writeThrough, hstore, hsave]

theorem holds_grant {st : AgentState} {g g' : SessionGrant} {ok : Bool} (h : Holds st g)
    (htoken : g.token = g'.token → g = g') :
    Holds (grant st ok g'.token g'.patterns g'.expiry).2 g := by
  unfold Holds
  rw [sessions_grant]
  split_ifs
  · by_cases heq : g.token = g'.token
    · obtain rfl := htoken heq
      exact AList.lookup_insert _
    · rw [AList.lookup_insert_ne heq]
      exact h
  · exact h

theorem holds_granted {st : AgentState} {g : SessionGrant} {ok : Bool}
    (h : (grant st ok g.token g.patterns g.expiry).1 = true) :
    Holds (grant st ok g.token g.patterns g.expiry).2 g := by
  unfold Holds
  rw [sessions_grant, if_pos h]
  exact AList.lookup_insert _

/-! Steps -/

variable {st st' : State}

theorem Reaches.mono {agent : Agent} {s s' : Stream} {j : Nat} {call : Call}
    (h : Reaches agent s j call) (hqueue : s'.queue = s.queue) (hmissed : s'.missed = s.missed) :
    Reaches agent s' j call := by
  unfold Reaches
  rwa [hqueue, hmissed]

theorem State.Ok.setAgent {i : Nat} {agent agent' : Agent} (h : st.Ok)
    (hagent : st.agents[i]? = some agent) (horg : agent'.orgId = agent.orgId)
    (hholds : ∀ call ∈ st.calls, st.now ≤ truncate call.grant.expiry →
      Holds agent.state call.grant → Holds agent'.state call.grant) : (st.setAgent i agent').Ok where
  agents s hs := (h.agents s hs).trans_le (List.length_set ..).ge
  orgs a ha := by
    obtain ⟨n, hn⟩ := List.getElem?_of_mem ha
    obtain ⟨-, rfl⟩ | ⟨-, hold⟩ := getElem?_set_cases hn
    · rw [horg]
      exact h.orgs agent (List.mem_of_getElem? hagent)
    · exact h.orgs a (List.mem_of_getElem? hold)
  tokens := h.tokens
  queued := h.queued
  reached call hcall hnow j s a hs hlive hphase ha haorg := by
    obtain ⟨rfl, rfl⟩ | ⟨-, hold⟩ := getElem?_set_cases ha
    · rw [horg] at haorg
      exact (h.reached call hcall hnow j s agent hs hlive hphase hagent haorg).imp_left
        (hholds call hcall hnow)
    · exact h.reached call hcall hnow j s a hs hlive hphase hold haorg

theorem State.Ok.setStream {j : Nat} {s s' : Stream} (h : st.Ok) (hs : st.streams[j]? = some s)
    (hagent : s'.agent = s.agent) (hqueue : ∀ g ∈ s'.queue, ∃ call ∈ st.calls, call.grant = g)
    (hreach : ∀ call ∈ st.calls, st.now ≤ truncate call.grant.expiry → s'.live = true →
      s'.phase.completed = true → ∀ agent, st.agents[s.agent]? = some agent →
        agent.orgId = call.grant.orgId → Reaches agent s' j call) : (st.setStream j s').Ok where
  agents t ht := by
    obtain ⟨n, hn⟩ := List.getElem?_of_mem ht
    obtain ⟨-, rfl⟩ | ⟨-, hold⟩ := getElem?_set_cases hn
    · rw [hagent]
      exact h.agents s (List.mem_of_getElem? hs)
    · exact h.agents t (List.mem_of_getElem? hold)
  orgs := h.orgs
  tokens := h.tokens
  queued t ht := by
    obtain ⟨n, hn⟩ := List.getElem?_of_mem ht
    obtain ⟨-, rfl⟩ | ⟨-, hold⟩ := getElem?_set_cases hn
    · exact hqueue
    · exact h.queued t (List.mem_of_getElem? hold)
  reached call hcall hnow n t a ht hlive hphase ha haorg := by
    obtain ⟨rfl, rfl⟩ | ⟨-, hold⟩ := getElem?_set_cases ht
    · rw [hagent] at ha
      exact hreach call hcall hnow hlive hphase a ha haorg
    · exact h.reached call hcall hnow n t a hold hlive hphase ha haorg

/-- A stream that breaks, or of which the handler ends. -/
theorem State.Ok.close {j : Nat} {s s' : Stream} (h : st.Ok) (hs : st.streams[j]? = some s)
    (hagent : s'.agent = s.agent) (hqueue : s'.queue = s.queue) (hlive : s'.live = false) :
    (st.setStream j s').Ok :=
  h.setStream hs hagent (by rw [hqueue]; exact h.queued s (List.mem_of_getElem? hs))
    fun _ _ _ hl => by rw [hlive] at hl; cases hl

/- The invariant does not speak of the connection manager. -/
theorem State.Ok.withConns (h : st.Ok) (conns : AList fun _ : Id => Nat) :
    State.Ok { st with conns := conns } :=
  ⟨h.agents, h.orgs, h.tokens, h.queued, h.reached⟩

theorem ok_tick {elapsed : Nat} (h : st.Ok) : State.Ok { st with now := st.now + elapsed } :=
  ⟨h.agents, h.orgs, h.tokens, h.queued, fun call hcall hnow =>
    h.reached call hcall ((le_add_of_nonneg_right (Int.natCast_nonneg elapsed)).trans hnow)⟩

theorem ok_boot {agent : Agent} (h : st.Ok) (horg : agent.orgId ≠ uuidNil) :
    State.Ok { st with agents := st.agents ++ [agent] } where
  agents s hs := by
    rw [List.length_append]
    exact (h.agents s hs).trans_le (Nat.le_add_right _ _)
  orgs a ha := by
    obtain ha | ha := List.mem_append.mp ha
    · exact h.orgs a ha
    · rwa [List.mem_singleton.mp ha]
  tokens := h.tokens
  queued := h.queued
  reached call hcall hnow j s a hs hlive hphase ha horg := by
    rw [List.getElem?_append_left (h.agents s (List.mem_of_getElem? hs))] at ha
    exact h.reached call hcall hnow j s a hs hlive hphase ha horg

theorem ok_restart {i : Nat} {agent : Agent} {state : AgentState} (h : st.Ok)
    (hagent : st.agents[i]? = some agent) :
    State.Ok { st.setAgent i { agent with state } with
      streams := st.streams.map fun s => if s.agent = i then { s with live := false } else s } where
  agents s hs := by
    obtain ⟨s, hold, rfl⟩ := List.mem_map.mp hs
    have hlt := (h.agents s hold).trans_le (List.length_set (i := i) (a := { agent with state })).ge
    split_ifs <;> exact hlt
  orgs a ha := by
    obtain ⟨n, hn⟩ := List.getElem?_of_mem ha
    obtain ⟨-, rfl⟩ | ⟨-, hold⟩ := getElem?_set_cases hn
    · exact h.orgs agent (List.mem_of_getElem? hagent)
    · exact h.orgs a (List.mem_of_getElem? hold)
  tokens := h.tokens
  queued s hs := by
    obtain ⟨s, hold, rfl⟩ := List.mem_map.mp hs
    split_ifs <;> exact h.queued s hold
  reached call hcall hnow j s a hs hlive hphase ha horg := by
    rw [List.getElem?_map] at hs
    obtain ⟨s, hold, rfl⟩ := Option.map_eq_some_iff.mp hs
    by_cases hi : s.agent = i
    · rw [if_pos hi] at hlive
      cases hlive
    · rw [if_neg hi] at hlive hphase ha ⊢
      obtain ⟨heq, -⟩ | ⟨-, ha⟩ := getElem?_set_cases ha
      · exact absurd heq hi
      · exact h.reached call hcall hnow j s a hold hlive hphase ha horg

theorem ok_connect {i : Nat} {agent : Agent} (h : st.Ok) (hagent : st.agents[i]? = some agent) :
    State.Ok
      { st with streams := st.streams ++ [⟨i, uuidNil, .handshaking, true, [], []⟩] } where
  agents s hs := by
    obtain hs | hs := List.mem_append.mp hs
    · exact h.agents s hs
    · rw [List.mem_singleton.mp hs]
      exact (List.getElem?_eq_some_iff.mp hagent).1
  orgs := h.orgs
  tokens := h.tokens
  queued s hs := by
    obtain hs | hs := List.mem_append.mp hs
    · exact h.queued s hs
    · rw [List.mem_singleton.mp hs]
      nofun
  reached call hcall hnow j s a hs hlive hphase ha horg := by
    rw [List.getElem?_append] at hs
    split_ifs at hs
    · exact h.reached call hcall hnow j s a hs hlive hphase ha horg
    · -- The new stream has no handshake behind it.
      rw [List.mem_singleton.mp (List.mem_of_getElem? hs)] at hphase
      cases hphase

theorem orgOf_eq {j : Nat} {s : Stream} {agent : Agent} (hs : st.streams[j]? = some s)
    (hagent : st.agents[s.agent]? = some agent) : st.orgOf j = some agent.orgId := by
  simp [State.orgOf, hs, hagent]

/-- A session is minted: each stream that is to get its grant is in the snapshot. -/
theorem ok_mint {g : SessionGrant} {order : List Nat} (h : st.Ok)
    (hfresh : ∀ call ∈ st.calls, call.grant.token ≠ g.token)
    (horder : order.Perm (st.snapshot g.orgId)) (hall : AllRegistered st g.orgId) :
    State.Ok { st with calls := st.calls ++ [⟨g, order⟩] } where
  agents := h.agents
  orgs := h.orgs
  tokens call hcall call' hcall' htoken := by
    obtain hcall | hcall := List.mem_append.mp hcall
    · obtain hcall' | hcall' := List.mem_append.mp hcall'
      · exact h.tokens call hcall call' hcall' htoken
      · rw [List.mem_singleton.mp hcall'] at htoken
        exact absurd htoken (hfresh call hcall)
    · rw [List.mem_singleton.mp hcall] at htoken ⊢
      obtain hcall' | hcall' := List.mem_append.mp hcall'
      · exact absurd htoken.symm (hfresh call' hcall')
      · rw [List.mem_singleton.mp hcall']
  queued s hs g' hg' := by
    obtain ⟨call, hcall, heq⟩ := h.queued s hs g' hg'
    exact ⟨call, List.mem_append_left _ hcall, heq⟩
  reached call hcall hnow j s agent hs hlive hphase hagent horg := by
    obtain hcall | hcall := List.mem_append.mp hcall
    · exact h.reached call hcall hnow j s agent hs hlive hphase hagent horg
    · obtain rfl := List.mem_singleton.mp hcall
      have hjorg : st.orgOf j = some g.orgId := (orgOf_eq hs hagent).trans (congrArg some horg)
      have hconn := hall (s, j) (List.mem_zipIdx_iff_getElem?.mpr hs) hlive hphase hjorg
      have hnil : g.orgId ≠ uuidNil := by
        rw [← show agent.orgId = g.orgId from horg]
        exact h.orgs agent (List.mem_of_getElem? hagent)
      refine .inr (.inr (.inr (horder.mem_iff.mpr ?_)))
      rw [State.snapshot, if_neg hnil, List.mem_filter, decide_eq_true_eq]
      exact ⟨List.mem_map.mpr ⟨_, AList.mem_lookup_iff.mp hconn, rfl⟩, hjorg⟩

/-- A call that is done with a stream: what is left has been sent there, if it is live. -/
theorem State.Ok.sent {k j : Nat} {call : Call} {rest : List Nat} (h : st.Ok)
    (hcall : st.calls[k]? = some call) (hrest : call.rest = j :: rest)
    (hsent : ∀ s, st.streams[j]? = some s → s.live = true → call.grant ∈ s.queue) :
    State.Ok { st with calls := st.calls.set k { call with rest } } := by
  have hold : ∀ c ∈ st.calls.set k { call with rest }, ∃ c' ∈ st.calls, c'.grant = c.grant ∧
      ∀ n ∈ c'.rest, n = j ∧ c' = call ∨ n ∈ c.rest := by
    intro c hc
    obtain ⟨n, hn⟩ := List.getElem?_of_mem hc
    obtain ⟨-, rfl⟩ | ⟨-, hold⟩ := getElem?_set_cases hn
    · refine ⟨call, List.mem_of_getElem? hcall, rfl, fun n hn => ?_⟩
      rw [hrest] at hn
      exact (List.mem_cons.mp hn).imp_left (⟨·, rfl⟩)
    · exact ⟨c, List.mem_of_getElem? hold, rfl, fun n hn => .inr hn⟩
  have hnew : ∀ c ∈ st.calls, ∃ c' ∈ st.calls.set k { call with rest }, c'.grant = c.grant := by
    intro c hc
    obtain ⟨n, hn⟩ := List.getElem?_of_mem hc
    by_cases hnk : n = k
    · subst hnk
      obtain rfl := Option.some.inj (hcall.symm.trans hn)
      exact ⟨_, List.mem_set (List.getElem?_eq_some_iff.mp hn).1 _, rfl⟩
    · exact ⟨c, List.mem_of_getElem? ((List.getElem?_set_ne (Ne.symm hnk)).trans hn), rfl⟩
  refine ⟨h.agents, h.orgs, fun c hc c' hc' htoken => ?_, fun s hs g hg => ?_, ?_⟩
  · obtain ⟨d, hd, hgrant, -⟩ := hold c hc
    obtain ⟨d', hd', hgrant', -⟩ := hold c' hc'
    rw [← hgrant, ← hgrant'] at htoken ⊢
    exact h.tokens d hd d' hd' htoken
  · obtain ⟨c, hc, rfl⟩ := h.queued s hs g hg
    exact hnew c hc
  · intro c hc hnow n s agent hs hlive hphase hagent horg
    obtain ⟨d, hd, hgrant, hrests⟩ := hold c hc
    rw [← hgrant] at hnow horg
    have hreach := h.reached d hd hnow n s agent hs hlive hphase hagent horg
    unfold Reaches at hreach ⊢
    rw [hgrant] at hreach
    obtain hholds | hin | hin | hin := hreach
    · exact .inl hholds
    · exact .inr (.inl hin)
    · exact .inr (.inr (.inl hin))
    · obtain ⟨rfl, rfl⟩ | hin := hrests n hin
      · rw [← hgrant]
        exact .inr (.inl (hsent s hs hlive))
      · exact .inr (.inr (.inr hin))

/-- The grant of a call goes to the next stream of its snapshot. -/
theorem ok_send {k j : Nat} {call : Call} {rest : List Nat} {s : Stream} (h : st.Ok)
    (hcall : st.calls[k]? = some call) (hrest : call.rest = j :: rest)
    (hs : st.streams[j]? = some s) :
    State.Ok { (if s.live then st.setStream j { s with queue := s.queue ++ [call.grant] } else st)
      with calls := st.calls.set k { call with rest } } := by
  by_cases hlive : s.live = true
  · rw [if_pos hlive]
    have hqueue : ∀ g ∈ s.queue ++ [call.grant], ∃ c ∈ st.calls, c.grant = g := by
      intro g hg
      obtain hg | hg := List.mem_append.mp hg
      · exact h.queued s (List.mem_of_getElem? hs) g hg
      · exact ⟨call, List.mem_of_getElem? hcall, (List.mem_singleton.mp hg).symm⟩
    refine @State.Ok.sent (st.setStream j _) _ _ _ _ (h.setStream hs rfl hqueue ?_) hcall hrest ?_
    · intro c hc hnow hl hphase agent hagent horg
      obtain hholds | hin | hin | hin := h.reached c hc hnow j s agent hs hl hphase hagent horg
      · exact .inl hholds
      · exact .inr (.inl (List.mem_append_left _ hin))
      · exact .inr (.inr (.inl hin))
      · exact .inr (.inr (.inr hin))
    · intro t ht _
      obtain ⟨-, rfl⟩ | ⟨hne, -⟩ := getElem?_set_cases ht
      · exact List.mem_append_right _ (List.mem_singleton_self _)
      · exact absurd rfl hne
  · rw [if_neg hlive]
    refine h.sent hcall hrest fun t ht hl => ?_
    obtain rfl := Option.some.inj (hs.symm.trans ht)
    exact absurd hl hlive

/-- An agent takes the next grant from its stream: it holds it then, or has missed it. -/
theorem ok_receive {j : Nat} {s : Stream} {agent : Agent} {g : SessionGrant}
    {queue : List SessionGrant} {ok : Bool} (h : st.Ok) (hs : st.streams[j]? = some s)
    (hagent : st.agents[s.agent]? = some agent) (hqueue : s.queue = g :: queue) :
    ((st.setAgent s.agent
      { agent with state := (grant agent.state ok g.token g.patterns g.expiry).2 }).setStream j
      { s with
        queue
        missed := if (grant agent.state ok g.token g.patterns g.expiry).1 then s.missed
          else s.missed ++ [g] }).Ok := by
  have hcalls := h.queued s (List.mem_of_getElem? hs)
  obtain ⟨sent, hsent, rfl⟩ := hcalls g (by rw [hqueue]; exact List.mem_cons_self)
  have hholds : ∀ call ∈ st.calls, Holds agent.state call.grant →
      Holds (grant agent.state ok sent.grant.token sent.grant.patterns sent.grant.expiry).2
        call.grant :=
    fun call hcall hold => holds_grant hold (h.tokens call hcall sent hsent)
  have hset : (st.setAgent s.agent { agent with
      state := (grant agent.state ok sent.grant.token sent.grant.patterns sent.grant.expiry).2 }).Ok :=
    h.setAgent hagent rfl fun call hcall _ => hholds call hcall
  refine hset.setStream hs rfl (fun g hg => hcalls g ?_) ?_
  · rw [hqueue]
    exact List.mem_cons_of_mem _ hg
  · intro call hcall hnow hlive hphase a ha horg
    obtain ⟨-, rfl⟩ | ⟨hne, -⟩ := getElem?_set_cases ha
    · obtain hold | hin | hin | hin := h.reached call hcall hnow j s agent hs hlive hphase hagent horg
      · exact .inl (hholds call hcall hold)
      · rw [hqueue] at hin
        obtain heq | hin := List.mem_cons.mp hin
        · cases hok : (grant agent.state ok sent.grant.token sent.grant.patterns
              sent.grant.expiry).1 with
          | true =>
            left
            rw [heq]
            exact holds_granted hok
          | false => exact .inr (.inr (.inl (by simp [heq])))
        · exact .inr (.inl hin)
      · refine .inr (.inr (.inl ?_))
        dsimp only
        split_ifs
        · exact hin
        · exact List.mem_append_left _ hin
      · exact .inr (.inr (.inr hin))
    · exact absurd rfl hne

theorem State.Ok.step {a : Action} (h : st.Ok) (ha : Orderly st a)
    (hstep : step st a = some st') : st'.Ok := by
  cases a with
  | tick elapsed =>
    obtain rfl := Option.some.inj hstep
    exact ok_tick h
  | boot agent =>
    simp only [Gateways.step] at hstep
    split_ifs at hstep with horg
    obtain rfl := Option.some.inj hstep
    exact ok_boot h horg
  | restart i loaded rows patterns =>
    obtain ⟨agent, hagent, hstep⟩ := Option.bind_eq_some_iff.mp hstep
    obtain ⟨state, -, rfl⟩ := Option.map_eq_some_iff.mp hstep
    exact ok_restart h hagent
  | flushExpired i ok =>
    obtain ⟨agent, hagent, rfl⟩ := Option.map_eq_some_iff.mp hstep
    exact h.setAgent hagent rfl fun call _ hnow hold => holds_flushExpired hold hnow
  | connect i =>
    obtain ⟨agent, hagent, rfl⟩ := Option.map_eq_some_iff.mp hstep
    exact ok_connect h hagent
  | handshakeAck j agentId =>
    obtain ⟨s, hs, hstep⟩ := Option.bind_eq_some_iff.mp hstep
    split_ifs at hstep with hphase
    obtain rfl := Option.some.inj hstep
    -- The agent holds what it was not sent.
    exact h.setStream hs rfl (h.queued s (List.mem_of_getElem? hs))
      fun call hcall hnow _ _ agent hagent horg => .inl (ha s hs call hcall hnow agent hagent horg)
  | register j =>
    obtain ⟨s, hs, hstep⟩ := Option.bind_eq_some_iff.mp hstep
    split_ifs at hstep with hphase
    obtain rfl := Option.some.inj hstep
    have hacked : s.phase.completed = true := by
      rw [hphase]
      rfl
    have hset : (st.setStream j { s with phase := .registered }).Ok :=
      h.setStream hs rfl (h.queued s (List.mem_of_getElem? hs))
        fun call hcall hnow hlive _ agent hagent horg =>
          (h.reached call hcall hnow j s agent hs hlive hacked hagent horg).mono rfl rfl
    exact hset.withConns _
  | drop j =>
    obtain ⟨s, hs, rfl⟩ := Option.map_eq_some_iff.mp hstep
    exact h.close hs rfl rfl rfl
  | unregister j =>
    obtain ⟨s, hs, hstep⟩ := Option.bind_eq_some_iff.mp hstep
    split_ifs at hstep with hphase
    obtain rfl := Option.some.inj hstep
    have hset : (st.setStream j { s with phase := .ended, live := false }).Ok :=
      h.close hs rfl rfl rfl
    exact hset.withConns _
  | mint q configured token identity req order =>
    simp only [Gateways.step] at hstep
    split at hstep
    · cases hstep
    · rename_i g hg
      split_ifs at hstep with hcond
      obtain rfl := Option.some.inj hstep
      exact ok_mint h hcond.1 hcond.2 (ha g (by rw [hg]; rfl))
  | send k =>
    obtain ⟨call, hcall, hstep⟩ := Option.bind_eq_some_iff.mp hstep
    split at hstep
    · cases hstep
    · rename_i j rest hrest
      obtain ⟨s, hs, rfl⟩ := Option.map_eq_some_iff.mp hstep
      exact ok_send h hcall hrest hs
  | receive j ok =>
    obtain ⟨s, hs, hstep⟩ := Option.bind_eq_some_iff.mp hstep
    obtain ⟨agent, hagent, hstep⟩ := Option.bind_eq_some_iff.mp hstep
    split at hstep
    · rename_i g queue _ hqueue
      obtain rfl := Option.some.inj hstep
      exact ok_receive h hs hagent hqueue
    · cases hstep

/-- When each stream is registered before a session is minted, and each agent holds the earlier
sessions before its handshake, every session that is minted reaches the agents. -/
theorem sessions_delivered {now : StorageAgent.Time} {st : State}
    (h : Runs step Orderly ⟨now, [], [], ∅, []⟩ st) : Delivered st := by
  have hok : st.Ok := h.invariant (State.start_ok now) fun _ _ _ hok ha hs => hok.step ha hs
  exact hok.delivered

instance (st : State) (orgId : Id) : Decidable (AllRegistered st orgId) :=
  inferInstanceAs (Decidable (∀ x ∈ st.streams.zipIdx, _))

instance (st : AgentState) (g : SessionGrant) : Decidable (Holds st g) :=
  inferInstanceAs (Decidable (_ = _))

instance (st : State) (i : Nat) : Decidable (HoldsAll st i) :=
  inferInstanceAs (Decidable (∀ call ∈ st.calls, _))

instance : ∀ st a, Decidable (Orderly st a)
  | st, .handshakeAck j _ => inferInstanceAs (Decidable (∀ s ∈ st.streams[j]?, HoldsAll st s.agent))
  | _, .mint _ _ _ _ _ _ => inferInstanceAs (Decidable (∀ g ∈ _, _))
  | _, .tick _ => inferInstanceAs (Decidable True)
  | _, .boot _ => inferInstanceAs (Decidable True)
  | _, .restart _ _ _ _ => inferInstanceAs (Decidable True)
  | _, .flushExpired _ _ => inferInstanceAs (Decidable True)
  | _, .connect _ => inferInstanceAs (Decidable True)
  | _, .register _ => inferInstanceAs (Decidable True)
  | _, .drop _ => inferInstanceAs (Decidable True)
  | _, .unregister _ => inferInstanceAs (Decidable True)
  | _, .send _ => inferInstanceAs (Decidable True)
  | _, .receive _ _ => inferInstanceAs (Decidable True)

/- An agent of organization 1 and one session in it, minted while the agent is connected. -/
def connecting : List Action :=
  [.boot ⟨1, ⟨∅, [], none⟩⟩, .connect 0, .handshakeAck 0 7, .register 0]

def minting (order : List Nat) : Action := .mint oneSpace 0 ['t'] 2 oneSpaceRequest order

/- The agent reconnects while it holds the session, which has not expired. -/
def reconnecting : List Action :=
  connecting ++ [minting [0], .send 0, .receive 0 true, .drop 0, .unregister 0, .connect 0,
    .handshakeAck 1 7, .register 1]

def delivered : State := (exec step ⟨0, [], [], ∅, []⟩ reconnecting).get (by decide)

theorem sessions_delivered_connected :
    (delivered.streams[1]?.map (·.phase) = some .registered ∧
      ∀ agent ∈ delivered.agents, Holds agent.state oneSpaceSent) ∧ Delivered delivered :=
  ⟨by decide, @sessions_delivered 0 _ (Runs.of_exec reconnecting (Option.some_get _).symm (by decide))⟩

/- The session is minted between the handshake and the registration of its stream. -/
def overtaken : State :=
  (exec step ⟨0, [], [], ∅, []⟩
    (connecting.take 3 ++ [minting [], .register 0])).get (by decide)

/-- The agent never gets to know of the session. -/
theorem sessions_not_delivered : ¬ ∀ st : State,
    Runs step (fun _ _ => True) ⟨0, [], [], ∅, []⟩ st → Delivered st := by
  intro h
  have hdelivered := h overtaken
    (Runs.of_exec_free (connecting.take 3 ++ [minting [], .register 0]) (Option.some_get _).symm)
  have hpath := hdelivered ⟨oneSpaceSent, []⟩ List.mem_cons_self rfl (by decide)
    ⟨0, 7, .registered, true, [], []⟩ List.mem_cons_self rfl rfl rfl rfl ⟨1, ⟨∅, [], none⟩⟩ rfl rfl
    "/e/acme/s/a".toList
  exact absurd (hpath.mpr (by decide)) (by decide)

end Pivox.Gateways
