import Pivox.StorageAgent.Endpoints
import Pivox.Transition

/-!
One stream of a storage agent: Connect applies the endpoints of the HandshakeAck while ReceiveLoop
applies those of each ConfigUpdate, both to one endpoint store.
-/

namespace Pivox.StorageAgent
open Transition

inductive ControlMessage where
  | handshakeAck (endpoints : List EndpointConfig)
  | configUpdate (endpoints : List EndpointConfig)
  | other

def ControlMessage.isAck : ControlMessage → Bool
  | .handshakeAck _ => true
  | _ => false

inductive Receiver where
  | receiving
  | updating (u : Update)

/- Connect waits for the ack, finds it in its channel, and applies it. -/
inductive Connector where
  | waiting
  | answered (endpoints : List EndpointConfig)
  | updating (u : Update)
  | serving
  | stopped

structure Agent where
  store : EndpointStore
  incoming : List ControlMessage
  receiver : Receiver
  connector : Connector
  failed : Bool

def Agent.start (store : EndpointStore) (messages : List ControlMessage) : Agent :=
  ⟨store, messages, .receiving, .waiting, false⟩

/- `timeout` is the handshake's; the other acts are the next step of a goroutine. -/
inductive Act where
  | receive
  | timeout
  | take
  | connect (backends : Backends) (commits : Bool)
  | loop (backends : Backends) (commits : Bool)

/- ReceiveLoop: an ack that nobody waits for is only logged. -/
def Agent.receive (a : Agent) : Option Agent :=
  match a.receiver, a.incoming with
  | .receiving, .handshakeAck endpoints :: rest =>
    match a.connector with
    | .waiting => some { a with incoming := rest, connector := .answered endpoints }
    | _ => some { a with incoming := rest }
  | .receiving, .configUpdate endpoints :: rest =>
    some { a with incoming := rest, receiver := .updating (.start endpoints) }
  | .receiving, .other :: rest => some { a with incoming := rest }
  | _, _ => none

def Agent.timeout (a : Agent) : Option Agent :=
  match a.connector with
  | .waiting | .answered _ => some { a with connector := .stopped, failed := true }
  | _ => none

def Agent.take (a : Agent) : Option Agent :=
  match a.connector with
  | .answered endpoints =>
    some { a with
      connector := if 0 < endpoints.length then .updating (.start endpoints) else .serving }
  | _ => none

/- A set that cannot be applied is logged, and the agent goes on. -/
def Agent.connect (a : Agent) (backends : Backends) (commits : Bool) : Option Agent :=
  match a.connector with
  | .updating u =>
    match u.step backends commits a.store with
    | (.goesOn u', store) => some { a with store, connector := .updating u' }
    | (.returned applied, store) =>
      some { a with store, connector := .serving, failed := a.failed || !applied }
  | _ => none

def Agent.loop (a : Agent) (backends : Backends) (commits : Bool) : Option Agent :=
  match a.receiver with
  | .updating u =>
    match u.step backends commits a.store with
    | (.goesOn u', store) => some { a with store, receiver := .updating u' }
    | (.returned applied, store) =>
      some { a with store, receiver := .receiving, failed := a.failed || !applied }
  | _ => none

def step (a : Agent) : Act → Option Agent
  | .receive => a.receive
  | .timeout => a.timeout
  | .take => a.take
  | .connect backends commits => a.connect backends commits
  | .loop backends commits => a.loop backends commits

def Agent.isIdle (a : Agent) : Bool :=
  match a.receiver, a.connector with
  | .receiving, .serving => true
  | _, _ => false

/-- Everything that the controller sent is applied, and none of it failed. -/
def Agent.Applied (a : Agent) : Prop := a.incoming = [] ∧ a.isIdle = true ∧ a.failed = false

/-! What is still to be written -/

/- The two writes of an Update. -/
inductive Layer where
  | disk
  | memory

def ControlMessage.endpointSet : ControlMessage → Option (List EndpointConfig)
  | .handshakeAck endpoints => some endpoints
  | .configUpdate endpoints => some endpoints
  | .other => none

def endpointSets (messages : List ControlMessage) : List (List EndpointConfig) :=
  messages.filterMap (·.endpointSet)

def Update.owes (layer : Layer) (u : Update) : List (List EndpointConfig) :=
  match layer, u.stage with
  | .disk, .swapping _ => []
  | _, _ => [u.configs]

def Receiver.owes (layer : Layer) : Receiver → List (List EndpointConfig)
  | .receiving => []
  | .updating u => u.owes layer

def Connector.owes (layer : Layer) : Connector → List (List EndpointConfig)
  | .answered endpoints => [endpoints]
  | .updating u => u.owes layer
  | _ => []

/- The layer that the next step of an Update writes. -/
def Update.writes (u : Update) : Option Layer :=
  match u.stage with
  | .resolving => none
  | .persisting _ => some .disk
  | .swapping _ => some .memory

/-- ReceiveLoop writes the last set of the stream to a layer only when Connect has written the ack's
there. -/
def AckFirst (a : Agent) : Act → Prop
  | .loop _ _ =>
    match a.receiver with
    | .updating u => ∀ layer ∈ u.writes, endpointSets a.incoming = [] → a.connector.owes layer = []
    | .receiving => True
  | _ => True

instance (a : Agent) : (act : Act) → Decidable (AckFirst a act)
  | .receive | .timeout | .take | .connect _ _ => inferInstanceAs (Decidable True)
  | .loop _ _ =>
    match h : a.receiver with
    | .receiving => isTrue (by simp only [AckFirst, h])
    | .updating u =>
      decidable_of_iff (∀ layer ∈ u.writes, endpointSets a.incoming = [] → a.connector.owes layer = [])
        (by simp only [AckFirst, h])

/- The sets in the order in which their writes should reach the layer. -/
def Agent.owes (layer : Layer) (a : Agent) : List (List EndpointConfig) :=
  a.connector.owes layer ++ (a.receiver.owes layer ++ endpointSets a.incoming)

def Written (configs : List EndpointConfig) (store : EndpointStore) : Layer → Prop
  | .disk => store.persist = some (insertEndpoints configs)
  | .memory => store.endpoints = routes configs

/- Of the sets that are owed the last is the final one; when none is, that one is written. -/
def Settles (final : List EndpointConfig) (layer : Layer) (a : Agent) : Prop :=
  match (a.owes layer).getLast? with
  | some configs => configs = final
  | none => Written final a.store layer

def Connector.isWaiting : Connector → Bool
  | .waiting => true
  | _ => false

/-- What holds of an agent while nothing has failed. -/
structure Agent.Sound (final : List EndpointConfig) (a : Agent) : Prop where
  settles : ∀ layer, Settles final layer a
  persists : a.store.persist.isSome = true
  acks : a.incoming.countP (·.isAck) = if a.connector.isWaiting then 1 else 0
  nonempty : ∀ endpoints, a.connector = .answered endpoints → endpoints ≠ []
  incoming : ∀ configs ∈ endpointSets a.incoming, configs ≠ []

/-! Steps -/

def Next.owes (layer : Layer) : Next → List (List EndpointConfig)
  | .goesOn u => u.owes layer
  | .returned _ => []

section update
variable {u : Update} {backends : Backends} {commits : Bool} {store : EndpointStore}

theorem Update.owes_of_writes {layer : Layer} (h : u.writes = some layer) :
    u.owes layer = [u.configs] := by
  obtain ⟨configs, stage, _⟩ := u
  cases stage <;> cases h <;> rfl

/-- A step of an Update that does not fail writes one layer, or none. -/
theorem Update.step_layer (hpersist : store.persist.isSome = true) (layer : Layer)
    (hok : (u.step backends commits store).1 ≠ .returned false) :
    (u.writes = some layer ∧ (u.step backends commits store).1.owes layer = [] ∧
      Written u.configs (u.step backends commits store).2 layer) ∨
    ((u.step backends commits store).1.owes layer = u.owes layer ∧
      ∀ configs, Written configs store layer →
        Written configs (u.step backends commits store).2 layer) := by
  obtain ⟨configs, stage, hsound⟩ := u
  obtain ⟨rows, hrows⟩ := Option.isSome_iff_exists.mp hpersist
  cases stage with
  | resolving =>
    simp only [Update.step, Update.resolve] at hok ⊢
    split at hok
    · exact absurd rfl hok
    · cases layer <;> exact .inr ⟨rfl, fun _ h => h⟩
  | persisting r =>
    simp only [Update.step, hrows] at hok ⊢
    cases hreplace : replaceEndpoints configs with
    | none => simp [hreplace] at hok
    | some rows' =>
      cases commits with
      | false => simp [hreplace] at hok
      | true =>
        cases layer with
        | disk => exact .inl ⟨rfl, rfl, congrArg some (replaceEndpoints_eq hreplace)⟩
        | memory => exact .inr ⟨rfl, fun _ h => h⟩
  | swapping r =>
    cases layer with
    | disk => exact .inr ⟨rfl, fun _ h => h⟩
    | memory => exact .inl ⟨rfl, rfl, hsound r rfl⟩

theorem Update.step_persists (hpersist : store.persist.isSome = true) :
    (u.step backends commits store).2.persist.isSome = true := by
  obtain ⟨configs, stage, _⟩ := u
  cases stage with
  | resolving => exact hpersist
  | persisting r =>
    simp only [Update.step]
    split
    · exact hpersist
    · exact hpersist
    · split
      · rfl
      · exact hpersist
  | swapping r => exact hpersist

end update

variable {final : List EndpointConfig} {layer : Layer} {a a' : Agent}

theorem Settles.same (h : Settles final layer a) (howes : a'.owes layer = a.owes layer)
    (hwritten : ∀ configs, Written configs a.store layer → Written configs a'.store layer) :
    Settles final layer a' := by
  rw [Settles, howes]
  cases hlast : (a.owes layer).getLast? with
  | some configs => simpa [Settles, hlast] using h
  | none => exact hwritten _ (by simpa [Settles, hlast] using h)

/-- A set is written: the last one comes last. -/
theorem Settles.write {configs : List EndpointConfig} (before after : List (List EndpointConfig))
    (h : Settles final layer a) (howes : a.owes layer = before ++ configs :: after)
    (howes' : a'.owes layer = before ++ after) (hlast : after = [] → before = [])
    (hwritten : Written configs a'.store layer) : Settles final layer a' := by
  rw [Settles, howes] at h
  rw [Settles, howes']
  cases after with
  | nil =>
    have hnil : before = [] := hlast rfl
    subst hnil
    have hfinal : configs = final := by simpa using h
    exact hfinal ▸ hwritten
  | cons c rest => simpa [List.getLast?_append, List.getLast?_cons] using h

theorem Agent.Sound.receive (h : a.Sound final) (hstep : a.receive = some a') : a'.Sound final := by
  obtain ⟨store, incoming, receiver, connector, failed⟩ := a
  cases receiver with
  | updating u => simp [Agent.receive] at hstep
  | receiving =>
    cases incoming with
    | nil => simp [Agent.receive] at hstep
    | cons m rest =>
      have hrest : ∀ configs ∈ endpointSets rest, configs ≠ [] := fun configs hc =>
        h.incoming configs (by
          cases m <;> simp only [endpointSets, List.filterMap_cons, ControlMessage.endpointSet] <;>
            first | exact hc | exact List.mem_cons_of_mem _ hc)
      have hacks := h.acks
      cases m with
      | handshakeAck endpoints =>
        cases connector with
        | waiting =>
          cases hstep
          refine ⟨fun layer => (h.settles layer).same rfl fun _ hw => hw, h.persists, ?_, ?_, hrest⟩
          · simpa [ControlMessage.isAck, Connector.isWaiting] using hacks
          · rintro _ ⟨⟩
            exact h.incoming endpoints List.mem_cons_self
        | _ => simp [ControlMessage.isAck, Connector.isWaiting] at hacks
      | configUpdate endpoints =>
        cases hstep
        exact ⟨fun layer => (h.settles layer).same (by cases layer <;> rfl) fun _ hw => hw,
          h.persists, by simpa [ControlMessage.isAck] using hacks, h.nonempty, hrest⟩
      | other =>
        cases hstep
        exact ⟨fun layer => (h.settles layer).same rfl fun _ hw => hw, h.persists,
          by simpa [ControlMessage.isAck] using hacks, h.nonempty, hrest⟩

theorem Agent.Sound.take (h : a.Sound final) (hstep : a.take = some a') : a'.Sound final := by
  obtain ⟨store, incoming, receiver, connector, failed⟩ := a
  cases connector with
  | answered endpoints =>
    have hpos : 0 < endpoints.length := List.length_pos_iff.mpr (h.nonempty endpoints rfl)
    simp only [Agent.take, hpos, if_true, Option.some.injEq] at hstep
    subst hstep
    exact ⟨fun layer => (h.settles layer).same (by cases layer <;> rfl) fun _ hw => hw, h.persists,
      h.acks, nofun, h.incoming⟩
  | _ => simp [Agent.take] at hstep

/- A goroutine's step, when the Update at hand does not fail. -/
structure Steps (u : Update) (backends : Backends) (commits : Bool) (a a' : Agent) : Prop where
  ok : (u.step backends commits a.store).1 ≠ .returned false
  store : a'.store = (u.step backends commits a.store).2
  incoming : a'.incoming = a.incoming

theorem Agent.connect_cases {backends : Backends} {commits : Bool}
    (h : a.connect backends commits = some a') (hok : a'.failed = false) :
    ∃ u, a.connector = .updating u ∧ Steps u backends commits a a' ∧ a'.receiver = a.receiver ∧
      a'.connector.isWaiting = false ∧ (∀ endpoints, a'.connector ≠ .answered endpoints) ∧
      ∀ layer, a'.connector.owes layer = (u.step backends commits a.store).1.owes layer := by
  obtain ⟨store, incoming, receiver, connector, failed⟩ := a
  cases connector with
  | updating u =>
    refine ⟨u, rfl, ?_⟩
    simp only [Agent.connect] at h
    split at h
    · rename_i u' store' heq
      cases h
      exact ⟨⟨by simp [heq], by simp [heq], rfl⟩, rfl, rfl, by simp,
        fun layer => by rw [heq]; rfl⟩
    · rename_i applied store' heq
      cases h
      simp only [Bool.or_eq_false_iff, Bool.not_eq_false'] at hok
      exact ⟨⟨by simp [heq, hok.2], by simp [heq], rfl⟩, rfl, rfl, by simp,
        fun layer => by rw [heq]; rfl⟩
  | _ => simp [Agent.connect] at h

theorem Agent.loop_cases {backends : Backends} {commits : Bool}
    (h : a.loop backends commits = some a') (hok : a'.failed = false) :
    ∃ u, a.receiver = .updating u ∧ Steps u backends commits a a' ∧ a'.connector = a.connector ∧
      ∀ layer, a'.receiver.owes layer = (u.step backends commits a.store).1.owes layer := by
  obtain ⟨store, incoming, receiver, connector, failed⟩ := a
  cases receiver with
  | updating u =>
    refine ⟨u, rfl, ?_⟩
    simp only [Agent.loop] at h
    split at h
    · rename_i u' store' heq
      cases h
      exact ⟨⟨by simp [heq], by simp [heq], rfl⟩, rfl, fun layer => by rw [heq]; rfl⟩
    · rename_i applied store' heq
      cases h
      simp only [Bool.or_eq_false_iff, Bool.not_eq_false'] at hok
      exact ⟨⟨by simp [heq, hok.2], by simp [heq], rfl⟩, rfl, fun layer => by rw [heq]; rfl⟩
  | receiving => simp [Agent.loop] at h

theorem Agent.Sound.connect {backends : Backends} {commits : Bool} (h : a.Sound final)
    (hstep : a.connect backends commits = some a') (hok : a'.failed = false) : a'.Sound final := by
  obtain ⟨u, hu, hs, hreceiver, hwaiting, hanswered, howes⟩ := connect_cases hstep hok
  refine ⟨fun layer => ?_, ?_, ?_, fun e he => absurd he (hanswered e), ?_⟩
  · have hother : a'.receiver.owes layer ++ endpointSets a'.incoming =
        a.receiver.owes layer ++ endpointSets a.incoming := by rw [hreceiver, hs.incoming]
    obtain ⟨hwrites, hnone, hwritten⟩ | ⟨hsame, hwritten⟩ := Update.step_layer h.persists layer hs.ok
    · refine (h.settles layer).write [] (a.receiver.owes layer ++ endpointSets a.incoming) ?_ ?_
        (fun _ => rfl) (hs.store ▸ hwritten)
      · rw [owes, hu, Connector.owes, Update.owes_of_writes hwrites]
        rfl
      · rw [owes, hother, howes, hnone]
    · refine (h.settles layer).same ?_ (hs.store ▸ hwritten)
      rw [owes, owes, hother, howes, hsame, hu, Connector.owes]
  · rw [hs.store]
    exact Update.step_persists h.persists
  · have hacks := h.acks
    rw [hu] at hacks
    rw [hs.incoming, hacks, hwaiting]
    rfl
  · rw [hs.incoming]
    exact h.incoming

theorem Agent.Sound.loop {backends : Backends} {commits : Bool} (h : a.Sound final)
    (hfirst : AckFirst a (.loop backends commits)) (hstep : a.loop backends commits = some a')
    (hok : a'.failed = false) : a'.Sound final := by
  obtain ⟨u, hu, hs, hconnector, howes⟩ := loop_cases hstep hok
  refine ⟨fun layer => ?_, ?_, ?_, ?_, ?_⟩
  · obtain ⟨hwrites, hnone, hwritten⟩ | ⟨hsame, hwritten⟩ := Update.step_layer h.persists layer hs.ok
    · refine (h.settles layer).write (a.connector.owes layer) (endpointSets a.incoming) ?_ ?_ ?_
        (hs.store ▸ hwritten)
      · rw [owes, hu, Receiver.owes, Update.owes_of_writes hwrites]
        rfl
      · rw [owes, hs.incoming, hconnector, howes, hnone]
        rfl
      · simp only [AckFirst, hu] at hfirst
        exact hfirst layer hwrites
    · refine (h.settles layer).same ?_ (hs.store ▸ hwritten)
      rw [owes, owes, hconnector, howes, hsame, hu, Receiver.owes, hs.incoming]
  · rw [hs.store]
    exact Update.step_persists h.persists
  · rw [hs.incoming, hconnector]
    exact h.acks
  · rw [hconnector]
    exact h.nonempty
  · rw [hs.incoming]
    exact h.incoming

theorem Agent.failed_of_step {act : Act} (h : step a act = some a') (hf : a.failed = true) :
    a'.failed = true := by
  cases act with
  | receive =>
    simp only [step, Agent.receive] at h
    grind -linarith
  | timeout =>
    simp only [step, Agent.timeout] at h
    grind -linarith
  | take =>
    simp only [step, Agent.take] at h
    grind -linarith
  | connect backends commits =>
    simp only [step, Agent.connect] at h
    grind -linarith
  | loop backends commits =>
    simp only [step, Agent.loop] at h
    grind -linarith

/-- Step lemma: while nothing fails, the writes that are owed end with the final set. -/
theorem Agent.Sound.step {act : Act} (h : a.Sound final) (hfirst : AckFirst a act)
    (hstep : step a act = some a') (hok : a'.failed = false) : a'.Sound final := by
  cases act with
  | receive => exact h.receive hstep
  | timeout =>
    simp only [StorageAgent.step, Agent.timeout] at hstep
    split at hstep <;> cases hstep <;> cases hok
  | take => exact h.take hstep
  | connect backends commits => exact h.connect hstep hok
  | loop backends commits => exact h.loop hfirst hstep hok

/-- What the controller sends on one stream: endpoint sets that are not empty, one of them in the
ack. -/
structure Sent where
  messages : List ControlMessage
  oneAck : messages.countP (·.isAck) = 1
  nonempty : ∀ configs ∈ endpointSets messages, configs ≠ []

def Sent.last (sent : Sent) : List EndpointConfig := (endpointSets sent.messages).getLast?.getD []

theorem Sent.getLast?_eq (sent : Sent) : (endpointSets sent.messages).getLast? = some sent.last := by
  have hne : endpointSets sent.messages ≠ [] := by
    have hpos : 0 < sent.messages.countP (·.isAck) := by
      rw [sent.oneAck]
      exact Nat.one_pos
    obtain ⟨m, hm, hack⟩ := List.countP_pos_iff.mp hpos
    cases m with
    | handshakeAck endpoints =>
      exact List.ne_nil_of_mem (List.mem_filterMap.mpr ⟨_, hm, rfl⟩)
    | _ => cases hack
  rw [Sent.last, List.getLast?_eq_some_getLast hne]
  rfl

theorem Agent.sound_start {store : EndpointStore} (hpersist : store.persist.isSome = true)
    (sent : Sent) : (Agent.start store sent.messages).Sound sent.last where
  settles layer := by
    have howes : (Agent.start store sent.messages).owes layer = endpointSets sent.messages := rfl
    rw [Settles, howes, sent.getLast?_eq]
  persists := hpersist
  acks := sent.oneAck
  nonempty := nofun
  incoming := sent.nonempty

/-- Run lemma of `Agent.Sound.step`. -/
theorem Agent.sound_of_runs {store : EndpointStore} (hpersist : store.persist.isSome = true)
    {sent : Sent} (h : Runs StorageAgent.step AckFirst (.start store sent.messages) a)
    (hok : a.failed = false) : a.Sound sent.last := by
  refine h.invariant (I := fun a => a.failed = false → a.Sound sent.last)
    (fun _ => sound_start hpersist sent) (fun s act s' hs hfirst hstep hok' => ?_) hok
  cases hf : s.failed with
  | false => exact (hs hf).step hfirst hstep hok'
  | true => simp [failed_of_step hstep hf] at hok'

def EndpointStore.inMemory (store : EndpointStore) : List EndpointConfig :=
  store.endpoints.entries.map (·.2.config)

def EndpointStore.onDisk (store : EndpointStore) : List EndpointConfig :=
  match store.persist with
  | some rows => rows.entries.map (·.2)
  | none => []

/-- The endpoints in memory and those on disk are the ones of this set. -/
def Converged (store : EndpointStore) (configs : List EndpointConfig) : Prop :=
  ∀ cfg, (cfg ∈ store.inMemory ↔ cfg ∈ configs) ∧ (cfg ∈ store.onDisk ↔ cfg ∈ configs)

theorem mem_values {κ β γ : Type} [DecidableEq κ] {m : AList fun _ : κ => β} {f : β → γ} {c : γ} :
    c ∈ m.entries.map (fun e => f e.2) ↔ ∃ k v, m.lookup k = some v ∧ f v = c := by
  simp only [List.mem_map, ← Option.mem_def, AList.mem_lookup_iff]
  constructor
  · rintro ⟨⟨k, v⟩, hmem, rfl⟩
    exact ⟨k, v, hmem, rfl⟩
  · rintro ⟨k, v, hmem, rfl⟩
    exact ⟨⟨k, v⟩, hmem, rfl⟩

theorem converged_of_written {store : EndpointStore} {configs : List EndpointConfig}
    (hdistinct : (configs.map fun cfg => shortName cfg.name).Nodup)
    (h : ∀ layer, Written configs store layer) : Converged store configs := by
  have hnames : (configs.map (·.name)).Nodup := by
    refine List.Nodup.of_map shortName ?_
    rwa [List.map_map]
  have hmemory : store.endpoints = routes configs := h .memory
  have hdisk : store.persist = some (insertEndpoints configs) := h .disk
  intro cfg
  constructor
  · rw [EndpointStore.inMemory, hmemory, mem_values]
    constructor
    · rintro ⟨k, ep, hlookup, rfl⟩
      obtain ⟨c, hc, -, rfl⟩ := (lookup_insertAll_empty hdistinct).mp hlookup
      exact hc
    · intro hc
      exact ⟨shortName cfg.name, cfg.endpoint,
        (lookup_insertAll_empty hdistinct).mpr ⟨cfg, hc, rfl, rfl⟩, rfl⟩
  · have hvalues : store.onDisk = (insertEndpoints configs).entries.map fun e => id e.2 := by
      rw [EndpointStore.onDisk, hdisk]
      rfl
    rw [hvalues, mem_values]
    constructor
    · rintro ⟨k, c, hlookup, rfl⟩
      obtain ⟨c', hc, -, rfl⟩ := (lookup_insertAll_empty hnames).mp hlookup
      exact hc
    · intro hc
      exact ⟨cfg.name, cfg, (lookup_insertAll_empty hnames).mpr ⟨cfg, hc, rfl, rfl⟩, rfl⟩

/-- Once everything is applied, memory and disk hold the last set of the stream, when Connect was
not overtaken and the endpoints of that set have distinct short names. -/
theorem endpoints_converge {store : EndpointStore} (hpersist : store.persist.isSome = true)
    (sent : Sent) (hdistinct : (sent.last.map fun cfg => shortName cfg.name).Nodup)
    (h : Runs step AckFirst (.start store sent.messages) a) (happlied : a.Applied) :
    Converged a.store sent.last := by
  obtain ⟨hincoming, hidle, hok⟩ := happlied
  have hsound := Agent.sound_of_runs hpersist h hok
  refine converged_of_written hdistinct fun layer => ?_
  have hnone : a.owes layer = [] := by
    obtain ⟨store, incoming, receiver, connector, failed⟩ := a
    cases receiver with
    | updating u => cases connector <;> cases hidle
    | receiving =>
      cases connector with
      | serving =>
        rw [Agent.owes, hincoming]
        rfl
      | _ => cases hidle
  have hsettles := hsound.settles layer
  rw [Settles, hnone] at hsettles
  exact hsettles

/- A gateway with one endpoint when the agent connects, replaced by another right after. -/
def media (name : String) : EndpointConfig := ⟨[name], none, .filesystem "/mnt"⟩

def twoSets : Sent :=
  ⟨[.handshakeAck [media "old"], .configUpdate [media "new"]], by decide, by decide⟩

def emptyStore : EndpointStore := ⟨∅, some ∅⟩

def connects (n : Nat) : List Act := List.replicate n (.connect (fun _ => true) true)

def loops (n : Nat) : List Act := List.replicate n (.loop (fun _ => true) true)

def orderlyTrace : List Act := [Act.receive, .take] ++ connects 3 ++ [Act.receive] ++ loops 3

/- The update overtakes the ack between the ack's two writes. -/
def overtakenTrace : List Act :=
  [Act.receive, .take] ++ connects 2 ++ [Act.receive] ++ loops 3 ++ connects 1

def orderlyAgent : Agent :=
  (exec step (.start emptyStore twoSets.messages) orderlyTrace).get (by decide)

def overtakenAgent : Agent :=
  (exec step (.start emptyStore twoSets.messages) overtakenTrace).get (by decide)

theorem endpoints_converge_orderly : Converged orderlyAgent.store twoSets.last :=
  endpoints_converge rfl twoSets (by decide)
    (Runs.of_exec orderlyTrace (Option.some_get _).symm (by decide)) ⟨rfl, rfl, rfl⟩

theorem endpoints_not_converge :
    ¬ ∀ (store : EndpointStore) (sent : Sent) (a : Agent), store.persist.isSome = true →
      Runs step (fun _ _ => True) (.start store sent.messages) a → a.Applied →
      Converged a.store sent.last := by
  intro h
  have hconverged : Converged overtakenAgent.store twoSets.last :=
    h emptyStore twoSets overtakenAgent rfl
      (Runs.of_exec_free overtakenTrace (Option.some_get _).symm) ⟨rfl, rfl, rfl⟩
  have hstale : media "old" ∈ twoSets.last := (hconverged (media "old")).1.mp (by decide)
  exact absurd hstale (by decide)

end Pivox.StorageAgent
