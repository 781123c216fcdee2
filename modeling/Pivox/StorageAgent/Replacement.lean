import Pivox.StorageAgent.Sessions

/-!
The two sets that the controller sends, endpoints and denied patterns: what of a HandshakeAck and of
a ConfigUpdate reaches the agent.
-/

namespace Pivox.StorageAgent
open Path

/- A message as the controller builds it. -/
inductive ConfigMessage where
  | handshakeAck (endpoints : List EndpointConfig) (denied : List Text)
  | configUpdate (endpoints : List EndpointConfig) (denied : List Text)

def ConfigMessage.endpoints : ConfigMessage → List EndpointConfig
  | .handshakeAck endpoints _ => endpoints
  | .configUpdate endpoints _ => endpoints

def ConfigMessage.denied : ConfigMessage → List Text
  | .handshakeAck _ denied => denied
  | .configUpdate _ denied => denied

/- The ack of AgentService.Connect: it has endpoints, and no denied patterns. -/
def buildHandshakeAck (endpoints : List EndpointConfig) : ConfigMessage := .handshakeAck endpoints []

/- A repeated field after the wire: one without elements is a nil slice. -/
def received {α : Type} (elements : List α) : Option (List α) :=
  if elements.isEmpty then none else some elements

structure AgentConfig where
  endpoints : EndpointStore
  access : AgentState

/- An Update from its start, with nothing between its steps: it has three. -/
def Update.run (backends : Backends) (commits : Bool) :
    Nat → EndpointStore → Update → Option (Bool × EndpointStore)
  | 0, _, _ => none
  | n + 1, store, u =>
    match u.step backends commits store with
    | (.goesOn u', store') => Update.run backends commits n store' u'
    | (.returned applied, store') => some (applied, store')

/- Without an error the transaction commits. -/
def EndpointStore.update (backends : Backends) (store : EndpointStore)
    (configs : List EndpointConfig) : Bool × EndpointStore :=
  ((Update.start configs).run backends true 3 store).getD (false, store)

def AgentConfig.updateEndpoints (backends : Backends) (configs : List EndpointConfig)
    (st : AgentConfig) : AgentConfig :=
  { st with endpoints := (st.endpoints.update backends configs).2 }

def AgentConfig.updateDenied (patterns : List Text) (st : AgentConfig) : AgentConfig :=
  { st with access := (StorageAgent.updateDenied st.access true patterns).2 }

/- Connect takes from the ack the sets that have elements, ReceiveLoop takes the endpoints of each
   update, and its patterns if they are not nil. -/
def AgentConfig.receive (st : AgentConfig) (backends : Backends) : ConfigMessage → AgentConfig
  | .handshakeAck endpoints denied =>
    let endpoints := (received endpoints).getD []
    let denied := (received denied).getD []
    let st := if endpoints.length > 0 then st.updateEndpoints backends endpoints else st
    if denied.length > 0 then st.updateDenied denied else st
  | .configUpdate endpoints denied =>
    let st := st.updateEndpoints backends ((received endpoints).getD [])
    match received denied with
    | some denied => st.updateDenied denied
    | none => st

/- The states after each message of a sequence, with what the backends answer at it. -/
def AgentConfig.receiveAll (st : AgentConfig) :
    List (Backends × ConfigMessage) → List (ConfigMessage × AgentConfig)
  | [] => []
  | (backends, m) :: rest =>
    (m, st.receive backends m) :: (st.receive backends m).receiveAll rest

/-- The configurations that the agent serves. -/
def AgentConfig.Serves (st : AgentConfig) (cfg : EndpointConfig) : Prop :=
  ∃ name e, st.endpoints.endpoints.lookup name = some e ∧ e.config = cfg

def AgentConfig.EndpointsAre (st : AgentConfig) (configs : List EndpointConfig) : Prop :=
  ∀ cfg, st.Serves cfg ↔ cfg ∈ configs

def AgentConfig.DeniedAre (st : AgentConfig) (patterns : List Text) : Prop :=
  ∀ p, p ∈ st.access.denied ↔ p ∈ patterns

/-- The agent has the sets of the message. -/
def AgentConfig.Has (st : AgentConfig) (m : ConfigMessage) : Prop :=
  st.EndpointsAre m.endpoints ∧ st.DeniedAre m.denied

/-! What an update of the endpoints does -/

/- The clients of the set can be made, and its rows written. -/
def AgentConfig.Accepts (st : AgentConfig) (backends : Backends) (configs : List EndpointConfig) :
    Prop :=
  (∀ cfg ∈ configs, cfg.s3.all backends = true) ∧
    (st.endpoints.persist = none ∨ ∀ cfg ∈ configs, cfg.name ≠ [""])

/- Two endpoints of the set that one route would stand for are the same. -/
def Routable (configs : List EndpointConfig) : Prop :=
  ∀ cfg ∈ configs, ∀ cfg' ∈ configs, shortName cfg.name = shortName cfg'.name → cfg = cfg'

theorem received_getD {α : Type} (elements : List α) : (received elements).getD [] = elements := by
  cases elements with
  | nil => rfl
  | cons a rest => rfl

theorem resolveInto_isSome (backends : Backends) (configs : List EndpointConfig) (out : Routes) :
    (resolveInto backends configs out).isSome = true ↔ ∀ cfg ∈ configs, cfg.s3.all backends = true := by
  induction configs generalizing out with
  | nil => simp [resolveInto]
  | cons cfg rest ih =>
    rw [resolveInto, List.forall_mem_cons]
    split
    · rename_i hcfg
      rw [ih, and_iff_right hcfg]
    · rename_i hcfg
      simp [hcfg]

theorem resolve_some {backends : Backends} {configs : List EndpointConfig} {r : Routes}
    (h : resolveEndpoints backends configs = some r) : ∃ hr,
    (Update.start configs).resolve backends = .goesOn ⟨configs, .persisting r, hr⟩ := by
  simp only [Update.start, Update.resolve]
  split
  · rename_i hnone
    rw [h] at hnone
    cases hnone
  · rename_i r' hr'
    obtain rfl : r = r' := Option.some.inj (h.symm.trans hr')
    exact ⟨fun _ hr => by cases hr; exact resolveEndpoints_eq h, rfl⟩

theorem resolve_none {backends : Backends} {configs : List EndpointConfig}
    (h : resolveEndpoints backends configs = none) :
    (Update.start configs).resolve backends = .returned false := by
  simp only [Update.start, Update.resolve]
  split
  · rfl
  · rename_i r hr
    rw [h] at hr
    cases hr

/-- An Update replaces the routes, or leaves the store as it is. -/
theorem EndpointStore.update_cases (backends : Backends) (store : EndpointStore)
    (configs : List EndpointConfig) :
    (((∀ cfg ∈ configs, cfg.s3.all backends = true) ∧
        (store.persist = none ∨ ∀ cfg ∈ configs, cfg.name ≠ [""])) ∧
      (store.update backends configs).2.endpoints = routes configs) ∨
    (¬ ((∀ cfg ∈ configs, cfg.s3.all backends = true) ∧
        (store.persist = none ∨ ∀ cfg ∈ configs, cfg.name ≠ [""])) ∧
      (store.update backends configs).2 = store) := by
  have hclients := resolveInto_isSome backends configs ∅
  rw [← resolveEndpoints] at hclients
  have hstart : (Update.start configs).step backends true store =
      ((Update.start configs).resolve backends, store) := rfl
  cases hres : resolveEndpoints backends configs with
  | none =>
    refine .inr ⟨fun h => ?_, ?_⟩
    · have hsome := hclients.mpr h.1
      rw [hres] at hsome
      cases hsome
    · rw [EndpointStore.update, Update.run, hstart, resolve_none hres, Option.getD_some]
  | some r =>
    have hclients := hclients.mp (by rw [hres]; rfl)
    obtain ⟨hr, hresolve⟩ := resolve_some hres
    have hroutes : r = routes configs := resolveEndpoints_eq hres
    have hfirst : (Update.start configs).run backends true 3 store =
        Update.run backends true 2 store ⟨configs, .persisting r, hr⟩ := by
      rw [Update.run, hstart, hresolve]
    have hlast : ∀ store', Update.run backends true 1 store' ⟨configs, .swapping r, hr⟩ =
        some (true, { store' with endpoints := r }) := fun _ => rfl
    cases hstored : store.persist with
    | none =>
      refine .inl ⟨⟨hclients, .inl rfl⟩, ?_⟩
      have hsecond : Update.run backends true 2 store ⟨configs, .persisting r, hr⟩ =
          Update.run backends true 1 store ⟨configs, .swapping r, hr⟩ := by
        rw [Update.run]
        simp only [Update.step, hstored]
      rw [EndpointStore.update, hfirst, hsecond, hlast]
      exact hroutes
    | some rows =>
      by_cases hnamed : ∀ cfg ∈ configs, cfg.name ≠ [""]
      · refine .inl ⟨⟨hclients, .inr hnamed⟩, ?_⟩
        have hwritten : replaceEndpoints configs = some (insertEndpoints configs) := by
          rw [replaceEndpoints, if_pos]
          simpa [List.all_eq_true] using hnamed
        have hsecond : Update.run backends true 2 store ⟨configs, .persisting r, hr⟩ =
            Update.run backends true 1 { store with persist := some (insertEndpoints configs) }
              ⟨configs, .swapping r, hr⟩ := by
          rw [Update.run]
          simp only [Update.step, hstored, hwritten, if_true]
        rw [EndpointStore.update, hfirst, hsecond, hlast]
        exact hroutes
      · refine .inr ⟨fun h => ?_, ?_⟩
        · obtain hnone | hall := h.2
          · cases hnone
          · exact hnamed hall
        · have hrefused : replaceEndpoints configs = none := by
            rw [replaceEndpoints, if_neg]
            simpa [List.all_eq_true] using hnamed
          have hsecond : Update.run backends true 2 store ⟨configs, .persisting r, hr⟩ =
              some (false, store) := by
            rw [Update.run]
            simp only [Update.step, hstored, hrefused]
          rw [EndpointStore.update, hfirst, hsecond, Option.getD_some]

section insertAll
variable {α κ β : Type} [DecidableEq κ] {key : α → κ} {val : α → β} {xs : List α}
  {m : AList fun _ : κ => β} {k : κ}

theorem exists_of_lookup_insertAll {v : β} (h : (insertAll key val xs m).lookup k = some v) :
    (∃ x ∈ xs, key x = k ∧ val x = v) ∨ m.lookup k = some v := by
  induction xs generalizing m with
  | nil => exact .inr h
  | cons x xs ih =>
    obtain ⟨y, hy, hk, hv⟩ | hm := ih h
    · exact .inl ⟨y, List.mem_cons_of_mem x hy, hk, hv⟩
    · by_cases hx : k = key x
      · subst hx
        rw [AList.lookup_insert, Option.some.injEq] at hm
        exact .inl ⟨x, List.mem_cons_self, rfl, hm⟩
      · rw [AList.lookup_insert_ne hx] at hm
        exact .inr hm

theorem lookup_insertAll_isSome (h : k ∈ xs.map key) :
    ((insertAll key val xs m).lookup k).isSome = true := by
  induction xs generalizing m with
  | nil => cases h
  | cons x xs ih =>
    by_cases hk : k ∈ xs.map key
    · exact ih hk
    · obtain rfl : k = key x := by simpa [hk] using h
      rw [insertAll, lookup_insertAll_of_notMem hk, AList.lookup_insert]
      rfl

end insertAll

/-- The routes of a set serve it when no two endpoints of it compete for a route. -/
theorem endpointsAre_routes_iff {st : AgentConfig} {configs : List EndpointConfig}
    (h : st.endpoints.endpoints = routes configs) : st.EndpointsAre configs ↔ Routable configs := by
  have horigin : ∀ name e, (routes configs).lookup name = some e →
      e.config ∈ configs ∧ shortName e.config.name = name := by
    intro name e he
    obtain ⟨cfg, hcfg, hname, rfl⟩ | hempty := exists_of_lookup_insertAll he
    · exact ⟨hcfg, hname⟩
    · simp at hempty
  constructor
  · intro hare cfg hcfg cfg' hcfg' hsame
    obtain ⟨name, e, he, rfl⟩ := (hare cfg).mpr hcfg
    obtain ⟨name', e', he', rfl⟩ := (hare cfg').mpr hcfg'
    rw [h] at he he'
    have hname : name = name' := by
      rw [← (horigin name e he).2, ← (horigin name' e' he').2, hsame]
    subst hname
    rw [Option.some.inj (he.symm.trans he')]
  · intro hroutable cfg
    constructor
    · intro hserves
      obtain ⟨name, e, he, rfl⟩ := hserves
      rw [h] at he
      exact (horigin name e he).1
    · intro hcfg
      have hsome : ((routes configs).lookup (shortName cfg.name)).isSome = true :=
        lookup_insertAll_isSome (List.mem_map_of_mem hcfg)
      obtain ⟨e, he⟩ := Option.isSome_iff_exists.mp hsome
      obtain ⟨hmem, hname⟩ := horigin _ e he
      exact ⟨_, e, by rw [h, he], hroutable _ hmem cfg hcfg hname⟩

/-! One message -/

/-- The set of endpoints takes its way to the agent: the update is made, and it is accepted; or the
agent has the set already. -/
def AgentConfig.EndpointsReach (st : AgentConfig) (backends : Backends) : ConfigMessage → Prop
  | .handshakeAck endpoints _ =>
    (endpoints ≠ [] ∧ st.Accepts backends endpoints ∧ Routable endpoints) ∨
      (¬ (endpoints ≠ [] ∧ st.Accepts backends endpoints) ∧ st.EndpointsAre endpoints)
  | .configUpdate endpoints _ =>
    (st.Accepts backends endpoints ∧ Routable endpoints) ∨
      (¬ st.Accepts backends endpoints ∧ st.EndpointsAre endpoints)

/-- Denied patterns are replaced by others, never by none: an empty set is lost on the wire. -/
def AgentConfig.DeniedReach (st : AgentConfig) (m : ConfigMessage) : Prop :=
  m.denied ≠ [] ∨ st.access.denied = []

/- Both, for each message of the sequence, in the state in which it comes. -/
def AgentConfig.AllReach (st : AgentConfig) : List (Backends × ConfigMessage) → Prop
  | [] => True
  | (backends, m) :: rest =>
    (st.EndpointsReach backends m ∧ st.DeniedReach m) ∧ (st.receive backends m).AllReach rest

theorem updateEndpoints_are_iff (st : AgentConfig) (backends : Backends)
    (configs : List EndpointConfig) :
    (st.updateEndpoints backends configs).EndpointsAre configs ↔
      (st.Accepts backends configs ∧ Routable configs) ∨
        (¬ st.Accepts backends configs ∧ st.EndpointsAre configs) := by
  obtain ⟨haccepts, hroutes⟩ | ⟨hrefuses, hsame⟩ := st.endpoints.update_cases backends configs
  · have haccepts : st.Accepts backends configs := haccepts
    rw [endpointsAre_routes_iff hroutes]
    simp [haccepts]
  · have hrefuses : ¬ st.Accepts backends configs := hrefuses
    have hst : st.updateEndpoints backends configs = st := by
      rw [AgentConfig.updateEndpoints, hsame]
    rw [hst]
    simp [hrefuses]

theorem updateDenied_denied (st : AgentState) (patterns : List Text) :
    (updateDenied st true patterns).2.denied = patterns := by
  cases hstore : st.store with
  | none => simp [updateDenied, writeThrough, hstore]
  | some store => simp [updateDenied, writeThrough, hstore, replaceDeniedPatterns]

theorem receive_denied (st : AgentConfig) (backends : Backends) (m : ConfigMessage) :
    (st.receive backends m).access.denied =
      if m.denied = [] then st.access.denied else m.denied := by
  have hsame : ∀ endpoints, (st.updateEndpoints backends endpoints).access = st.access :=
    fun _ => rfl
  cases m with
  | handshakeAck endpoints denied =>
    have hif : (if endpoints.length > 0 then st.updateEndpoints backends endpoints else st).access =
        st.access := by
      split
      · exact hsame endpoints
      · rfl
    cases denied with
    | nil =>
      simp only [AgentConfig.receive, received_getD, ConfigMessage.denied, List.length_nil, gt_iff_lt,
        lt_self_iff_false, if_false, if_true]
      rw [← hif]
    | cons p denied =>
      have hpos : (p :: denied).length > 0 := Nat.succ_pos _
      simp only [AgentConfig.receive, received_getD, ConfigMessage.denied, hpos, if_true,
        AgentConfig.updateDenied, updateDenied_denied]
      rfl
  | configUpdate endpoints denied =>
    cases denied with
    | nil => simp [AgentConfig.receive, received, ConfigMessage.denied, hsame]
    | cons p denied =>
      simp [AgentConfig.receive, received, ConfigMessage.denied, AgentConfig.updateDenied,
        updateDenied_denied]

theorem receive_denied_iff (st : AgentConfig) (backends : Backends) (m : ConfigMessage) :
    (st.receive backends m).DeniedAre m.denied ↔ st.DeniedReach m := by
  rw [AgentConfig.DeniedAre, AgentConfig.DeniedReach, receive_denied]
  by_cases hempty : m.denied = []
  · simp [hempty, List.eq_nil_iff_forall_not_mem]
  · simp [hempty]

theorem receive_endpoints_iff (st : AgentConfig) (backends : Backends) (m : ConfigMessage) :
    (st.receive backends m).EndpointsAre m.endpoints ↔ st.EndpointsReach backends m := by
  have hdenied : ∀ (st : AgentConfig) patterns configs,
      (st.updateDenied patterns).EndpointsAre configs ↔ st.EndpointsAre configs :=
    fun _ _ _ => Iff.rfl
  cases m with
  | handshakeAck endpoints denied =>
    have hif : ∀ st' : AgentConfig, AgentConfig.EndpointsAre
        (if denied.length > 0 then st'.updateDenied denied else st') endpoints ↔
          st'.EndpointsAre endpoints := by
      intro st'
      split
      · exact hdenied st' denied endpoints
      · exact Iff.rfl
    simp only [AgentConfig.receive, received_getD, ConfigMessage.endpoints, hif,
      AgentConfig.EndpointsReach]
    cases endpoints with
    | nil => simp
    | cons cfg endpoints =>
      simpa using updateEndpoints_are_iff st backends (cfg :: endpoints)
  | configUpdate endpoints denied =>
    simp only [AgentConfig.receive, received_getD, ConfigMessage.endpoints,
      AgentConfig.EndpointsReach, ← updateEndpoints_are_iff]
    split
    · exact hdenied _ _ _
    · exact Iff.rfl

/-- The agent has the sets of each message after it if and only if both take their way at each. -/
theorem replacement_iff (st : AgentConfig) (messages : List (Backends × ConfigMessage)) :
    (∀ r ∈ st.receiveAll messages, r.2.Has r.1) ↔ st.AllReach messages := by
  induction messages generalizing st with
  | nil => simp [AgentConfig.receiveAll, AgentConfig.AllReach]
  | cons message rest ih =>
    obtain ⟨backends, m⟩ := message
    rw [AgentConfig.receiveAll, List.forall_mem_cons, ih, AgentConfig.AllReach, AgentConfig.Has,
      receive_endpoints_iff, receive_denied_iff]

/- An agent with one denied pattern, and one endpoint on a file system. -/
def mediaConfig : EndpointConfig := ⟨["media"], none, .filesystem "/mnt"⟩

def denyingRemoval : AgentConfig := ⟨⟨∅, none⟩, ⟨∅, [['a']], none⟩⟩

/-- The ack of the controller, and an update after it, leave the pattern in force. -/
theorem denied_not_cleared : ¬ ∀ r ∈ denyingRemoval.receiveAll
    [(fun _ => true, buildHandshakeAck [mediaConfig]),
      (fun _ => true, .configUpdate [mediaConfig] [])], r.2.Has r.1 := by
  intro h
  have hlast := (h _ (List.mem_cons_of_mem _ List.mem_cons_self)).2 ['a']
  revert hlast
  decide

end Pivox.StorageAgent
