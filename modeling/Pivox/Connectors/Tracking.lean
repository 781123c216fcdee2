import Pivox.Connectors.Outlines

/-!
The references of a connector, taken again from its config inside of the transaction that writes
it: first each secret is found and locked, then the rows are cleared, then they are inserted.
-/

namespace Pivox.Connectors
open ReadCommitted

variable {slugs : Slugs} {op : Op} {P : Assertion (contract slugs)} {id : Id} {scope : Scope}
  {config : Config} {own : Pending store} {db : Db store}

/- The transaction writes one connector. -/
structure Writing (id : Id) (scope : Scope) (config : Config) (own : Pending store) : Prop where
  row : ∃ c, own.lookup (.connector id) = some (some (.live c)) ∧ c.scope = scope ∧
    c.config = config
  only : ∀ id', Key.connector id' ∈ own → id' = id

theorem Writing.insert {k : Key} {new : Option (Row k)} (h : Writing id scope config own)
    (hk : ∀ id', Key.connector id' ≠ k) : Writing id scope config (own.insert k new) where
  row := by
    obtain ⟨c, hc, hrest⟩ := h.row
    exact ⟨c, (AList.lookup_insert_ne (hk id)).trans hc, hrest⟩
  only id' hmem := by
    obtain heq | hmem := (AList.mem_insert own).mp hmem
    · exact absurd heq (hk id')
    · exact h.only id' hmem

theorem Writing.mem (h : Writing id scope config own) : Key.connector id ∈ own := by
  obtain ⟨c, hc, -⟩ := h.row
  exact Guarded.mem_of_lookup hc

/- The secret is locked, under this scope and slug. -/
def Holding (own : Pending store) (secretId : Id) (scope : Scope) (slug : Text) : Prop :=
  ∃ s, own.lookup (.secret secretId) = some (some (.live s)) ∧ s.scope = scope ∧ s.slug = slug

theorem Holding.insert {secretId : Id} {slug : Text} {k : Key} {new : Option (Row k)}
    (h : Holding own secretId scope slug) (hk : Key.secret secretId ≠ k) :
    Holding (own.insert k new) secretId scope slug := by
  obtain ⟨s, hs, hrest⟩ := h
  exact ⟨s, (AList.lookup_insert_ne hk).trans hs, hrest⟩

theorem Holding.lock {secretId secretId' : Id} {slug : Text} {s : Secret}
    (h : Holding own secretId scope slug)
    (hrow : (overlay own db).lookup (.secret secretId') = some (.live s)) :
    Holding (own.insert (Key.secret secretId') (some (.live s.touched))) secretId scope slug := by
  by_cases heq : secretId = secretId'
  · subst heq
    obtain ⟨s', hs', hscope, hslug⟩ := h
    have hover : (overlay own db).lookup (Key.secret secretId) = some (.live s') :=
      @lookup_overlay_of_some store own db (Key.secret secretId) _ hs'
    cases hover.symm.trans hrow
    exact ⟨_, AList.lookup_insert own, hscope, hslug⟩
  · exact h.insert (by simpa using heq)

/-- The secrets `ids` are those that the names stand for, and are locked. -/
structure Resolved (slugs : Slugs) (scope : Scope) (names : List Text) (ids : List Id)
    (own : Pending store) : Prop where
  named : ∀ name ∈ names, ∃ slug, ∃ secretId ∈ ids,
    parseSecretRef name (namePrefix slugs scope) = .ok slug ∧ Holding own secretId scope slug
  ids : ∀ secretId ∈ ids, ∃ name ∈ names, ∃ slug,
    parseSecretRef name (namePrefix slugs scope) = .ok slug ∧ Holding own secretId scope slug

section resolve
variable {names : List Text} {ids : List Id}

theorem resolved_nil : Resolved slugs scope [] [] own := ⟨nofun, nofun⟩

theorem Resolved.map {own' : Pending store} (h : Resolved slugs scope names ids own)
    (hkeep : ∀ secretId slug, Holding own secretId scope slug → Holding own' secretId scope slug) :
    Resolved slugs scope names ids own' where
  named name hname := by
    obtain ⟨slug, secretId, hid, hparse, hhold⟩ := h.named name hname
    exact ⟨slug, secretId, hid, hparse, hkeep _ _ hhold⟩
  ids secretId hid := by
    obtain ⟨name, hname, slug, hparse, hhold⟩ := h.ids secretId hid
    exact ⟨name, hname, slug, hparse, hkeep _ _ hhold⟩

theorem Resolved.add {name slug : Text} {secretId : Id} (h : Resolved slugs scope names ids own)
    (hparse : parseSecretRef name (namePrefix slugs scope) = .ok slug)
    (hhold : Holding own secretId scope slug) :
    Resolved slugs scope (names ++ [name]) (if secretId ∈ ids then ids else ids ++ [secretId])
      own := by
  have hids : ∀ x, x ∈ (if secretId ∈ ids then ids else ids ++ [secretId]) ↔
      x ∈ ids ∨ x = secretId := by
    intro x
    split_ifs with hmem
    · exact ⟨.inl, fun hx => hx.elim (fun h => h) fun hx => hx ▸ hmem⟩
    · simp
  refine ⟨fun name' hname' => ?_, fun x hx => ?_⟩
  · obtain hname' | hname' := List.mem_append.mp hname'
    · obtain ⟨slug', x, hx, hrest⟩ := h.named name' hname'
      exact ⟨slug', x, (hids x).mpr (.inl hx), hrest⟩
    · obtain rfl := List.mem_singleton.mp hname'
      exact ⟨slug, secretId, (hids secretId).mpr (.inr rfl), hparse, hhold⟩
  · obtain hx | rfl := (hids x).mp hx
    · obtain ⟨name', hname', hrest⟩ := h.ids x hx
      exact ⟨name', List.mem_append_left _ hname', hrest⟩
    · exact ⟨name, by simp, slug, hparse, hhold⟩

end resolve

/- What the transaction has written when the names `names` are resolved. -/
def resolving (slugs : Slugs) (id : Id) (scope : Scope) (config : Config) (names : List Text)
    (ids : List Id) : Assertion (contract slugs) :=
  .wrote fun own => Writing id scope config own ∧ Resolved slugs scope names ids own

/-- By induction on the names that are left. -/
theorem outline_resolveSecretRefs (names done : List Text) (ids : List Id) :
    Outline (pends slugs true op) (resolving slugs id scope config done ids)
      (resolveSecretRefs scope (namePrefix slugs scope) names ids)
      fun ids => resolving slugs id scope config (done ++ names) ids := by
  induction names generalizing done ids with
  | nil =>
    rw [List.append_nil]
    exact Outline.pure (Q := fun ids => resolving slugs id scope config done ids)
  | cons name names ih =>
    unfold resolveSecretRefs
    cases hparse : parseSecretRef name (namePrefix slugs scope) with
    | error e => exact .throw _
    | ok slug =>
      let known (s : Id × Secret) : Assertion (contract slugs) :=
        .wrote fun own => Writing id scope config own ∧ Resolved slugs scope done ids own ∧
          Holding own s.1 scope slug
      have hlock : Outline (pends slugs true op) (resolving slugs id scope config done ids)
          (getSecretByParentForUpdate ⟨scope, slug⟩) known := by
        refine outline_lockSecret fun own log db secretId s h hrow hscope hslug => ?_
        obtain ⟨hwriting, hresolved⟩ := h
        refine ⟨hwriting.insert (by simp), hresolved.map fun _ _ hhold => hhold.lock hrow, ?_⟩
        exact ⟨_, AList.lookup_insert own, hscope, hslug⟩
      refine (outline_mapError _ hlock).bind fun s => ?_
      have hrest := ih (done ++ [name]) (if s.1 ∈ ids then ids else ids ++ [s.1])
      rw [List.append_assoc, List.singleton_append] at hrest
      refine hrest.conseq (fun own log db _ _ h => ?_) fun _ _ _ _ _ _ h => h
      obtain ⟨hwriting, hresolved, hhold⟩ := h
      exact ⟨hwriting, hresolved.add hparse hhold⟩

/-! The rows of connector_secret_refs -/

/- Which secrets the connector refers to, in the rows that the session sees. -/
def refersTo (rows : Db store) (id secretId : Id) : Bool :=
  isTracked (rows.lookup (.ref id secretId))

/- Under the lock of the connector: what is known of its references. -/
def referring (slugs : Slugs) (id : Id) (p : (Id → Bool) → Prop) : Assertion (contract slugs) where
  holds own _ db := Key.connector id ∈ own ∧ p (refersTo (overlay own db) id)
  later own _ db db' h hl := by
    have hsame : refersTo (overlay own db') id = refersTo (overlay own db) id := by
      funext secretId
      unfold refersTo
      rw [lookup_overlay own db (Key.ref id secretId), lookup_overlay own db' (Key.ref id secretId)]
      by_cases heq : db.lookup (.ref id secretId) = db'.lookup (.ref id secretId)
      · rw [heq]
      · have hrow : db'.lookup (.connector id) = db.lookup (.connector id) := hl.own _ h.1
        exact absurd ⟨rfl, heq⟩
          (hl.rely.guarded (.connector id) (by rw [hrow]) (.ref id secretId))
    exact ⟨h.1, hsame ▸ h.2⟩
  add _ _ _ _ h := h

theorem refersTo_insert {secretId : Id} {new : Option Ref} :
    refersTo (overlay (own.insert (Key.ref id secretId) new) db) id =
      Function.update (refersTo (overlay own db) id) secretId (isTracked new) := by
  funext x
  by_cases heq : x = secretId
  · subst heq
    rw [Function.update_self]
    exact congrArg isTracked (lookup_overlay_insert own db (Key.ref id x) new)
  · have hne : Key.ref id x ≠ Key.ref id secretId := by simpa using heq
    rw [Function.update_of_ne heq]
    exact congrArg isTracked (lookup_overlay_insert_ne own db new hne)

theorem Pends.putRef {secretId : Id} {new : Option Ref} (h : Pends slugs true own db)
    (hlock : Key.connector id ∈ own)
    (hstamp : refStamp ((overlay own db).lookup (.ref id secretId)) < refStamp new)
    (hsecret : isTracked new = true → ∃ scope slug, Holding own secretId scope slug) :
    Pends slugs true (own.insert (Key.ref id secretId) new) db := by
  refine h.insert ⟨hstamp, trivial, fun g hg => ?_⟩ fun g hg hopen => ?_
  · obtain rfl | ⟨rfl, -, hnew⟩ := guards_ref hg
    · exact .inr hlock
    · obtain ⟨-, -, s, hs, -⟩ := hsecret hnew
      exact .inr (Guarded.mem_of_lookup hs)
  · obtain rfl | hg := hg
    · trivial
    · obtain rfl | ⟨rfl, -, hnew⟩ := guards_ref hg
      · exact absurd ⟨rfl, id, rfl, (AList.mem_insert own).mpr (.inr hlock)⟩ hopen
      · intro connectorId _
        obtain ⟨-, -, s, hs, -⟩ := hsecret hnew
        rw [@lookup_put_ne store _ (.ref id secretId) (.secret secretId) _ (by simp),
          @lookup_overlay_of_some store own db (.secret secretId) _ hs]
        rfl

theorem execRef_delete {row new : Option Ref} (h : execRef .delete row = some new) :
    refStamp row < refStamp new ∧ isTracked new = false := by
  obtain _ | ⟨_ | _, xmax⟩ := row
  · cases h
  · cases h
  · cases h
    exact ⟨WithTop.coe_lt_coe.mpr (Nat.lt_succ_self _), rfl⟩

theorem execRef_delete_none {row : Option Ref} (h : execRef .delete row = none) :
    isTracked row = false := by
  obtain _ | ⟨_ | _, xmax⟩ := row
  · rfl
  · rfl
  · cases h

theorem execRef_insert {row new : Option Ref} (h : execRef .insert row = some new) :
    refStamp row < refStamp new ∧ isTracked new = true := by
  obtain _ | ⟨_ | _, xmax⟩ := row
  · cases h
    exact ⟨WithTop.coe_lt_coe.mpr Nat.one_pos, rfl⟩
  · cases h
    exact ⟨WithTop.coe_lt_coe.mpr (Nat.lt_succ_self _), rfl⟩
  · cases h

theorem execRef_insert_none {row : Option Ref} (h : execRef .insert row = none) :
    isTracked row = true := by
  obtain _ | ⟨_ | _, xmax⟩ := row
  · cases h
  · cases h
  · rfl

/- A fact about the pending writes that writes of references leave as it is. -/
def Steady (id : Id) (F : Pending store → Prop) : Prop :=
  ∀ own secretId new, F own → F (own.insert (Key.ref id secretId) new)

/- Only the secrets in the list are still referred to. -/
def clearing (slugs : Slugs) (id : Id) (rest : List Id) : Assertion (contract slugs) :=
  referring slugs id fun refers => ∀ secretId, refers secretId = true → secretId ∈ rest

theorem outline_deleteConnectorSecretRefs {F : Pending store → Prop} (hF : Steady id F)
    (hlock : ∀ own, F own → Key.connector id ∈ own) :
    Outline (pends slugs true op) (.wrote F) (deleteConnectorSecretRefs id)
      fun _ => (Assertion.wrote F).and (clearing slugs id []) := by
  have hread : Outline (pends slugs true op) (.wrote F) (query (.secretsOfConnector id))
      fun ss : List Id => (Assertion.wrote F).and (clearing slugs id ss) := by
    refine outline_query fun own log db (ss : List Id) _ h hss => ?_
    refine ⟨h, hlock own h, fun secretId htracked => ?_⟩
    rw [← hss]
    refine List.mem_map.mpr ⟨(id, secretId), List.mem_filter.mpr ⟨mem_refs.mpr htracked, ?_⟩, rfl⟩
    simp
  refine hread.bind fun ss => Outline.forEach_rest
    (P := fun rest => (Assertion.wrote F).and (clearing slugs id rest)) fun s rest => ?_
  refine .exec_cases (hits_ref fun own log db new hpends h hx => ?_) fun own log db _ h hx => ?_
  · obtain ⟨hF', hmem, hrest⟩ := h
    obtain ⟨hstamp, hnew⟩ := execRef_delete hx
    have hput : Pends slugs true (own.insert (Key.ref id s) new) db :=
      hpends.putRef hmem hstamp (by simp [hnew])
    refine ⟨hput, hF own s new hF', (AList.mem_insert own).mpr (.inr hmem), ?_⟩
    rw [refersTo_insert, hnew]
    intro x hx
    by_cases heq : x = s
    · subst heq
      simp at hx
    · rw [Function.update_of_ne heq] at hx
      exact (List.mem_cons.mp (hrest x hx)).resolve_left heq
  · obtain ⟨hF', hmem, hrest⟩ := h
    refine ⟨hF', hmem, fun x hx' => (List.mem_cons.mp (hrest x hx')).resolve_left ?_⟩
    rintro rfl
    have hgone := execRef_delete_none hx
    unfold refersTo at hx'
    rw [hgone] at hx'
    cases hx'

/- Every secret in `ids` is referred to but those that are left, and no other. -/
def inserting (slugs : Slugs) (id : Id) (ids rest : List Id) : Assertion (contract slugs) :=
  referring slugs id fun refers => (∀ secretId, refers secretId = true → secretId ∈ ids) ∧
    ∀ secretId ∈ ids, secretId ∈ rest ∨ refers secretId = true

theorem outline_insertConnectorSecretRefs {F : Pending store → Prop} {ids : List Id}
    (hF : Steady id F)
    (hhold : ∀ own, F own → ∀ secretId ∈ ids, ∃ scope slug, Holding own secretId scope slug) :
    Outline (pends slugs true op) ((Assertion.wrote F).and (clearing slugs id []))
      (insertConnectorSecretRefs id ids)
      fun _ => (Assertion.wrote F).and (inserting slugs id ids []) := by
  have hstart : ∀ own log db, ((Assertion.wrote F).and (clearing slugs id [])).holds own log db →
      ((Assertion.wrote F).and (inserting slugs id ids ids)).holds own log db := by
    rintro own log db ⟨hF', hmem, hnone⟩
    exact ⟨hF', hmem, fun x hx => absurd (hnone x hx) List.not_mem_nil, fun x hx => .inl hx⟩
  -- The list that is left is always part of `ids`.
  have hloop : ∀ rest : List Id, rest ⊆ ids →
      Outline (pends slugs true op) ((Assertion.wrote F).and (inserting slugs id ids rest))
        (Script.forEach (fun s => execRow (.ref id s) .insert) rest)
        fun _ => (Assertion.wrote F).and (inserting slugs id ids []) := by
    intro rest
    induction rest with
    | nil => exact fun _ => .ret ()
    | cons s rest ih =>
      intro hsub
      have hs : s ∈ ids := hsub List.mem_cons_self
      refine Outline.bind ?_ fun _ => ih fun x hx => hsub (List.mem_cons_of_mem s hx)
      refine .exec_cases (hits_ref fun own log db new hpends h hx => ?_) fun own log db _ h hx => ?_
      · obtain ⟨hF', hmem, hids, hrest⟩ := h
        obtain ⟨hstamp, hnew⟩ := execRef_insert hx
        refine ⟨hpends.putRef hmem hstamp fun _ => hhold own hF' s hs, hF own s new hF',
          (AList.mem_insert own).mpr (.inr hmem), ?_⟩
        rw [refersTo_insert, hnew]
        refine ⟨fun x hx => ?_, fun x hx => ?_⟩
        · by_cases heq : x = s
          · exact heq ▸ hs
          · rw [Function.update_of_ne heq] at hx
            exact hids x hx
        · by_cases heq : x = s
          · exact .inr (by rw [heq, Function.update_self])
          · rw [Function.update_of_ne heq]
            exact (hrest x hx).imp (fun h => (List.mem_cons.mp h).resolve_left heq) fun h => h
      · obtain ⟨hF', hmem, hids, hrest⟩ := h
        refine ⟨hF', hmem, hids, fun x hx' => ?_⟩
        obtain hmem' | hrefers := hrest x hx'
        · obtain rfl | hmem' := List.mem_cons.mp hmem'
          · exact .inr (execRef_insert_none hx)
          · exact .inl hmem'
        · exact .inr hrefers
  exact (hloop ids (List.Subset.refl ids)).conseq (fun own log db _ _ h => hstart own log db h)
    fun _ _ _ _ _ _ h => h

/-! The whole transaction -/

/- Every connector that the transaction wrote agrees with its references. -/
def settled (slugs : Slugs) : Assertion (contract slugs) where
  holds own _ db := (guarded slugs).Owns own db ∧
    ∀ id, Key.connector id ∈ own → ConnectorOk slugs id (overlay own db)
  later own _ _ db' h hl := by
    refine ⟨h.1.later hl.own, fun id hmem => ?_⟩
    have hlocal : (guarded slugs).Local (Key.connector id) (overlay own db') :=
      h.1.local_later (hl.inv.1 _) hl.rely hl.own (h.2 id hmem)
    exact hlocal
  add _ _ _ _ h := h

theorem Resolved.connectorOk {ids : List Id} (hwriting : Writing id scope config own)
    (hresolved : Resolved slugs scope (extractSecretRefs config) ids own)
    (hrefers : ∀ secretId, refersTo (overlay own db) id secretId = true ↔ secretId ∈ ids) :
    ConnectorOk slugs id (overlay own db) := by
  obtain ⟨c, hc, rfl, rfl⟩ := hwriting.row
  have hrow : (overlay own db).lookup (Key.connector id) = some (.live c) :=
    @lookup_overlay_of_some store own db (Key.connector id) _ hc
  have hidentity : ∀ secretId slug, Holding own secretId c.scope slug →
      identity ((overlay own db).lookup (.secret secretId)) = some (c.scope, slug) := by
    rintro secretId slug ⟨s, hs, hscope, rfl⟩
    rw [@lookup_overlay_of_some store own db (Key.secret secretId) _ hs, ← hscope]
    rfl
  refine ⟨fun c' hc' name hname => ?_, fun secretId htracked => ?_⟩
  · cases hrow.symm.trans hc'
    obtain ⟨slug, secretId, hid, hparse, hhold⟩ := hresolved.named name hname
    exact ⟨slug, secretId, hparse, (hrefers secretId).mpr hid, hidentity _ _ hhold⟩
  · obtain ⟨name, hname, slug, hparse, hhold⟩ :=
      hresolved.ids secretId ((hrefers secretId).mp htracked)
    exact ⟨c, slug, hrow, ⟨name, hname, hparse⟩, hidentity _ _ hhold⟩

theorem outline_trackSecretRefs :
    Outline (pends slugs true op) (.wrote (Writing id scope config))
      (trackSecretRefs slugs id scope config) fun _ => settled slugs := by
  have hresolve : Outline (pends slugs true op) (.wrote (Writing id scope config))
      (resolveSecretRefs scope (namePrefix slugs scope) (extractSecretRefs config) [])
      fun ids => resolving slugs id scope config (extractSecretRefs config) ids := by
    have hloop := @outline_resolveSecretRefs slugs op id scope config (extractSecretRefs config) [] []
    rw [List.nil_append] at hloop
    exact hloop.conseq (fun _ _ _ _ _ h => ⟨h, resolved_nil⟩) fun _ _ _ _ _ _ h => h
  refine hresolve.bind fun ids => ?_
  have hsteady : Steady id fun own => Writing id scope config own ∧
      Resolved slugs scope (extractSecretRefs config) ids own := by
    rintro own secretId new ⟨hwriting, hresolved⟩
    exact ⟨hwriting.insert (by simp), hresolved.map fun _ _ h => h.insert (by simp)⟩
  have hheld : ∀ own, Writing id scope config own ∧
      Resolved slugs scope (extractSecretRefs config) ids own →
      ∀ secretId ∈ ids, ∃ scope slug, Holding own secretId scope slug := by
    rintro own ⟨-, hresolved⟩ secretId hid
    obtain ⟨-, -, slug, -, hhold⟩ := hresolved.ids secretId hid
    exact ⟨scope, slug, hhold⟩
  refine (outline_mapError _ (outline_deleteConnectorSecretRefs hsteady fun _ h => h.1.mem)).bind
    fun _ => ?_
  refine (outline_mapError _ (outline_insertConnectorSecretRefs hsteady hheld)).conseq
    (fun _ _ _ _ _ h => h) fun _ own log db _ hJ h => ?_
  obtain ⟨⟨hwriting, hresolved⟩, -, hids, hall⟩ := h
  refine ⟨hJ.1.owns, fun id' hmem => ?_⟩
  obtain rfl := hwriting.only id' hmem
  refine hresolved.connectorOk hwriting fun secretId => ⟨hids secretId, fun hid => ?_⟩
  exact (hall secretId hid).resolve_left List.not_mem_nil

/-! Connectors -/

theorem Pends.putConnector {new : Option (Slot Connector)} (h : Pends slugs true own db)
    (hstamp : connectorStamp ((overlay own db).lookup (.connector id)) < connectorStamp new)
    (hstays : ConnectorStays ((overlay own db).lookup (.connector id)) new) :
    Pends slugs true (own.insert (Key.connector id) new) db := by
  refine h.insert ⟨hstamp, hstays, fun g hg => absurd hg not_guards_connector⟩ fun g hg hopen => ?_
  obtain rfl := hg.resolve_right not_guards_connector
  exact absurd ⟨rfl, id, rfl, (AList.mem_insert own).mpr (.inl rfl)⟩ hopen

theorem connectorStamp_touched {c c' : Connector} (h : c'.xmax = c.xmax) :
    connectorStamp (some (.live c)) < connectorStamp (some (.live c'.touched)) := by
  simp only [connectorStamp, Connector.touched, h]
  exact WithTop.coe_lt_coe.mpr (Nat.lt_succ_self _)

theorem connectorStays_touched {c c' : Connector} (h : c'.scope = c.scope) :
    ConnectorStays (some (.live c)) (some (.live c'.touched)) where
  live _ hc := by
    cases hc
    exact .inr ⟨_, rfl, h⟩
  gone := nofun

theorem execConnector_create {c : Connector} {row new : Option (Slot Connector)}
    (h : execConnector (.createConnector c) row = some new) : row = none ∧ new = some (.live c) := by
  cases row with
  | none =>
    cases h
    exact ⟨rfl, rfl⟩
  | some row => cases h

theorem execConnector_lock {p : ByParentParams} {row new : Option (Slot Connector)}
    (h : execConnector (.getConnectorByParentForUpdate p) row = some new) :
    ∃ c, row = some (.live c) ∧ c.scope = p.scope ∧ new = some (.live c.touched) := by
  obtain _ | c | _ := row
  · cases h
  · simp only [execConnector] at h
    split_ifs at h with hp
    cases h
    exact ⟨c, rfl, hp.1, rfl⟩
  · cases h

theorem execConnector_update {p : UpdateConnectorParams} {etag : String}
    {row new : Option (Slot Connector)} (h : execConnector (.updateConnector p etag) row = some new) :
    ∃ c, row = some (.live c) ∧ new = some (.live (p.apply etag c).touched) := by
  obtain _ | c | _ := row
  · cases h
  · cases h
    exact ⟨c, rfl, rfl⟩
  · cases h

theorem execConnector_delete {row new : Option (Slot Connector)}
    (h : execConnector .deleteConnector row = some new) :
    ∃ c, row = some (.live c) ∧ new = some .gone := by
  obtain _ | c | _ := row
  · cases h
  · cases h
    exact ⟨c, rfl, rfl⟩
  · cases h

theorem only_insert {k : Key} {new : Option (Row k)} :
    ∀ id', Key.connector id' ∈ (∅ : Pending store).insert k new → Key.connector id' = k := by
  intro id' hmem
  exact ((AList.mem_insert _).mp hmem).resolve_right (AList.notMem_empty _)

theorem outline_insertConnector {c : Connector} :
    Outline (pends slugs true op) .unwritten (insertConnector id c)
      fun row => .wrote (Writing row.1 c.scope c.config) := by
  let R : Option (Slot Connector) → Assertion (contract slugs) :=
    fun _ => .wrote (Writing id c.scope c.config)
  have hwrite : Outline (pends slugs true op) .unwritten
      (writeRow .database (.connector id) (.createConnector c)) R := by
    refine .write (hits_connector fun own log db new hpends hown hx => ?_)
    obtain rfl : own = ∅ := hown
    obtain ⟨hrow, rfl⟩ := execConnector_create hx
    refine ⟨hpends.putConnector ?_ ?_, ⟨⟨c, AList.lookup_insert _, rfl, rfl⟩, ?_⟩⟩
    · rw [hrow]
      exact WithTop.coe_lt_coe.mpr (Nat.succ_pos _)
    · rw [hrow]
      exact ⟨nofun, nofun⟩
    · intro id' hmem
      simpa using only_insert id' hmem
  have hreturned : ∀ row, Outline (pends slugs true op) (R row) (returned row)
      fun _ => .wrote (Writing id c.scope c.config) :=
    fun row => outline_returned fun _ _ _ _ h => h
  exact hwrite.bind fun row => (hreturned row).bind fun row =>
    Outline.pure (a := (id, row)) (Q := fun row => .wrote (Writing row.1 c.scope c.config))

/- The row of the connector is locked, and nothing else is written. -/
def openedConnector (slugs : Slugs) (c : Id × Connector) : Assertion (contract slugs) :=
  .wrote fun own => own = (∅ : Pending store).insert (Key.connector c.1) (some (.live c.2))

theorem openedConnector_lookup {c : Id × Connector} {log : Log store Op}
    (h : (openedConnector slugs c).holds own log db) :
    own.lookup (Key.connector c.1) = some (some (.live c.2)) := by
  obtain rfl := h
  exact AList.lookup_insert (∅ : Pending store)

theorem openedConnector_only {c : Id × Connector} {log : Log store Op}
    (h : (openedConnector slugs c).holds own log db) (id' : Id) (hmem : Key.connector id' ∈ own) :
    id' = c.1 := by
  obtain rfl := h
  simpa using only_insert id' hmem

/-- A connector that keeps its scope and its config still agrees with its references. -/
theorem connectorOk_insert {c c' : Connector} (h : ConnectorOk slugs id (overlay own db))
    (hrow : (overlay own db).lookup (.connector id) = some (.live c)) (hscope : c'.scope = c.scope)
    (hconfig : c'.config = c.config) :
    ConnectorOk slugs id (overlay (own.insert (Key.connector id) (some (Slot.live c'))) db) := by
  have hnew : (overlay (own.insert (Key.connector id) (some (Slot.live c'))) db).lookup
      (Key.connector id) = some (.live c') := lookup_overlay_insert own db (Key.connector id) _
  have hother : ∀ k : Key, k ≠ .connector id →
      (overlay (own.insert (Key.connector id) (some (Slot.live c'))) db).lookup k =
        (overlay own db).lookup k :=
    fun k hk => @lookup_overlay_insert_ne store own db (Key.connector id) k _ hk
  refine ⟨fun c₀ hc₀ name hname => ?_, fun secretId htracked => ?_⟩
  · cases hnew.symm.trans hc₀
    rw [hconfig] at hname
    obtain ⟨slug, secretId, hparse, htracked, hid⟩ := h.named c hrow name hname
    rw [hscope]
    refine ⟨slug, secretId, hparse, ?_, ?_⟩
    · rwa [hother (.ref id secretId) (by simp)]
    · rwa [hother (.secret secretId) (by simp)]
  · rw [hother (.ref id secretId) (by simp)] at htracked
    obtain ⟨c₀, slug, hc₀, hnames, hid⟩ := h.tracked secretId htracked
    cases hrow.symm.trans hc₀
    refine ⟨c', slug, hnew, by rwa [hscope, hconfig], ?_⟩
    rw [hother (.secret secretId) (by simp), hscope]
    exact hid

theorem settled_insert {c c' : Connector} {log : Log store Op}
    (hpends : Pends slugs true (own.insert (Key.connector id) (some (Slot.live c'))) db)
    (h : ConnectorOk slugs id (overlay own db))
    (hrow : (overlay own db).lookup (.connector id) = some (.live c))
    (hscope : c'.scope = c.scope) (hconfig : c'.config = c.config)
    (honly : ∀ id', Key.connector id' ∈ own → id' = id) :
    (settled slugs).holds (own.insert (Key.connector id) (some (.live c'))) log db := by
  refine ⟨hpends.owns, fun id' hmem => ?_⟩
  obtain rfl : id' = id := by
    obtain heq | hmem := (AList.mem_insert own).mp hmem
    · simpa using heq
    · exact honly id' hmem
  exact connectorOk_insert h hrow hscope hconfig

/- It is in the scope, and agrees with its references so far. -/
def lockedConnector (slugs : Slugs) (scope : Scope) (c : Id × Connector) :
    Assertion (contract slugs) :=
  (openedConnector slugs c).and ((Assertion.always (c.2.scope = scope)).and (settled slugs))

theorem outline_lockConnector (p : ByParentParams) :
    Outline (pends slugs true op) .unwritten (getConnectorByParentForUpdate p)
      (lockedConnector slugs p.scope) := by
  refine outline_look.bind fun row => outline_seen.bind fun found => ?_
  let R := handed fun c => lockedConnector slugs p.scope (found.1, c)
  have hwrite : Outline (pends slugs true op) .unwritten
      (writeRow .noRows (.connector found.1) (.getConnectorByParentForUpdate p)) R := by
    refine .write (hits_connector fun own log db new hpends hown hx => ?_)
    obtain rfl : own = ∅ := hown
    obtain ⟨c, hrow, hscope, rfl⟩ := execConnector_lock hx
    have hput : Pends slugs true ((∅ : Pending store).insert (Key.connector found.1)
        (some (.live c.touched))) db := by
      refine hpends.putConnector ?_ ?_
      · rw [hrow]
        exact connectorStamp_touched rfl
      · rw [hrow]
        exact connectorStays_touched rfl
    have hok : ConnectorOk slugs found.1 (overlay ∅ db) :=
      hpends.loc (.connector found.1) fun ⟨_, _, _, hmem⟩ => AList.notMem_empty _ hmem
    refine ⟨hput, rfl, hscope, settled_insert hput hok hrow rfl rfl ?_⟩
    exact fun id' hmem => absurd hmem (AList.notMem_empty _)
  have hreturned : ∀ row, Outline (pends slugs true op) (R row) (returned row)
      fun c => lockedConnector slugs p.scope (found.1, c) :=
    fun row => outline_returned fun _ _ _ _ h => h
  exact hwrite.bind fun row => (hreturned row).bind fun c =>
    Outline.pure (Q := lockedConnector slugs p.scope)

theorem openedConnector_row {c : Id × Connector} {log : Log store Op}
    (h : (openedConnector slugs c).holds own log db) :
    (overlay own db).lookup (Key.connector c.1) = some (.live c.2) :=
  @lookup_overlay_of_some store own db (Key.connector c.1) _ (openedConnector_lookup h)

/- What an update of the row leads to, whatever it sets. -/
theorem outline_updateConnector {c : Id × Connector} {p : UpdateConnectorParams}
    {Q : Assertion (contract slugs)} (h : ∀ own log db c', (openedConnector slugs c).holds own log db →
      P.holds own log db → c'.scope = c.2.scope → c'.config = p.config.getD c.2.config →
      Pends slugs true (own.insert (Key.connector c.1) (some (.live c'))) db →
      Q.holds (own.insert (Key.connector c.1) (some (.live c'))) log db) :
    Outline (pends slugs true op) ((openedConnector slugs c).and P) (updateConnector c.1 p)
      fun _ => Q := by
  refine outline_ask.bind fun etag => ?_
  refine Outline.bind (R := fun _ => Q)
    (.write (hits_connector fun own log db new hpends hP hx => ?_))
    fun row => outline_returned (R := fun _ => Q) fun _ _ _ _ h => h
  obtain ⟨c', hrow', rfl⟩ := execConnector_update hx
  have hrow := openedConnector_row hP.1
  cases hrow.symm.trans hrow'
  have hput : Pends slugs true (own.insert (Key.connector c.1)
      (some (.live (p.apply etag c.2).touched))) db := by
    refine hpends.putConnector ?_ ?_
    · rw [hrow]
      exact connectorStamp_touched rfl
    · rw [hrow]
      exact connectorStays_touched rfl
  exact ⟨hput, h own log db _ hP.1 hP.2 rfl rfl hput⟩

def NoRefs (own : Pending store) : Prop :=
  ∀ connectorId secretId, own.lookup (.ref connectorId secretId) = none

theorem outline_updateConfig {c : Id × Connector} {p : UpdateConnectorParams}
    (hconfig : p.config = some config) :
    Outline (pends slugs true op) (lockedConnector slugs scope c) (updateConnector c.1 p)
      fun _ => .wrote (Writing c.1 scope config) := by
  refine outline_updateConnector fun own log db c' hown hknown hscope hnew _ => ?_
  rw [hconfig] at hnew
  refine ⟨⟨c', AList.lookup_insert own, hscope.trans hknown.1, hnew⟩, fun id' hmem => ?_⟩
  obtain heq | hmem := (AList.mem_insert own).mp hmem
  · simpa using heq
  · exact openedConnector_only hown id' hmem

theorem outline_updateMasked {c : Id × Connector} {p : UpdateConnectorParams}
    (hconfig : p.config = none) :
    Outline (pends slugs true op) (lockedConnector slugs scope c) (updateConnector c.1 p)
      fun _ => (settled slugs).and (.wrote NoRefs) := by
  refine outline_updateConnector fun own log db c' hown hknown hscope hnew hput => ?_
  rw [hconfig] at hnew
  have hok := hknown.2.2 c.1 (Guarded.mem_of_lookup (openedConnector_lookup hown))
  refine ⟨settled_insert hput hok (openedConnector_row hown) hscope hnew
    (openedConnector_only hown), fun connectorId secretId => ?_⟩
  obtain rfl := hown
  rw [AList.lookup_insert_ne (by simp), AList.lookup_insert_ne (by simp)]
  rfl

/- The connector is deleted, and no other is written. -/
def Deleted (id : Id) (own : Pending store) : Prop :=
  own.lookup (.connector id) = some (some .gone) ∧ ∀ id', Key.connector id' ∈ own → id' = id

theorem outline_deleteConnector {c : Id × Connector} :
    Outline (pends slugs true op) (openedConnector slugs c) (deleteConnector c.1)
      fun _ => settled slugs := by
  have hdelete : Outline (pends slugs true op) (openedConnector slugs c)
      (execRow (.connector c.1) .deleteConnector) fun _ => .wrote (Deleted c.1) := by
    refine .exec_cases (hits_connector fun own log db new hpends hown hx => ?_)
      fun own log db _ hown hx => ?_
    · obtain ⟨c', hrow, rfl⟩ := execConnector_delete hx
      refine ⟨hpends.putConnector ?_ ?_, AList.lookup_insert own, fun id' hmem => ?_⟩
      · rw [hrow]
        exact WithTop.coe_lt_top _
      · rw [hrow]
        exact ⟨fun _ _ => .inl rfl, nofun⟩
      · obtain heq | hmem := (AList.mem_insert own).mp hmem
        · simpa using heq
        · exact openedConnector_only hown id' hmem
    · rw [openedConnector_row hown] at hx
      cases hx
  have hsteady : Steady c.1 (Deleted c.1) := by
    rintro own secretId new ⟨hgone, honly⟩
    refine ⟨(AList.lookup_insert_ne (by simp)).trans hgone, fun id' hmem => ?_⟩
    obtain heq | hmem := (AList.mem_insert own).mp hmem
    · cases heq
    · exact honly id' hmem
  refine hdelete.bind fun _ => (outline_deleteConnectorSecretRefs hsteady fun own h =>
    Guarded.mem_of_lookup h.1).conseq (fun _ _ _ _ _ h => h) fun _ own log db _ hJ h => ?_
  obtain ⟨⟨hgone, honly⟩, -, hnone⟩ := h
  refine ⟨hJ.1.owns, fun id' hmem => ?_⟩
  obtain rfl := honly id' hmem
  refine ⟨fun c' hc' => ?_, fun secretId htracked => ?_⟩
  · rw [@lookup_overlay_of_some store own db (Key.connector c.1) _ hgone] at hc'
    cases hc'
  · exact absurd (hnone secretId htracked) List.not_mem_nil

end Pivox.Connectors
