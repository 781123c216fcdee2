import Pivox.ReadCommitted.Guarded
import Pivox.Connectors.Handlers

/-!
What the handlers keep of secrets and connectors: a reference changes only under the lock of its
connector and appears only under the lock of its secret, and a slug is held by one secret.
-/

namespace Pivox.Connectors
open ReadCommitted

/- The secret in a row, deleted or not. -/
def slotSecret : Option SecretSlot → Option Secret
  | some (.live s) => some s
  | some (.gone s) => some s
  | none => none

def identity (row : Option SecretSlot) : Option (Scope × Text) :=
  (slotSecret row).map fun s => (s.scope, s.slug)

def liveIdentity : Option SecretSlot → Option (Scope × Text)
  | some (.live s) => some (s.scope, s.slug)
  | _ => none

theorem identity_of_live {row : Option SecretSlot} {i : Scope × Text}
    (h : liveIdentity row = some i) : identity row = some i := by
  obtain _ | s | s := row
  · cases h
  · exact h
  · cases h

def secretStamp : Option SecretSlot → WithTop ℕ
  | none => (0 : ℕ)
  | some (.live s) => (s.xmax + 1 : ℕ)
  | some (.gone _) => ⊤

def slugStamp : Option SlugEntry → WithTop ℕ
  | none => (0 : ℕ)
  | some e => (e.xmax + 1 : ℕ)

def connectorStamp : Option (Slot Connector) → WithTop ℕ
  | none => (0 : ℕ)
  | some (.live c) => (c.xmax + 1 : ℕ)
  | some .gone => ⊤

def refStamp : Option Ref → WithTop ℕ
  | none => (0 : ℕ)
  | some r => (r.xmax + 1 : ℕ)

/- A connector stays in its scope, and is not made again. -/
structure ConnectorStays (old new : Option (Slot Connector)) : Prop where
  live : ∀ c, old = some (.live c) → new = some .gone ∨
    ∃ c', new = some (.live c') ∧ c'.scope = c.scope
  gone : old = some .gone → new = some .gone

theorem ConnectorStays.refl (old : Option (Slot Connector)) : ConnectorStays old old where
  live c h := .inr ⟨c, h, rfl⟩
  gone h := h

theorem ConnectorStays.trans {a b c : Option (Slot Connector)} (h : ConnectorStays a b)
    (h' : ConnectorStays b c) : ConnectorStays a c where
  live w ha := by
    obtain hb | ⟨w', hb, hscope⟩ := h.live w ha
    · exact .inl (h'.gone hb)
    · rw [← hscope]
      exact h'.live w' hb
  gone ha := h'.gone (h.gone ha)

/-! The invariants -/

variable {slugs : Slugs}

/- A name in a config, and the slug that it stands for in the scope of the connector. -/
def Names (slugs : Slugs) (scope : Scope) (config : Config) (slug : Text) : Prop :=
  ∃ name ∈ extractSecretRefs config, parseSecretRef name (namePrefix slugs scope) = .ok slug

/- The references of a connector are to the secrets that its config names. -/
structure ConnectorOk (slugs : Slugs) (id : Id) (db : Db store) : Prop where
  named : ∀ c, db.lookup (.connector id) = some (.live c) → ∀ name ∈ extractSecretRefs c.config,
    ∃ slug secretId, parseSecretRef name (namePrefix slugs c.scope) = .ok slug ∧
      isTracked (db.lookup (.ref id secretId)) = true ∧
      identity (db.lookup (.secret secretId)) = some (c.scope, slug)
  tracked : ∀ secretId, isTracked (db.lookup (.ref id secretId)) = true →
    ∃ c slug, db.lookup (.connector id) = some (.live c) ∧ Names slugs c.scope c.config slug ∧
      identity (db.lookup (.secret secretId)) = some (c.scope, slug)

/- A secret that a connector refers to is there. -/
def SecretOk (id : Id) (db : Db store) : Prop :=
  ∀ connectorId, isTracked (db.lookup (.ref connectorId id)) = true →
    (liveIdentity (db.lookup (.secret id))).isSome = true

/- The holder of a slug is the only secret with it. -/
def SlugOk (scope : Scope) (slug : Text) (db : Db store) : Prop :=
  ∀ id, liveIdentity (db.lookup (.secret id)) = some (scope, slug) →
    ∃ xmax, db.lookup (.secretSlug scope slug) = some ⟨some id, xmax⟩

/-- The changes of row `k` that only who wrote row `g` may make. -/
def guards : (g k : Key) → Option (Row k) → Option (Row k) → Prop
  | .connector id, .ref connectorId _ => fun old new => connectorId = id ∧ old ≠ new
  | .secret id, .ref _ secretId => fun old new =>
    secretId = id ∧ Becomes (isTracked · = true) old new
  | .secretSlug scope slug, .secret _ => Becomes (liveIdentity · = some (scope, slug))
  | _, _ => fun _ _ => False

def stays : (k : Key) → Option (Row k) → Option (Row k) → Prop
  | .secret _ => fun old new => ∀ i, identity old = some i → identity new = some i
  | .connector _ => ConnectorStays
  | _ => fun _ _ => True

def stamp : (k : Key) → Option (Row k) → WithTop ℕ
  | .secret _ => secretStamp
  | .secretSlug _ _ => slugStamp
  | .connector _ => connectorStamp
  | .ref _ _ => refStamp

def Local (slugs : Slugs) : Key → Db store → Prop
  | .secret id => SecretOk id
  | .secretSlug scope slug => SlugOk scope slug
  | .connector id => ConnectorOk slugs id
  | .ref _ _ => fun _ => True

theorem guards_irrefl (g k : Key) (r : Option (Row k)) : ¬ guards g k r r := by
  cases g <;> cases k <;> simp [guards, Becomes]

theorem guards_trans (g k : Key) (a b c : Option (Row k)) (hab : ¬ guards g k a b)
    (hbc : ¬ guards g k b c) : ¬ guards g k a c := by
  cases g with
  | connector id =>
    cases k with
    | ref connectorId secretId =>
      rintro ⟨hid, hne⟩
      simp only [guards, hid, ne_eq, true_and, not_not] at hab hbc
      exact hne (hab.trans hbc)
    | _ => exact fun h => h
  | secret id =>
    cases k with
    | ref connectorId secretId =>
      rintro ⟨hid, hbecomes⟩
      simp only [guards, hid, true_and] at hab hbc
      exact Becomes.not_trans (p := fun row => isTracked row = true) hab hbc hbecomes
    | _ => exact fun h => h
  | secretSlug scope slug =>
    cases k with
    | secret _ =>
      exact Becomes.not_trans (p := fun row => liveIdentity row = some (scope, slug)) hab hbc
    | _ => exact fun h => h
  | ref _ _ =>
    cases k <;> exact fun h => h

theorem stays_refl (k : Key) (r : Option (Row k)) : stays k r r := by
  cases k with
  | secret _ => exact fun _ h => h
  | connector _ => exact .refl _
  | _ => trivial

theorem stays_trans (k : Key) (a b c : Option (Row k)) (hab : stays k a b) (hbc : stays k b c) :
    stays k a c := by
  cases k with
  | secret _ => exact fun i h => hbc i (hab i h)
  | connector _ => exact ConnectorStays.trans hab hbc
  | _ => trivial

section agree
variable {db db' : Db store}

theorem connectorOk_of_agree {id : Id} (h : ConnectorOk slugs id db)
    (hrow : db'.lookup (.connector id) = db.lookup (.connector id))
    (hstays : ∀ k, stays k (db.lookup k) (db'.lookup k))
    (hguards : ∀ k, ¬ guards (.connector id) k (db.lookup k) (db'.lookup k)) :
    ConnectorOk slugs id db' := by
  have href : ∀ secretId, db'.lookup (.ref id secretId) = db.lookup (.ref id secretId) := by
    intro secretId
    by_contra hne
    exact hguards (.ref id secretId) ⟨rfl, fun heq => hne heq.symm⟩
  refine ⟨fun c hc name hname => ?_, fun secretId htracked => ?_⟩
  · obtain ⟨slug, secretId, hparse, htracked, hid⟩ := h.named c (hrow ▸ hc) name hname
    exact ⟨slug, secretId, hparse, by rwa [href], hstays (.secret secretId) _ hid⟩
  · rw [href] at htracked
    obtain ⟨c, slug, hc, hnames, hid⟩ := h.tracked secretId htracked
    exact ⟨c, slug, hrow.trans hc, hnames, hstays (.secret secretId) _ hid⟩

theorem secretOk_of_agree {id : Id} (h : SecretOk id db)
    (hrow : db'.lookup (.secret id) = db.lookup (.secret id))
    (hguards : ∀ k, ¬ guards (.secret id) k (db.lookup k) (db'.lookup k)) : SecretOk id db' := by
  intro connectorId htracked
  rw [hrow]
  refine h connectorId (Becomes.of_not (p := fun row => isTracked row = true) ?_ htracked)
  exact fun hbecomes => hguards (.ref connectorId id) ⟨rfl, hbecomes⟩

theorem slugOk_of_agree {scope : Scope} {slug : Text} (h : SlugOk scope slug db)
    (hrow : db'.lookup (.secretSlug scope slug) = db.lookup (.secretSlug scope slug))
    (hguards : ∀ k, ¬ guards (.secretSlug scope slug) k (db.lookup k) (db'.lookup k)) :
    SlugOk scope slug db' := by
  intro id hlive
  rw [hrow]
  refine h id (Becomes.of_not (p := fun row => liveIdentity row = some (scope, slug)) ?_ hlive)
  exact hguards (.secret id)

end agree

def guarded (slugs : Slugs) : Guarded store where
  stamp := stamp
  guards := guards
  stays := stays
  Local := Local slugs
  guards_irrefl := guards_irrefl
  guards_trans := guards_trans
  stays_refl := stays_refl
  stays_trans := stays_trans
  local_of_agree
    | .connector _, _, _, h, hrow, hstays, hguards => connectorOk_of_agree h hrow hstays hguards
    | .secret _, _, _, h, hrow, _, hguards => secretOk_of_agree h hrow hguards
    | .secretSlug _ _, _, _, h, hrow, _, hguards => slugOk_of_agree h hrow hguards
    | .ref _ _, _, _, _, _, _, _ => trivial

/-- An update that leaves the config out changes no reference. -/
def keepsRefs : Op → Db store → Db store → Prop
  | .updateConnector _ req => fun db db' => req.inScope "config" = false →
    ∀ connectorId secretId,
      db'.lookup (.ref connectorId secretId) = db.lookup (.ref connectorId secretId)
  | _ => fun _ _ => True

def contract (slugs : Slugs) : Contract store Op :=
  (guarded slugs).contract (fun _ => True) (fun _ _ => True) keepsRefs

/- A transaction that writes connectors makes them agree with their references by its COMMIT. -/
def Open (writing : Bool) (own : Pending store) (g : Key) : Prop :=
  writing = true ∧ ∃ id, g = .connector id ∧ g ∈ own

structure Pends (slugs : Slugs) (writing : Bool) (own : Pending store) (db : Db store) : Prop where
  owns : (guarded slugs).Owns own db
  loc : ∀ g, ¬ Open writing own g → Local slugs g (overlay own db)

section pending
variable {writing : Bool} {own : Pending store} {db db' : Db store} {k : Key}
  {new : Option (Row k)}

theorem Pends.later {log : Log store Op} (h : Pends slugs writing own db)
    (hl : Later (contract slugs) own log db db') : Pends slugs writing own db' where
  owns := h.owns.later hl.own
  loc g hg := h.owns.local_later (hl.inv.1 g) hl.rely hl.own (h.loc g hg)

theorem Open.insert {g : Key} (h : Open writing own g) : Open writing (own.insert k new) g := by
  obtain ⟨hwriting, id, rfl, hmem⟩ := h
  exact ⟨hwriting, id, rfl, (AList.mem_insert own).mpr (.inr hmem)⟩

theorem Pends.insert (h : Pends slugs writing own db)
    (hwrites : (guarded slugs).Writes own (overlay own db) k new)
    (hloc : ∀ g, g = k ∨ guards g k ((overlay own db).lookup k) new →
      ¬ Open writing (own.insert k new) g → Local slugs g (put (overlay own db) k new)) :
    Pends slugs writing (own.insert k new) db := by
  refine ⟨h.owns.insert hwrites, fun g hg => ?_⟩
  refine Guarded.local_of_lookup (G := guarded slugs) ?_ (Guarded.lookup_overlay_put own db k new)
  by_cases hk : g = k ∨ guards g k ((overlay own db).lookup k) new
  · exact hloc g hk hg
  · obtain ⟨hne, hguards⟩ := not_or.mp hk
    exact Guarded.local_put hwrites.stays hne hguards (h.loc g fun hopen => hg hopen.insert)

end pending

/-! What one write leaves of the invariants -/

section writes
variable {own : Pending store} {rows : Db store} {id : Id}

theorem secretOk_put {new : Option SecretSlot} (hlive : (liveIdentity new).isSome = true) :
    SecretOk id (put rows (.secret id) new) := by
  intro connectorId _
  rwa [lookup_put rows (Key.secret id)]

/-- A secret that keeps its scope and its slug breaks nothing. -/
theorem writes_secret {s s' : Secret} (hrow : rows.lookup (.secret id) = some (.live s))
    (hscope : s'.scope = s.scope) (hslug : s'.slug = s.slug) (hxmax : s'.xmax = s.xmax) :
    (guarded slugs).Writes own rows (.secret id) (some (.live s'.touched)) where
  stamp := by
    rw [hrow]
    change secretStamp (some (.live s)) < secretStamp (some (.live s'.touched))
    simp only [secretStamp, Secret.touched, hxmax]
    exact WithTop.coe_lt_coe.mpr (Nat.lt_succ_self _)
  stays := by
    rw [hrow]
    intro i hi
    cases hi
    simp [identity, slotSecret, Secret.touched, hscope, hslug]
  guarded g hg := by
    rw [hrow] at hg
    cases g with
    | secretSlug scope slug =>
      refine absurd ?_ hg.1
      have hnew := hg.2
      simp only [liveIdentity, Secret.touched, hscope, hslug] at hnew
      exact hnew
    | _ => exact hg.elim

theorem guards_secret {g : Key} {old new : Option SecretSlot} (h : guards g (.secret id) old new) :
    ∃ scope slug, g = .secretSlug scope slug ∧ liveIdentity old ≠ some (scope, slug) ∧
      liveIdentity new = some (scope, slug) := by
  cases g with
  | secretSlug scope slug => exact ⟨scope, slug, rfl, h⟩
  | _ => exact h.elim

theorem guards_ref {g : Key} {connectorId secretId : Id} {old new : Option Ref}
    (h : guards g (.ref connectorId secretId) old new) :
    g = .connector connectorId ∨ g = .secret secretId ∧ isTracked old = false ∧
      isTracked new = true := by
  cases g with
  | connector _ =>
    obtain ⟨rfl, -⟩ := h
    exact .inl rfl
  | secret _ =>
    obtain ⟨rfl, hold, hnew⟩ := h
    exact .inr ⟨rfl, by simpa using hold, hnew⟩
  | _ => exact h.elim

theorem not_guards_slug {g : Key} {scope : Scope} {slug : Text} {old new : Option SlugEntry} :
    ¬ guards g (.secretSlug scope slug) old new := by
  cases g <;> exact fun h => h

theorem not_guards_connector {g : Key} {old new : Option (Slot Connector)} :
    ¬ guards g (.connector id) old new := by
  cases g <;> exact fun h => h

end writes

end Pivox.Connectors
