import Pivox.Connectors.Contract

/-!
Proof outlines of the statements on secrets, connectors and the references between them.
-/

namespace Pivox.Connectors
open ReadCommitted

/-! What needs no contract of its own -/

section any
variable {Γ : Contract store Op} {J P : Assertion Γ} {α : Type}

theorem outline_liveSecret {row : Option SecretSlot} {R : Option SecretSlot → Assertion Γ}
    {Q : Secret → Assertion Γ}
    (h : ∀ s own log db, (R (some (.live s))).holds own log db → (Q s).holds own log db) :
    Outline J (R row) (liveSecret row) Q := by
  obtain _ | s | s := row
  · exact .throw _
  · exact Outline.conseq .pure (fun own log db _ _ => h s own log db) fun _ _ _ _ _ _ => fun h => h
  · exact .throw _

theorem outline_sealedFor (id : Id) (new : Option (Id × Sealed)) :
    Outline J P (sealedFor id new) fun _ => P := by
  obtain _ | ⟨encryptedId, sealed⟩ := new
  · exact .ret _
  · unfold sealedFor
    dsimp only
    split_ifs
    · exact .throw _
    · exact .ret _

theorem between_parseName (name : Text) : Between P (parseName name) fun _ => P := by
  unfold parseName
  cases parseSecretLeaf name with
  | ok slug => exact .ret _
  | error e => exact .throw _

/-- What `encrypt` makes is sealed for the row it was given. -/
theorem between_encrypt {aead : Aead} {id : Id} {value : Bytes} {f : Sealed → Service α}
    {Q : α → Assertion Γ}
    (hf : ∀ nonce, Between P (f ⟨aead.encrypt nonce value (secretAAD id), value⟩) Q) :
    Between P (encrypt aead id value >>= f) Q := by
  have hsealed : Between P (encrypt aead id value) fun sealed =>
      P.and (.always (∃ nonce, sealed = ⟨aead.encrypt nonce value (secretAAD id), value⟩)) := by
    refine between_ask.bind fun nonce => ?_
    cases nonce with
    | none => exact .throw _
    | some nonce => exact fun log db k hP hk _ => hk _ log db ⟨hP, nonce, rfl⟩
  refine hsealed.bind fun sealed => Between.of_always fun h => ?_
  obtain ⟨nonce, rfl⟩ := h
  exact hf nonce

/-- The new value, if there is one, is sealed for the row that was read. -/
theorem between_encryptNewValue {aead : Aead} {scope : Scope} {slug : Text} {req : UpdateSecretRequest}
    {f : Option (Id × Sealed) → Service α} {Q : α → Assertion Γ}
    (hnone : req.valueInMask = false → Between P (f none) Q)
    (hsome : req.valueInMask = true → ∀ id nonce, Between P
      (f (some (id, ⟨aead.encrypt nonce req.value (secretAAD id), req.value⟩))) Q) :
    Between P (encryptNewValue aead scope slug req >>= f) Q := by
  have hnew : Between P (encryptNewValue aead scope slug req) fun new =>
      P.and (.always (new = none ∧ req.valueInMask = false ∨ req.valueInMask = true ∧
        ∃ id nonce, new = some (id, ⟨aead.encrypt nonce req.value (secretAAD id), req.value⟩))) := by
    unfold encryptNewValue
    split_ifs with hmask hempty
    · exact .throw _
    · refine (between_mapError _ (between_look.bind fun row => between_seen)).bind
        fun existing => between_encrypt fun nonce => ?_
      exact fun log db k hP hk _ => hk _ log db ⟨hP, .inr ⟨hmask, existing.1, nonce, rfl⟩⟩
    · exact fun log db k hP hk _ => hk _ log db ⟨hP, .inl ⟨rfl, by simpa using hmask⟩⟩
  refine hnew.bind fun new => Between.of_always fun h => ?_
  obtain ⟨rfl, hmask⟩ | ⟨hmask, id, nonce, rfl⟩ := h
  · exact hnone hmask
  · exact hsome hmask id nonce

end any

variable {slugs : Slugs} {writing : Bool} {op : Op} {J P : Assertion (contract slugs)} {α : Type} {id : Id}

def pends (slugs : Slugs) (writing : Bool) (op : Op) : Assertion (contract slugs) where
  holds own log db := Pends slugs writing own db ∧ log.op = op
  later _ _ _ _ h hl := ⟨h.1.later hl, h.2⟩
  add _ _ _ _ h := h

/- A statement on a row of each table. -/
def Hits (writing : Bool) (op : Op) (P : Assertion (contract slugs)) (k : Key) (stmt : Stmt k)
    (Q : Option (Row k) → Assertion (contract slugs)) : Prop :=
  @Outline.Hits store Op (contract slugs) (pends slugs writing op) P k stmt Q

theorem hits_secret {stmt : SecretStmt} {Q : Option SecretSlot → Assertion (contract slugs)}
    (h : ∀ own log db new, Pends slugs writing own db → P.holds own log db →
      execSecret stmt ((overlay own db).lookup (.secret id)) = some new →
      Pends slugs writing (own.insert (Key.secret id) new) db ∧
        (Q new).holds (own.insert (Key.secret id) new) log db) : Hits writing op P (.secret id) stmt Q := by
  intro own log db new _ hJ hP hx
  obtain ⟨hpends, hQ⟩ := h own log db new hJ.1 hP hx
  exact ⟨⟨hpends, hJ.2⟩, hQ⟩

theorem hits_slug {scope : Scope} {slug : Text} {stmt : SlugStmt}
    {Q : Option SlugEntry → Assertion (contract slugs)}
    (h : ∀ own log db new, Pends slugs writing own db → P.holds own log db →
      execSlug stmt ((overlay own db).lookup (.secretSlug scope slug)) = some new →
      Pends slugs writing (own.insert (Key.secretSlug scope slug) new) db ∧
        (Q new).holds (own.insert (Key.secretSlug scope slug) new) log db) :
    Hits writing op P (.secretSlug scope slug) stmt Q := by
  intro own log db new _ hJ hP hx
  obtain ⟨hpends, hQ⟩ := h own log db new hJ.1 hP hx
  exact ⟨⟨hpends, hJ.2⟩, hQ⟩

theorem hits_connector {stmt : ConnectorStmt}
    {Q : Option (Slot Connector) → Assertion (contract slugs)}
    (h : ∀ own log db new, Pends slugs writing own db → P.holds own log db →
      execConnector stmt ((overlay own db).lookup (.connector id)) = some new →
      Pends slugs writing (own.insert (Key.connector id) new) db ∧
        (Q new).holds (own.insert (Key.connector id) new) log db) :
    Hits writing op P (.connector id) stmt Q := by
  intro own log db new _ hJ hP hx
  obtain ⟨hpends, hQ⟩ := h own log db new hJ.1 hP hx
  exact ⟨⟨hpends, hJ.2⟩, hQ⟩

theorem hits_ref {secretId : Id} {stmt : RefStmt} {Q : Option Ref → Assertion (contract slugs)}
    (h : ∀ own log db new, Pends slugs writing own db → P.holds own log db →
      execRef stmt ((overlay own db).lookup (.ref id secretId)) = some new →
      Pends slugs writing (own.insert (Key.ref id secretId) new) db ∧
        (Q new).holds (own.insert (Key.ref id secretId) new) log db) :
    Hits writing op P (.ref id secretId) stmt Q := by
  intro own log db new _ hJ hP hx
  obtain ⟨hpends, hQ⟩ := h own log db new hJ.1 hP hx
  exact ⟨⟨hpends, hJ.2⟩, hQ⟩

/-! Secrets -/

section secrets
variable {own : Pending store} {db : Db store} {s s' : Secret}

theorem Pends.keepSecret (h : Pends slugs writing own db)
    (hrow : (overlay own db).lookup (.secret id) = some (.live s)) (hscope : s'.scope = s.scope)
    (hslug : s'.slug = s.slug) (hxmax : s'.xmax = s.xmax) :
    Pends slugs writing (own.insert (Key.secret id) (some (.live s'.touched))) db := by
  refine h.insert (writes_secret hrow hscope hslug hxmax) fun g hg _ => ?_
  obtain rfl | hg := hg
  · exact secretOk_put rfl
  · obtain ⟨scope, slug, -, hne, heq⟩ := guards_secret hg
    rw [hrow] at hne
    simp only [liveIdentity, Secret.touched, hscope, hslug] at hne heq
    exact absurd heq hne

theorem execSecret_lock {p : ByParentParams} {row new : Option SecretSlot}
    (h : execSecret (.getSecretByParentForUpdate p) row = some new) :
    ∃ s, row = some (.live s) ∧ s.scope = p.scope ∧ s.slug = p.slug ∧
      new = some (.live s.touched) := by
  obtain _ | s | s := row
  · cases h
  · simp only [execSecret] at h
    split_ifs at h with hp
    cases h
    exact ⟨s, rfl, hp.1, hp.2, rfl⟩
  · cases h

/-- The row that is handed back is locked. -/
def handedSecret (Q : Secret → Assertion Γ) : Option SecretSlot → Assertion Γ
  | some (.live s) => Q s
  | _ => .top

theorem outline_lockSecret {p : ByParentParams} {Q : Id × Secret → Assertion (contract slugs)}
    (h : ∀ own log db id s, P.holds own log db →
      (overlay own db).lookup (.secret id) = some (.live s) → s.scope = p.scope → s.slug = p.slug →
      (Q (id, s.touched)).holds (own.insert (Key.secret id) (some (.live s.touched))) log db) :
    Outline (pends slugs writing op) P (getSecretByParentForUpdate p) Q := by
  refine outline_look.bind fun row => outline_seen.bind fun found => ?_
  let R := handedSecret fun s => Q (found.1, s)
  have hwrite : Outline (pends slugs writing op) P
      (writeRow .noRows (.secret found.1) (.getSecretByParentForUpdate p)) R := by
    refine .write (hits_secret fun own log db new hpends hP hx => ?_)
    obtain ⟨s, hrow, hscope, hslug, rfl⟩ := execSecret_lock hx
    exact ⟨hpends.keepSecret hrow rfl rfl rfl, h own log db found.1 s hP hrow hscope hslug⟩
  have hlive : ∀ row, Outline (pends slugs writing op) (R row) (liveSecret row) fun s => Q (found.1, s) :=
    fun row => outline_liveSecret fun _ _ _ _ h => h
  exact hwrite.bind fun row => (hlive row).bind fun s => Outline.pure (Q := Q)

/- The row is locked, and nothing else is written. -/
def opened (slugs : Slugs) (s : Id × Secret) : Assertion (contract slugs) :=
  .wrote fun own => own = (∅ : Pending store).insert (Key.secret s.1) (some (.live s.2))

theorem outline_openSecret (p : ByParentParams) :
    Outline (pends slugs writing op) .unwritten (getSecretByParentForUpdate p) (opened slugs) := by
  refine outline_lockSecret fun own log db id s hown _ _ _ => ?_
  obtain rfl : own = ∅ := hown
  exact rfl

theorem outline_updateSecret {s : Id × Secret} (p : UpdateSecretParams) :
    Outline (pends slugs writing op) P (updateSecret s.1 p) fun _ => .top := by
  refine outline_ask.bind fun etag => ?_
  refine Outline.bind (R := fun _ => .top) (.write (hits_secret fun own log db new hpends _ hx => ?_))
    fun row => outline_liveSecret (R := fun _ => .top) fun _ _ _ _ _ => trivial
  cases hrow : (overlay own db).lookup (Key.secret s.1) with
  | none => simp [hrow, execSecret] at hx
  | some row =>
    cases row with
    | gone s' => simp [hrow, execSecret] at hx
    | live s' =>
      simp only [hrow, execSecret, Option.some.injEq] at hx
      subst hx
      exact ⟨hpends.keepSecret hrow rfl rfl rfl, trivial⟩

/- The slug is taken for a secret that is not there yet. -/
def taken (slugs : Slugs) (id : Id) (scope : Scope) (slug : Text) : Assertion (contract slugs) :=
  .wrote fun own => ∃ xmax, own.lookup (.secretSlug scope slug) = some (some ⟨some id, xmax⟩)

theorem execSlug_take {row new : Option SlugEntry} (h : execSlug (.take id) row = some new) :
    ∃ xmax, new = some ⟨some id, xmax⟩ ∧ slugStamp row < slugStamp new ∧
      ∀ holder xmax, row ≠ some ⟨some holder, xmax⟩ := by
  obtain _ | ⟨_ | holder, xmax⟩ := row
  · cases h
    exact ⟨0, rfl, WithTop.coe_lt_coe.mpr Nat.one_pos, nofun⟩
  · cases h
    exact ⟨xmax + 1, rfl, WithTop.coe_lt_coe.mpr (Nat.lt_succ_self _), nofun⟩
  · cases h

theorem writes_slug {rows : Db store} {scope : Scope} {slug : Text} {new : Option SlugEntry}
    (hstamp : slugStamp (rows.lookup (.secretSlug scope slug)) < slugStamp new) :
    (guarded slugs).Writes own rows (.secretSlug scope slug) new where
  stamp := hstamp
  stays := trivial
  guarded _ h := absurd h not_guards_slug

theorem lookup_put_slug {rows : Db store} {scope : Scope} {slug : Text}
    (new : Option SlugEntry) : (put rows (Key.secretSlug scope slug) new).lookup (Key.secret id) =
      rows.lookup (Key.secret id) :=
  @lookup_put_ne store rows (.secretSlug scope slug) (.secret id) new (by simp)

theorem not_open_slug {scope : Scope} {slug : Text} :
    ¬ Open writing own (.secretSlug scope slug) := by
  rintro ⟨-, id, heq, -⟩
  cases heq

theorem hits_take {scope : Scope} {slug : Text} :
    Hits writing op P (.secretSlug scope slug) (.take id) fun _ => taken slugs id scope slug := by
  refine hits_slug fun own log db new hpends _ hx => ?_
  obtain ⟨xmax, rfl, hstamp, hfree⟩ := execSlug_take hx
  refine ⟨hpends.insert (writes_slug hstamp) fun g hg _ => ?_, xmax, AList.lookup_insert own⟩
  obtain rfl := hg.resolve_right not_guards_slug
  -- Its slug was free, so no secret has it.
  intro id' hlive
  rw [lookup_put_slug] at hlive
  obtain ⟨xmax', hheld⟩ := hpends.loc (.secretSlug scope slug) not_open_slug id' hlive
  exact absurd hheld (hfree _ _)

theorem writes_createSecret {rows : Db store} (hrow : rows.lookup (.secret id) = none)
    (hslug : Key.secretSlug s.scope s.slug ∈ own) :
    (guarded slugs).Writes own rows (.secret id) (some (.live s)) where
  stamp := by
    rw [hrow]
    exact WithTop.coe_lt_coe.mpr (Nat.succ_pos _)
  stays := by
    rw [hrow]
    intro i hi
    cases hi
  guarded g hg := by
    obtain ⟨scope, slug, rfl, -, heq⟩ := guards_secret hg
    cases heq
    exact .inr hslug

theorem hits_createSecret :
    Hits writing op (taken slugs id s.scope s.slug) (.secret id) (.createSecret s) fun _ => .top := by
  refine hits_secret fun own log db new hpends htaken hx => ?_
  obtain ⟨xmax, htaken⟩ := htaken
  have hheld : (overlay own db).lookup (.secretSlug s.scope s.slug) = some ⟨some id, xmax⟩ :=
    @lookup_overlay_of_some store own db (.secretSlug s.scope s.slug) _ htaken
  cases hrow : (overlay own db).lookup (Key.secret id) with
  | some row => cases row <;> simp [hrow, execSecret] at hx
  | none =>
    simp only [hrow, execSecret, Option.some.injEq] at hx
    subst hx
    refine ⟨hpends.insert (writes_createSecret hrow (Guarded.mem_of_lookup htaken)) ?_, trivial⟩
    intro g hg _
    obtain rfl | hg := hg
    · exact secretOk_put rfl
    · obtain ⟨scope, slug, rfl, -, heq⟩ := guards_secret hg
      cases heq
      intro id' hlive
      refine ⟨xmax, ?_⟩
      by_cases heq : id' = id
      · subst heq
        exact (@lookup_put_ne store _ (.secret id') (.secretSlug s.scope s.slug) _ (by simp)).trans
          hheld
      · rw [@lookup_put_ne store _ (.secret id) (.secret id') _ (by simpa using heq)] at hlive
        obtain ⟨xmax', hheld'⟩ := hpends.loc (.secretSlug s.scope s.slug) not_open_slug id' hlive
        cases hheld.symm.trans hheld'
        exact absurd rfl heq

theorem outline_insertSecret :
    Outline (pends slugs writing op) P (insertSecret id s) fun _ => .top := by
  refine Outline.bind (.write hits_take) fun _ => ?_
  refine Outline.bind (R := fun _ => .top) (.write hits_createSecret) fun row => ?_
  exact (outline_liveSecret (R := fun _ => .top) (Q := fun _ => .top) fun _ _ _ _ _ => trivial).bind
    fun row => .ret _

/- Under the lock of the secret: no connector refers to it. -/
def unreferenced (slugs : Slugs) (id : Id) : Assertion (contract slugs) where
  holds own _ db := Key.secret id ∈ own ∧
    ∀ connectorId, isTracked ((overlay own db).lookup (.ref connectorId id)) = false
  later own _ db db' h hl := by
    refine ⟨h.1, fun connectorId => ?_⟩
    have hold := h.2 connectorId
    rw [lookup_overlay own db (Key.ref connectorId id)] at hold
    rw [lookup_overlay own db' (Key.ref connectorId id)]
    cases hown : own.lookup (Key.ref connectorId id) with
    | some row => rwa [hown] at hold
    | none =>
      rw [hown] at hold
      have hsame : db'.lookup (.secret id) = db.lookup (.secret id) := hl.own _ h.1
      have hguards := hl.rely.guarded (.secret id) (by rw [hsame]) (.ref connectorId id)
      by_contra hnew
      exact hguards ⟨rfl, by simpa using hold, by simpa using hnew⟩
  add _ _ _ _ h := h

theorem opened_lookup {s : Id × Secret} {log : Log store Op}
    (h : (opened slugs s).holds own log db) :
    own.lookup (Key.secret s.1) = some (some (.live s.2)) := by
  obtain rfl := h
  exact AList.lookup_insert (∅ : Pending store)

theorem opened_other {s : Id × Secret} {log : Log store Op} {k : Key}
    (h : (opened slugs s).holds own log db) (hk : k ≠ .secret s.1) : k ∉ own := by
  obtain rfl := h
  intro hmem
  obtain rfl | hmem := (AList.mem_insert _).mp hmem
  · exact hk rfl
  · exact AList.notMem_empty _ hmem

/-- The guard of a deletion: every row of connector_secret_refs has its connector, so that none is
left when the join finds no connector. -/
theorem outline_connectorsReferencingSecret {s : Id × Secret} :
    Outline (pends slugs writing op) (opened slugs s) (query (.connectorsReferencingSecret s.1))
      fun refs : List Text =>
        (opened slugs s).and (.given (refs = []) (unreferenced slugs s.1)) := by
  refine outline_query fun own log db (names : List Text) hJ hown hnames => ?_
  refine ⟨hown, fun hnone => ⟨Guarded.mem_of_lookup (opened_lookup hown), fun connectorId => ?_⟩⟩
  by_contra htracked
  rw [Bool.not_eq_false] at htracked
  have hclosed : ¬ Open writing own (.connector connectorId) := by
    rintro ⟨-, id, -, hmem⟩
    exact opened_other (k := Key.connector connectorId) hown (by simp) hmem
  obtain ⟨c, slug, hc, -, -⟩ := (hJ.1.loc (.connector connectorId) hclosed).tracked s.1 htracked
  have hmem : c.slug ∈ names := by
    rw [← hnames]
    refine (List.perm_insertionSort _ _).mem_iff.mpr (List.mem_map.mpr ⟨(connectorId, c), ?_, rfl⟩)
    refine List.mem_filter.mpr ⟨mem_connectors.mpr hc, ?_⟩
    simpa using mem_refs.mpr htracked
  rw [hnone] at hmem
  cases hmem

def removed (slugs : Slugs) (s : Id × Secret) : Assertion (contract slugs) :=
  .wrote fun own => own.lookup (.secret s.1) = some (some (.gone s.2))

theorem unreferenced_insert {log : Log store Op} {k : Key} {new : Option (Row k)}
    (h : (unreferenced slugs id).holds own log db) (hk : ∀ connectorId, k ≠ .ref connectorId id) :
    (unreferenced slugs id).holds (own.insert k new) log db := by
  refine ⟨(AList.mem_insert own).mpr (.inr h.1), fun connectorId => ?_⟩
  rw [lookup_overlay_insert_ne own db new (hk connectorId).symm]
  exact h.2 connectorId

theorem hits_deleteSecret {s : Id × Secret} :
    Hits writing op ((opened slugs s).and (unreferenced slugs s.1)) (.secret s.1) .deleteSecret
      fun _ => (removed slugs s).and (unreferenced slugs s.1) := by
  refine hits_secret fun own log db new hpends h hx => ?_
  obtain ⟨hown, hfree⟩ := h
  have hrow : (overlay own db).lookup (Key.secret s.1) = some (.live s.2) :=
    @lookup_overlay_of_some store own db (Key.secret s.1) _ (opened_lookup hown)
  rw [hrow] at hx
  cases hx
  refine ⟨hpends.insert ⟨?_, ?_, ?_⟩ ?_, AList.lookup_insert own,
    unreferenced_insert hfree (by simp)⟩
  · rw [hrow]
    exact WithTop.coe_lt_top _
  · rw [hrow]
    intro i hi
    exact hi
  · intro g hg
    obtain ⟨scope, slug, -, -, heq⟩ := guards_secret hg
    cases heq
  · intro g hg _
    obtain rfl | hg := hg
    · intro connectorId htracked
      rw [@lookup_put_ne store _ (.secret s.1) (.ref connectorId s.1) _ (by simp)] at htracked
      rw [hfree.2 connectorId] at htracked
      cases htracked
    · obtain ⟨scope, slug, -, -, heq⟩ := guards_secret hg
      cases heq

theorem execSlug_release {row new : Option SlugEntry} (h : execSlug (.release id) row = some new) :
    ∃ xmax, row = some ⟨some id, xmax⟩ ∧ slugStamp row < slugStamp new := by
  obtain _ | ⟨_ | holder, xmax⟩ := row
  · cases h
  · cases h
  · simp only [execSlug] at h
    split_ifs at h with hid
    cases h
    exact ⟨xmax, by rw [hid], WithTop.coe_lt_coe.mpr (Nat.lt_succ_self _)⟩

theorem hits_release {s : Id × Secret} {scope : Scope} {slug : Text} :
    Hits writing op ((removed slugs s).and (unreferenced slugs s.1)) (.secretSlug scope slug) (.release s.1)
      fun _ => (removed slugs s).and (unreferenced slugs s.1) := by
  refine hits_slug fun own log db new hpends h hx => ?_
  obtain ⟨hgone, hfree⟩ := h
  obtain ⟨xmax, hrow, hstamp⟩ := execSlug_release hx
  refine ⟨hpends.insert (writes_slug hstamp) fun g hg _ => ?_,
    (AList.lookup_insert_ne (by simp)).trans hgone, unreferenced_insert hfree (by simp)⟩
  obtain rfl := hg.resolve_right not_guards_slug
  -- The holder was the only secret with the slug, and it is deleted.
  intro id' hlive
  rw [lookup_put_slug] at hlive
  obtain ⟨xmax', hheld⟩ := hpends.loc (.secretSlug scope slug) not_open_slug id' hlive
  cases hrow.symm.trans hheld
  have hover : (overlay own db).lookup (Key.secret s.1) = some (.gone s.2) :=
    @lookup_overlay_of_some store own db (Key.secret s.1) _ hgone
  rw [hover] at hlive
  cases hlive

theorem outline_deleteSecret {s : Id × Secret} :
    Outline (pends slugs writing op) ((opened slugs s).and (unreferenced slugs s.1)) (deleteSecret s)
      fun _ => .top := by
  have hdelete : Outline (pends slugs writing op) ((opened slugs s).and (unreferenced slugs s.1))
      (execRow (.secret s.1) .deleteSecret)
      fun _ => (removed slugs s).and (unreferenced slugs s.1) := by
    refine .exec_cases hits_deleteSecret fun own log db _ h hx => ?_
    have hrow : (overlay own db).lookup (Key.secret s.1) = some (.live s.2) :=
      @lookup_overlay_of_some store own db (Key.secret s.1) _ (opened_lookup h.1)
    rw [hrow] at hx
    cases hx
  have hrelease : Outline (pends slugs writing op) ((removed slugs s).and (unreferenced slugs s.1))
      (execRow (.secretSlug s.2.scope s.2.slug) (.release s.1))
      fun _ => (removed slugs s).and (unreferenced slugs s.1) := .exec hits_release
  have hnone : Outline (pends slugs writing op) ((removed slugs s).and (unreferenced slugs s.1))
      (query (.connectorsOfSecret s.1)) fun cs : List Id => .always (cs = []) := by
    refine outline_query fun own log db (cs : List Id) _ h hcs => ?_
    rw [← hcs]
    simp only [answer, List.map_eq_nil_iff, List.filter_eq_nil_iff]
    rintro ⟨connectorId, secretId⟩ hmem hid
    obtain rfl := of_decide_eq_true hid
    have htracked := mem_refs.mp hmem
    rw [h.2.2 connectorId] at htracked
    cases htracked
  refine hdelete.bind fun _ => hrelease.bind fun _ => hnone.bind fun (cs : List Id) => ?_
  refine (Outline.forEach fun c hc => .exec ?_).conseq (fun _ _ _ _ _ h => h)
    fun _ _ _ _ _ _ _ => trivial
  intro own log db new _ _ hnil _
  rw [show cs = [] from hnil] at hc
  cases hc

end secrets

end Pivox.Connectors
