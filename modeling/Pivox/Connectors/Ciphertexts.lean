import Pivox.Connectors.Broker

/-!
Every stored secret decrypts: the ciphertext of a row was made for the id of that row, from the
value that the last transaction to commit one wrote.
-/

namespace Pivox.Connectors
open ReadCommitted Transition

/-! The contract -/

def sealedOf (row : Option SecretSlot) : Option Sealed := (slotSecret row).map (·.sealed)

def valueOf (row : Option SecretSlot) : Option Bytes := (sealedOf row).map (·.value)

/-- The ciphertext of row `id` was made by `encrypt` for that row. -/
def CiphertextOk (aead : Aead) (id : Id) (row : Option SecretSlot) : Prop :=
  ∀ sealed, sealedOf row = some sealed →
    ∃ nonce, sealed.ciphertext = aead.encrypt nonce sealed.value (secretAAD id)

/- The value that an operation is to write. -/
def requestValue : Op → Option Bytes
  | .createSecret _ req => some req.value
  | .updateSecret _ req => if req.valueInMask then some req.value else none
  | _ => none

/- What a commit may make of a row: an operation that has a value to write has written it. -/
def ValueWritten (value : Option Bytes) (old new : Option SecretSlot) : Prop :=
  new = old ∨ valueOf new = value.or (valueOf old)

def ciphertexts (aead : Aead) : Contract store Op where
  Inv db := ∀ id, CiphertextOk aead id (db.lookup (.secret id))
  rely _ _ _ := True
  guar log db db' := (∀ id, CiphertextOk aead id (db'.lookup (.secret id))) ∧
    ∀ id, ValueWritten (requestValue log.op) (db.lookup (.secret id)) (db'.lookup (.secret id))
  allow _ _ _ := True
  accept _ _ _ := True
  fit _ _ _ := True
  spared _ _ _ := True
  rely_refl _ _ := trivial
  rely_trans _ _ _ _ _ _ := trivial
  rely_mono _ _ _ _ _ := trivial
  inv_guar _ _ _ _ h := h.1
  rely_guar _ _ _ _ _ _ _ := trivial

variable {aead : Aead} {op : Op} {α : Type} {own : Pending store} {db : Db store}

/-- The pending rows, against the committed ones: they hold `value`, or what they did before. -/
def Writes (aead : Aead) (value : Option Bytes) (own : Pending store) (db : Db store) : Prop :=
  ∀ id row, own.lookup (.secret id) = some row →
    CiphertextOk aead id row ∧ valueOf row = value.or (valueOf (db.lookup (.secret id)))

def writes (aead : Aead) (value : Option Bytes) : Assertion (ciphertexts aead) where
  holds own _ db := Writes aead value own db
  later own _ _ db' h hl id row hrow := by
    have hmem : Key.secret id ∈ own := AList.lookup_isSome.mp (by rw [hrow]; rfl)
    rw [hl.own (Key.secret id) hmem]
    exact h id row hrow
  add _ _ _ _ h := h

/- The transaction has written no secret but those of `ids`. -/
def Only (ids : List Id) (own : Pending store) : Prop :=
  ∀ id row, own.lookup (.secret id) = some row → id ∈ ids

theorem Writes.overlay {value : Option Bytes} (h : Writes aead value own db)
    (hdb : ∀ id, CiphertextOk aead id (db.lookup (.secret id))) (id : Id) :
    CiphertextOk aead id ((overlay own db).lookup (.secret id)) ∧
      ValueWritten value (db.lookup (.secret id)) ((overlay own db).lookup (.secret id)) := by
  cases hrow : own.lookup (.secret id) with
  | none =>
    rw [@lookup_overlay_of_none store own db (.secret id) hrow]
    exact ⟨hdb id, .inl rfl⟩
  | some row =>
    rw [@lookup_overlay_of_some store own db (.secret id) row hrow]
    exact ⟨(h id row hrow).1, .inr (h id row hrow).2⟩

/-! Statements -/

/- What a statement leaves of the ciphertext in its row, if that is a secret. -/
def Keeps : (k : Key) → Stmt k → Prop
  | .secret _, stmt => ∀ cur new, execSecret stmt cur = some new → sealedOf new = sealedOf cur
  | _, _ => True

theorem keeps_lock (id : Id) (p : ByParentParams) :
    Keeps (.secret id) (.getSecretByParentForUpdate p) := by
  intro cur new h
  obtain ⟨s, rfl, -, -, rfl⟩ := execSecret_lock h
  rfl

theorem keeps_delete (id : Id) : Keeps (.secret id) .deleteSecret := by
  intro cur new h
  obtain _ | s | s := cur
  · cases h
  · cases h
    rfl
  · cases h

theorem execSecret_update {p : UpdateSecretParams} {etag : String} {cur new : Option SecretSlot}
    (h : execSecret (.updateSecret p etag) cur = some new) :
    ∃ s, cur = some (.live s) ∧ new = some (.live (p.apply etag s).touched) := by
  obtain _ | s | s := cur
  · cases h
  · cases h
    exact ⟨s, rfl, rfl⟩
  · cases h

variable {J P : Assertion (ciphertexts aead)}

theorem hits_keeps {k : Key} {stmt : Stmt k} (h : Keeps k stmt) :
    Outline.Hits (.about op) (writes aead none) k stmt fun _ => writes aead none := by
  intro own log db new hinv hop hP hx
  refine ⟨hop, fun id row hrow => ?_⟩
  by_cases heq : Key.secret id = k
  · subst heq
    obtain rfl : new = row := by simpa using hrow
    obtain ⟨hok, hvalue⟩ := Writes.overlay hP hinv id
    have hkept : sealedOf new = sealedOf ((overlay own db).lookup (.secret id)) := h _ _ hx
    refine ⟨fun sealed hsealed => hok sealed (hkept ▸ hsealed), ?_⟩
    rw [valueOf, hkept, ← valueOf]
    obtain hold | hold := hvalue
    · rw [hold]
      rfl
    · exact hold
  · rw [AList.lookup_insert_ne heq] at hrow
    exact hP id row hrow

theorem hits_only {ids : List Id} {id : Id} {stmt : SecretStmt} :
    @Outline.Hits store Op (ciphertexts aead) (.about op) (.wrote (Only ids)) (Key.secret id) stmt
      fun _ => .wrote (Only (id :: ids)) := by
  intro own log db new _ hop hP _
  refine ⟨hop, fun id' row hrow => ?_⟩
  by_cases heq : id' = id
  · exact List.mem_cons.mpr (.inl heq)
  · rw [AList.lookup_insert_ne (by simpa using heq)] at hrow
    exact List.mem_cons.mpr (.inr (hP id' row hrow))

/-- A statement that stores a ciphertext for its row. -/
theorem hits_value {id : Id} {stmt : SecretStmt} (nonce : Nat) {value : Bytes}
    (h : ∀ cur new, execSecret stmt cur = some new →
      sealedOf new = some ⟨aead.encrypt nonce value (secretAAD id), value⟩) :
    @Outline.Hits store Op (ciphertexts aead) (.about op) (.wrote (Only [id])) (Key.secret id) stmt
      fun _ => writes aead (some value) := by
  intro own log db new _ hop hP hx
  refine ⟨hop, fun id' row hrow => ?_⟩
  have hsealed : sealedOf new = _ := h _ _ hx
  by_cases heq : id' = id
  · subst heq
    obtain rfl : new = row := by simpa using hrow
    refine ⟨fun sealed hrow => ?_, by rw [valueOf, hsealed]; rfl⟩
    rw [hsealed] at hrow
    obtain rfl := Option.some.inj hrow
    exact ⟨nonce, rfl⟩
  · rw [AList.lookup_insert_ne (by simpa using heq)] at hrow
    exact absurd (List.mem_singleton.mp (hP id' row hrow)) heq

theorem outline_keeps {k : Key} {stmt : Stmt k} {missing : Err} (h : Keeps k stmt) :
    Outline (.about op) (writes aead none) (writeRow missing k stmt) fun _ => writes aead none :=
  .write (hits_keeps h)

theorem outline_execRow {k : Key} {stmt : Stmt k} (h : Keeps k stmt) :
    Outline (.about op) (writes aead none) (execRow k stmt) fun _ => writes aead none :=
  .exec (hits_keeps h)

theorem outline_live {row : Option SecretSlot} : Outline J P (liveSecret row) fun _ => P :=
  outline_liveSecret (R := fun _ => P) fun _ _ _ _ h => h

/-! The operations -/

theorem outline_openSecretUpdate (p : ByParentParams) :
    Outline (.about op) (writes aead none) (getSecretByParentForUpdate p)
      fun _ => writes aead none :=
  outline_look.bind fun _ => outline_seen.bind fun s =>
    (outline_keeps (keeps_lock s.1 p)).bind fun _ => outline_live.bind fun _ => .ret _

/- Only the row that was found is locked. -/
theorem outline_openOne (p : ByParentParams) :
    Outline (.about op) ((writes aead none).and (.wrote (Only []))) (getSecretByParentForUpdate p)
      fun s => (writes aead none).and (.wrote (Only [s.1])) := by
  refine outline_look.bind fun _ => outline_seen.bind fun s => ?_
  have hlock : Outline (.about op) ((writes aead none).and (.wrote (Only [])))
      (writeRow .noRows (.secret s.1) (.getSecretByParentForUpdate p))
      fun _ => (writes aead none).and (.wrote (Only [s.1])) :=
    .write fun own log db new hinv hop hP hx =>
      ⟨hop, (hits_keeps (keeps_lock s.1 p) own log db new hinv hop hP.1 hx).2,
        (hits_only own log db new hinv hop hP.2 hx).2⟩
  exact hlock.bind fun _ => outline_live.bind fun row => Outline.pure (a := (s.1, row))
    (Q := fun s : Id × Secret => (writes aead none).and (.wrote (Only [s.1])))

theorem outline_insertSecretValue {id : Id} {s : Secret} {nonce : Nat} {value : Bytes}
    (hs : s.sealed = ⟨aead.encrypt nonce value (secretAAD id), value⟩) :
    Outline (.about op) .unwritten (insertSecret id s) fun _ => writes aead (some value) := by
  have htake : Outline (.about op) .unwritten
      (writeRow .alreadyExists (.secretSlug s.scope s.slug) (.take id))
      (fun _ => (.wrote (Only [id]) : Assertion (ciphertexts aead))) := by
    refine .write fun own log db new _ hop hP _ => ⟨hop, fun id' row hrow => ?_⟩
    rw [show own = ∅ from hP, AList.lookup_insert_ne (by simp)] at hrow
    cases hrow
  refine htake.bind fun _ => Outline.bind (.write (hits_value nonce fun cur new h => ?_)) fun row =>
    outline_live.bind fun _ => .ret _
  cases cur with
  | some row => cases row <;> cases h
  | none =>
    cases h
    exact congrArg some hs

theorem outline_updateValue {id : Id} {p : UpdateSecretParams} {nonce : Nat} {value : Bytes}
    (hp : p.sealed = some ⟨aead.encrypt nonce value (secretAAD id), value⟩) :
    Outline (.about op) (.wrote (Only [id])) (updateSecret id p)
      fun _ => writes aead (some value) := by
  refine outline_ask.bind fun etag => Outline.bind (.write (hits_value nonce fun cur new h => ?_))
    fun row => outline_live
  obtain ⟨s, rfl, rfl⟩ := execSecret_update h
  simp [sealedOf, slotSecret, Secret.touched, UpdateSecretParams.apply, hp]

theorem outline_updateOther {id : Id} {p : UpdateSecretParams} (hp : p.sealed = none) :
    Outline (.about op) (writes aead none) (updateSecret id p) fun _ => writes aead none := by
  refine outline_ask.bind fun etag => (outline_keeps ?_).bind fun row => outline_live
  intro cur new h
  obtain ⟨s, rfl, rfl⟩ := execSecret_update h
  simp [sealedOf, slotSecret, Secret.touched, UpdateSecretParams.apply, hp]

theorem outline_deleteValue (s : Id × Secret) :
    Outline (.about op) (writes aead none) (deleteSecret s) fun _ => writes aead none :=
  (outline_execRow (keeps_delete s.1)).bind fun _ =>
    (outline_execRow (k := .secretSlug s.2.scope s.2.slug) trivial).bind fun _ =>
      outline_look.bind fun _ => .forEach fun c _ => outline_execRow (k := .ref c s.1) trivial

theorem outline_resolve (scope : Scope) (connectorPrefix : Text) (names : List Text)
    (ids : List Id) : Outline (.about op) (writes aead none)
      (resolveSecretRefs scope connectorPrefix names ids) fun _ => writes aead none := by
  induction names generalizing ids with
  | nil => exact .ret _
  | cons name names ih =>
    unfold resolveSecretRefs
    cases parseSecretRef name connectorPrefix with
    | error e => exact .throw _
    | ok slug =>
      exact (outline_mapError _ (outline_openSecretUpdate ⟨scope, slug⟩)).bind fun row => ih _

theorem outline_clear (id : Id) :
    Outline (.about op) (writes aead none) (deleteConnectorSecretRefs id)
      fun _ => writes aead none :=
  outline_look.bind fun _ => .forEach fun s _ => outline_execRow (k := .ref id s) trivial

theorem outline_track {slugs : Slugs} (id : Id) (scope : Scope) (config : Config) :
    Outline (.about op) (writes aead none) (trackSecretRefs slugs id scope config)
      fun _ => writes aead none :=
  (outline_resolve scope _ _ []).bind fun _ => (outline_mapError _ (outline_clear id)).bind fun _ =>
    outline_mapError _ (.forEach fun s _ => outline_execRow (k := .ref id s) trivial)

theorem outline_openConnector (p : ByParentParams) :
    Outline (.about op) (writes aead none) (getConnectorByParentForUpdate p)
      fun _ => writes aead none :=
  outline_look.bind fun _ => outline_seen.bind fun c =>
    (outline_keeps (k := .connector c.1) trivial).bind fun _ => outline_handed.bind fun _ => .ret _

theorem outline_changeConnector {id : Id} {p : UpdateConnectorParams} :
    Outline (.about op) (writes aead none) (updateConnector id p) fun _ => writes aead none :=
  outline_ask.bind fun _ => (outline_keeps (k := .connector id) trivial).bind fun _ => outline_handed

/- Before its transaction an operation has written nothing. -/
def fresh (aead : Aead) (op : Op) : Assertion (ciphertexts aead) := (Assertion.about op).and .unwritten

/-- A transaction that writes the value of its request, or leaves all values alone. -/
theorem between_writes {validateOnly : Bool} {body : Service α}
    (hbody : Outline (.about op) .unwritten body fun _ => writes aead (requestValue op)) :
    Between (fresh aead op) (runInTxValidate validateOnly body) fun _ => .top := by
  refine Between.validated (hbody.conseq (fun _ _ _ _ _ h => h.2) fun _ _ _ _ _ _ h => h)
    (fun _ _ h => h.1) fun _ own log db hinv hop hwrites _ => ?_
  rw [← show log.op = op from hop] at hwrites
  exact ⟨fun id => (Writes.overlay hwrites hinv id).1, fun id => (Writes.overlay hwrites hinv id).2⟩

/- From nothing written on, a script that leaves all values alone. -/
theorem Outline.fromUnwritten {body : Service α}
    (hbody : Outline (.about op) (writes aead none) body fun _ => writes aead none) :
    Outline (.about op) .unwritten body fun _ => writes aead none :=
  hbody.conseq (fun own _ db _ _ hnone => by
    rw [show own = ∅ from hnone]
    exact fun _ _ h => by cases h) fun _ _ _ _ _ _ h => h

theorem between_createSecretValue (scope : Scope) (req : CreateSecretRequest) :
    Between (fresh aead (.createSecret scope req)) (createSecretHandler aead scope req)
      fun _ => .top := by
  unfold createSecretHandler
  split_ifs
  · exact .throw _
  · exact .throw _
  · refine between_ask.bind fun newId => ?_
    cases newId with
    | none => exact .throw _
    | some id =>
      refine between_encrypt fun nonce => ?_
      cases req.annotations with
      | error e => exact .throw _
      | ok annotations =>
        exact between_ask.bind fun etag =>
          between_mapError _ (between_writes (outline_insertSecretValue rfl))

theorem between_updateSecretValue (scope : Scope) (req : UpdateSecretRequest) :
    Between (fresh aead (.updateSecret scope req)) (updateSecretHandler aead scope req)
      fun _ => .top := by
  unfold updateSecretHandler
  refine (between_parseName _).bind fun slug => (between_maskedColumn _ _ _).bind fun annotations =>
    between_encryptNewValue (fun hmask => between_writes ?_)
      fun hmask id nonce => between_writes ?_
  · rw [requestValue, if_neg (by simp [hmask])]
    refine Outline.fromUnwritten ?_
    refine (outline_mapError _ (outline_openSecretUpdate _)).bind fun existing =>
      (outline_checkEtag _ _).bind fun _ => ?_
    exact outline_mapError _ (outline_updateOther rfl)
  · rw [requestValue, if_pos hmask]
    refine Outline.bind (R := fun s => (writes aead none).and (.wrote (Only [s.1])))
      (outline_mapError _ ((outline_openOne _).conseq (fun own _ db _ _ hnone => ?_)
        fun _ _ _ _ _ _ h => h)) fun existing => (outline_checkEtag _ _).bind fun _ => ?_
    · rw [show own = ∅ from hnone]
      exact ⟨fun _ _ h => (by cases h), fun _ _ h => by cases h⟩
    · unfold sealedFor
      by_cases hid : existing.1 = id
      · -- The row is the one that the value was encrypted for.
        subst hid
        simp only [ne_eq, not_true_eq_false, if_false]
        exact (outline_mapError _ (outline_updateValue rfl)).conseq (fun _ _ _ _ _ h => h.2)
          fun _ _ _ _ _ _ h => h
      · simp only [ne_eq, hid, not_false_eq_true, if_true]
        change Outline _ _ (throw Err.aborted : Service Secret) _
        exact .throw _

theorem between_deleteSecretValue (scope : Scope) (req : DeleteSecretRequest) :
    Between (fresh aead (.deleteSecret scope req)) (deleteSecretHandler scope req)
      fun _ => .top := by
  unfold deleteSecretHandler
  refine (between_parseName _).bind fun slug => between_writes (Outline.fromUnwritten ?_)
  refine (outline_mapError _ (outline_openSecretUpdate _)).bind fun existing =>
    (outline_checkEtag _ _).bind fun _ => (outline_mapError _ outline_look).bind fun refs => ?_
  by_cases hrefs : (show List Text from refs) = []
  · rw [if_neg (not_not.mpr hrefs)]
    exact outline_deleteValue _
  · rw [if_pos hrefs]
    exact .throw _

theorem between_createConnectorValue {slugs : Slugs} (scope : Scope) (req : CreateConnectorRequest) :
    Between (fresh aead (.createConnector scope req)) (createConnectorHandler slugs scope req)
      fun _ => .top := by
  unfold createConnectorHandler
  split_ifs
  · exact .throw _
  · refine between_ask.bind fun newId => ?_
    split
    · exact .throw _
    · exact .throw _
    · exact .throw _
    · rename_i id config annotations _ _
      refine between_ask.bind fun etag => between_writes (Outline.fromUnwritten ?_)
      refine Outline.bind (R := fun _ => writes aead none) (outline_mapError _ ?_) fun row =>
        (outline_track _ _ _).bind fun _ => .ret _
      exact (outline_keeps (k := .connector id) trivial).bind fun _ => outline_handed.bind fun _ => .ret _

theorem between_updateConnectorValue {slugs : Slugs} (scope : Scope) (req : UpdateConnectorRequest) :
    Between (fresh aead (.updateConnector scope req)) (updateConnectorHandler slugs scope req)
      fun _ => .top := by
  unfold updateConnectorHandler
  refine (between_parseName _).bind fun slug => (between_maskedColumn _ _ _).bind fun annotations =>
    (between_maskedColumn _ _ _).bind fun config => between_writes (Outline.fromUnwritten ?_)
  refine (outline_mapError _ (outline_openConnector _)).bind fun existing =>
    (outline_checkEtag _ _).bind fun _ => (outline_mapError _ outline_changeConnector).bind fun row => ?_
  refine Outline.bind (R := fun _ => writes aead none) ?_ fun _ => .ret _
  cases config with
  | none => exact .ret _
  | some config => exact outline_track _ _ _

theorem between_deleteConnectorValue (scope : Scope) (req : DeleteConnectorRequest) :
    Between (fresh aead (.deleteConnector scope req)) (deleteConnectorHandler scope req)
      fun _ => .top := by
  unfold deleteConnectorHandler
  refine (between_parseName _).bind fun slug => between_writes (Outline.fromUnwritten ?_)
  exact (outline_mapError _ (outline_openConnector _)).bind fun existing =>
    (outline_checkEtag _ _).bind fun _ =>
      (outline_execRow (k := .connector existing.1) trivial).bind fun _ => outline_clear _

theorem ciphertexts_safe {slugs : Slugs} (op : Op) (db : Db store) (_ : (ciphertexts aead).Inv db) :
    Safe (ciphertexts aead) (code aead slugs op) .idle ∅ (.start op) db := by
  cases op with
  | createSecret scope req => exact (between_createSecretValue scope req).run ⟨rfl, rfl⟩
  | updateSecret scope req => exact (between_updateSecretValue scope req).run ⟨rfl, rfl⟩
  | deleteSecret scope req => exact (between_deleteSecretValue scope req).run ⟨rfl, rfl⟩
  | createConnector scope req => exact (between_createConnectorValue scope req).run ⟨rfl, rfl⟩
  | updateConnector scope req => exact (between_updateConnectorValue scope req).run ⟨rfl, rfl⟩
  | deleteConnector scope req => exact (between_deleteConnectorValue scope req).run ⟨rfl, rfl⟩

/-! Every reachable state -/

theorem ciphertexts_meets {slugs : Slugs} {st : State store Op} {l : Label store Op} :
    (ciphertexts aead).Meets (code aead slugs) st l where
  allows _ _ _ _ _ _ _ _ _ _ := trivial
  accepts _ _ _ _ := trivial
  fits _ _ _ _ _ _ _ _ := trivial
  spares _ _ _ _ _ _ _ _ _ _ := trivial

/-- Each secret holds a ciphertext for its id, and the broker, asked for it by a name, finds it and
gets its value. -/
structure Decryptable (aead : Aead) (db : Db store) : Prop where
  encrypted : ∀ id s, (id, s) ∈ secrets db → ∃ nonce,
    s.sealed.ciphertext = aead.encrypt nonce s.sealed.value (secretAAD id)
  decrypts : ∀ id s, (id, s) ∈ secrets db →
    aead.decrypt s.sealed.ciphertext (Broker.secretAAD id) = some s.sealed.value
  resolves : ∀ scope name id value, resolveSecret aead scope name (some db) = .ok (id, value) →
    valueOf (db.lookup (.secret id)) = some value
  found : ∀ id s name, (id, s) ∈ secrets db → parseSecretLeaf name = .ok s.slug →
    resolveSecret aead s.scope name (some db) = .ok (id, s.sealed.value)

/-- A secret that is there is the one that its scope and slug lead to. -/
theorem getSecretByParent_eq {slugs : Slugs} {db : Db store} (hdb : Sound slugs db) {id : Id}
    {s : Secret} (hs : (id, s) ∈ secrets db) :
    answer (.getSecretByParent ⟨s.scope, s.slug⟩) db = some (id, s) := by
  have hrow : (decide (s.scope = s.scope) && decide (s.slug = s.slug)) = true := by simp
  cases hfound : answer (.getSecretByParent ⟨s.scope, s.slug⟩) db with
  | none => exact absurd hrow (List.find?_eq_none.mp hfound _ hs)
  | some found =>
    obtain ⟨id', s'⟩ := found
    have hs' : (id', s') ∈ secrets db := List.mem_of_find?_eq_some hfound
    have hrow' := List.find?_some hfound
    simp only [Bool.and_eq_true, decide_eq_true_eq] at hrow'
    obtain rfl : id' = id := hdb.secret_unique hs hs' hrow'.1 hrow'.2
    have heq := Option.some.inj ((mem_secrets.mp hs).symm.trans (mem_secrets.mp hs'))
    obtain rfl : s = s' := by injection heq
    rfl

theorem decryptable {slugs : Slugs} {db : Db store} (hdb : Sound slugs db)
    (h : ∀ id, CiphertextOk aead id (db.lookup (.secret id))) : Decryptable aead db := by
  have hsealed : ∀ id s, (id, s) ∈ secrets db →
      ∃ nonce, s.sealed.ciphertext = aead.encrypt nonce s.sealed.value (secretAAD id) := by
    intro id s hs
    refine h id s.sealed ?_
    rw [mem_secrets.mp hs]
    rfl
  have hdecrypt : ∀ id s, (id, s) ∈ secrets db →
      aead.decrypt s.sealed.ciphertext (Broker.secretAAD id) = some s.sealed.value := by
    intro id s hs
    obtain ⟨nonce, hnonce⟩ := hsealed id s hs
    rw [hnonce, Broker.secretAAD_eq]
    exact aead.decrypt_encrypt _ _ _
  refine ⟨hsealed, hdecrypt, fun scope name id value hresolve => ?_, fun id s name hs hleaf => ?_⟩
  · obtain ⟨slug, db', s, -, hrows, hs, -, -, hvalue⟩ := resolveSecret_ok hresolve
    cases hrows
    rw [mem_secrets.mp hs]
    exact (hdecrypt id s hs).symm.trans hvalue
  · unfold resolveSecret
    rw [hleaf]
    dsimp only
    rw [getSecretByParent_eq hdb hs]
    dsimp only
    rw [hdecrypt id s hs]

/-- In every state of every run each stored secret decrypts under the id of its row to the value
of that row, which a commit sets to the value of its request or leaves as it was. -/
theorem secrets_decryptable {slugs : Slugs} {db : Db store} (hsound : Sound slugs db)
    (hdb : ∀ id, CiphertextOk aead id (db.lookup (.secret id))) {st : State store Op}
    (h : Runs (step (code aead slugs)) (fun _ _ => True) (.rest db) st) :
    Decryptable aead st.db ∧ ∀ l st', step (code aead slugs) st l = some st' → st'.db = st.db ∨
      ∃ p s a, l = .act p a ∧ st.sessions[p]? = some s ∧ ∀ id, ValueWritten
        (requestValue s.log.op) (st.db.lookup (.secret id)) (st'.db.lookup (.secret id)) := by
  have hok : st.Ok (ciphertexts aead) := State.Ok.runs (State.ok_rest hdb) ciphertexts_safe
    (fun _ _ _ => ciphertexts_meets) h
  refine ⟨decryptable (ok_of_runs hsound h).inv.1 hok.inv, fun l st' hstep => ?_⟩
  obtain ⟨-, heq | ⟨p, s, a, hl, hs, hguar⟩⟩ := hok.step ciphertexts_safe ciphertexts_meets hstep
  · exact .inl heq
  · exact .inr ⟨p, s, a, hl, hs, hguar.2⟩

/- The secret is deleted and made again while an update waits between its read and its
transaction, which then finds another row. -/
def replaceTrace : List (Label store Op) :=
  keyTrace ++
    [Label.spawn (Op.updateSecret acme ⟨"organizations/acme/secrets/key".toList, ["value"], "", [8],
       .ok "{}", "", false⟩),
     .run 1, .told 1 (Ask.encrypt [8] (secretAAD 10)) (some 1),
     .spawn (Op.deleteSecret acme ⟨"organizations/acme/secrets/key".toList, "", false⟩)] ++
    List.replicate 8 (Label.run 2) ++
    [Label.spawn (Op.createSecret acme ⟨"key".toList, "Key", [9], .ok "{}", false⟩),
     .told 3 Ask.newId (some 11), .told 3 (Ask.encrypt [9] (secretAAD 11)) (some 2),
     .told 3 Ask.etag "f"] ++ List.replicate 4 (Label.run 3) ++ List.replicate 4 (Label.run 1)

def replacedState : State store Op :=
  (exec (step (code prefixAead acmeSlugs)) (.rest ∅) replaceTrace).get (by decide)

theorem secrets_decryptable_replaced : Decryptable prefixAead replacedState.db ∧
    ∀ l st', step (code prefixAead acmeSlugs) replacedState l = some st' →
      st'.db = replacedState.db ∨ ∃ p s a, l = .act p a ∧ replacedState.sessions[p]? = some s ∧
        ∀ id, ValueWritten (requestValue s.log.op) (replacedState.db.lookup (.secret id))
          (st'.db.lookup (.secret id)) :=
  secrets_decryptable sound_empty (fun _ _ h => by cases h)
    (Runs.of_exec_free replaceTrace (Option.some_get _).symm)

/- The new row keeps its own value: the update has left with an error. -/
example : (secrets replacedState.db).map (fun s => (s.1, s.2.sealed.value)) = [(11, [9])] := by
  decide

end Pivox.Connectors
