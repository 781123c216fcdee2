import Pivox.Connectors.Tracking

/-!
No reference dangles: in every committed state the literal references in the config of a connector
are to secrets that are there, and connector_secret_refs holds exactly those.
-/

namespace Pivox.Connectors
open ReadCommitted Transition

variable {aead : Aead} {slugs : Slugs} {writing : Bool} {op : Op} {J P : Assertion (contract slugs)}
  {α : Type}

/-! The operations -/

/- Before its transaction an operation has written nothing. -/
def ready (slugs : Slugs) (writing : Bool) (op : Op) : Assertion (contract slugs) :=
  (pends slugs writing op).and .unwritten

theorem between_runInTx {validateOnly : Bool} {body : Service α}
    {Q : α → Assertion (contract slugs)} (hbody : Outline (pends slugs writing op) .unwritten body Q)
    (hcommit : ∀ a own log db, (Q a).holds own log db →
      (∀ id, writing = true → Key.connector id ∈ own → ConnectorOk slugs id (overlay own db)) ∧
        keepsRefs op db (overlay own db)) :
    Between (ready slugs writing op) (runInTxValidate validateOnly body) fun _ => .top := by
  refine Between.validated (hbody.conseq (fun _ _ _ _ _ h => h.2) fun _ _ _ _ _ _ h => h)
    (fun _ _ h => h.1) fun a own log db _ hJ hQ _ => ?_
  obtain ⟨hpends, rfl⟩ := hJ
  obtain ⟨hwritten, hkeeps⟩ := hcommit a own log db hQ
  refine ⟨⟨⟨fun g => ?_, trivial⟩, hpends.owns.grows⟩, hkeeps⟩
  by_cases hopen : Open writing own g
  · obtain ⟨hwriting, id, rfl, hmem⟩ := hopen
    exact hwritten id hwriting hmem
  · exact hpends.loc g hopen

/-- A transaction on secrets has no connector to settle. -/
theorem between_secrets {validateOnly : Bool} {body : Service α}
    (hkeeps : ∀ db db', keepsRefs op db db')
    (hbody : Outline (pends slugs false op) .unwritten body fun _ => .top) :
    Between (ready slugs false op) (runInTxValidate validateOnly body) fun _ => .top :=
  between_runInTx hbody fun _ _ _ _ _ => ⟨fun _ hwriting => (nomatch hwriting), hkeeps _ _⟩

theorem between_connectors {validateOnly : Bool} {body : Service α}
    (hkeeps : ∀ db db', keepsRefs op db db')
    (hbody : Outline (pends slugs true op) .unwritten body fun _ => settled slugs) :
    Between (ready slugs true op) (runInTxValidate validateOnly body) fun _ => .top :=
  between_runInTx hbody fun _ _ _ _ h => ⟨fun id _ hmem => h.2 id hmem, hkeeps _ _⟩

theorem safe_operation {m : Service α} (h : Between (ready slugs writing op) m fun _ => .top)
    {db : Db store} (hdb : (contract slugs).Inv db) :
    Safe (contract slugs) m.run .idle ∅ (.start op) db :=
  h.run ⟨⟨⟨Guarded.owns_empty db, fun g _ => hdb.1 g⟩, rfl⟩, rfl⟩

theorem between_createSecret (scope : Scope) (req : CreateSecretRequest) :
    Between (ready slugs false (.createSecret scope req)) (createSecretHandler aead scope req)
      fun _ => .top := by
  unfold createSecretHandler
  split_ifs
  · exact .throw _
  · exact .throw _
  · refine between_ask.bind fun newId => ?_
    cases newId with
    | none => exact .throw _
    | some id =>
      refine between_encrypt fun nonce => ?_
      cases req.annotations with
      | error e => exact .throw _
      | ok annotations =>
        exact between_ask.bind fun etag =>
          between_mapError _ (between_secrets (fun _ _ => trivial) outline_insertSecret)

theorem between_updateSecret (scope : Scope) (req : UpdateSecretRequest) :
    Between (ready slugs false (.updateSecret scope req)) (updateSecretHandler aead scope req)
      fun _ => .top := by
  unfold updateSecretHandler
  refine (between_parseName _).bind fun slug => (between_maskedColumn _ _ _).bind fun annotations =>
    ?_
  have htx : ∀ new : Option (Id × Sealed), Between (ready slugs false (.updateSecret scope req))
      (runInTxValidate req.validateOnly do
        let existing ← mapError handleResourceError (getSecretByParentForUpdate ⟨scope, slug⟩)
        checkEtag req.etag existing.2.etag
        let sealed ← sealedFor existing.1 new
        mapError handleResourceError (updateSecret existing.1
          { displayName := masked (req.inScope "display_name") req.displayName, sealed,
            annotations })) fun _ => .top := by
    refine fun new => between_secrets (fun _ _ => trivial) ?_
    refine (outline_mapError _ (outline_openSecret _)).bind fun existing =>
      (outline_checkEtag _ _).bind fun _ => (outline_sealedFor _ _).bind fun sealed => ?_
    exact outline_mapError _ (outline_updateSecret _)
  exact between_encryptNewValue (fun _ => htx none) fun _ id nonce => htx (some _)

theorem between_deleteSecret (scope : Scope) (req : DeleteSecretRequest) :
    Between (ready slugs false (.deleteSecret scope req)) (deleteSecretHandler scope req)
      fun _ => .top := by
  unfold deleteSecretHandler
  refine (between_parseName _).bind fun slug => between_secrets (fun _ _ => trivial) ?_
  refine (outline_mapError _ (outline_openSecret _)).bind fun existing =>
    (outline_checkEtag _ _).bind fun _ => ?_
  refine (outline_mapError _ outline_connectorsReferencingSecret).bind fun refs => ?_
  by_cases hrefs : (show List Text from refs) = []
  · rw [if_neg (not_not.mpr hrefs)]
    exact outline_deleteSecret.conseq (fun _ _ _ _ _ h => ⟨h.1, h.2 hrefs⟩) fun _ _ _ _ _ _ h => h
  · rw [if_pos hrefs]
    exact .throw _

theorem between_createConnector (scope : Scope) (req : CreateConnectorRequest) :
    Between (ready slugs true (.createConnector scope req)) (createConnectorHandler slugs scope req)
      fun _ => .top := by
  unfold createConnectorHandler
  split_ifs
  · exact .throw _
  · refine between_ask.bind fun newId => ?_
    split
    · exact .throw _
    · exact .throw _
    · exact .throw _
    · refine between_ask.bind fun etag => between_connectors (fun _ _ => trivial) ?_
      exact (outline_mapError _ outline_insertConnector).bind fun row =>
        outline_trackSecretRefs.bind fun _ => .ret _

theorem between_updateConnector (scope : Scope) (req : UpdateConnectorRequest) :
    Between (ready slugs true (.updateConnector scope req)) (updateConnectorHandler slugs scope req)
      fun _ => .top := by
  unfold updateConnectorHandler
  refine (between_parseName _).bind fun slug => (between_maskedColumn _ _ _).bind fun annotations =>
    ?_
  have hlock : Outline (pends slugs true (.updateConnector scope req)) .unwritten
      (mapError handleResourceError (getConnectorByParentForUpdate ⟨scope, slug⟩))
      (lockedConnector slugs scope) := outline_mapError _ (outline_lockConnector ⟨scope, slug⟩)
  have hsettle : ∀ row : Connector, Outline (pends slugs true (.updateConnector scope req))
      ((settled slugs).and (.wrote NoRefs)) (Pure.pure row : Service Connector)
      fun _ => settled slugs :=
    fun row => (Outline.ret row).conseq (fun _ _ _ _ _ h => h) fun _ _ _ _ _ _ h => h.1
  by_cases hscope : req.inScope "config" = true
  · refine (between_maskedColumn _ _ _).bind fun config => between_connectors ?_ ?_
    · intro _ _ hout
      rw [hscope] at hout
      cases hout
    · refine hlock.bind fun existing => (outline_checkEtag _ _).bind fun _ => ?_
      cases config with
      | none => exact (outline_mapError _ (outline_updateMasked rfl)).bind hsettle
      | some config =>
        exact (outline_mapError _ (outline_updateConfig rfl)).bind fun row =>
          outline_trackSecretRefs.bind fun _ => .ret row
  · have hmasked : (maskedColumn "connector.config" (req.inScope "config") req.config :
        Service (Option Config)) = pure none := by
      unfold maskedColumn
      rw [if_neg hscope]
    rw [hmasked, Script.pure_bind]
    refine between_runInTx (Q := fun _ => (settled slugs).and (.wrote NoRefs)) ?_ ?_
    · refine hlock.bind fun existing => (outline_checkEtag _ _).bind fun _ => ?_
      exact (outline_mapError _ (outline_updateMasked rfl)).bind fun row => .ret row
    · rintro _ own log db ⟨hsettled, hnone⟩
      refine ⟨fun id _ hmem => hsettled.2 id hmem, fun _ connectorId secretId => ?_⟩
      exact @lookup_overlay_of_none store own db (.ref connectorId secretId) (hnone _ _)

theorem between_deleteConnector (scope : Scope) (req : DeleteConnectorRequest) :
    Between (ready slugs true (.deleteConnector scope req)) (deleteConnectorHandler scope req)
      fun _ => .top := by
  unfold deleteConnectorHandler
  refine (between_parseName _).bind fun slug => between_connectors (fun _ _ => trivial) ?_
  refine (outline_mapError _ (outline_lockConnector _)).bind fun existing =>
    (outline_checkEtag _ _).bind fun _ => ?_
  exact outline_deleteConnector.conseq (fun _ _ _ _ _ h => h.1) fun _ _ _ _ _ _ h => h

theorem contract_safe (op : Op) (db : Db store) (hdb : (contract slugs).Inv db) :
    Safe (contract slugs) (code aead slugs op) .idle ∅ (.start op) db := by
  cases op with
  | createSecret scope req =>
    exact safe_operation (between_createSecret scope req) hdb
  | updateSecret scope req =>
    exact safe_operation (between_updateSecret scope req) hdb
  | deleteSecret scope req =>
    exact safe_operation (between_deleteSecret scope req) hdb
  | createConnector scope req =>
    exact safe_operation (between_createConnector scope req) hdb
  | updateConnector scope req => exact safe_operation (between_updateConnector scope req) hdb
  | deleteConnector scope req =>
    exact safe_operation (between_deleteConnector scope req) hdb

/-! Every reachable state -/

def Sound (slugs : Slugs) (db : Db store) : Prop := ∀ g, Local slugs g db

theorem sound_empty : Sound slugs ∅ := by
  intro g
  cases g with
  | secret id => exact fun _ htracked => by cases htracked
  | secretSlug scope slug => exact fun _ hlive => by cases hlive
  | connector id => exact ⟨fun _ hc => (by cases hc), fun _ htracked => (by cases htracked)⟩
  | ref _ _ => trivial

theorem ok_of_runs {db : Db store} (hdb : Sound slugs db) {st : State store Op}
    (h : Runs (step (code aead slugs)) (fun _ _ => True) (.rest db) st) : st.Ok (contract slugs) :=
  State.Ok.runs (State.ok_rest ⟨hdb, trivial⟩) contract_safe
    (fun _ _ _ => Guarded.meets_of_fit fun _ _ => trivial) h

/-- What the literal references in the config of a connector are to. -/
structure NoDangling (slugs : Slugs) (db : Db store) : Prop where
  resolves : ∀ id c, (id, c) ∈ connectors db → ∀ name ∈ extractSecretRefs c.config,
    ∃ slug, parseSecretRef name (namePrefix slugs c.scope) = .ok slug ∧
      ∃ secretId s, (secretId, s) ∈ secrets db ∧ s.scope = c.scope ∧ s.slug = slug
  tracked : ∀ id c, (id, c) ∈ connectors db → ∀ secretId, (id, secretId) ∈ refs db ↔
    ∃ s, (secretId, s) ∈ secrets db ∧ s.scope = c.scope ∧ Names slugs c.scope c.config s.slug
  owned : ∀ id secretId, (id, secretId) ∈ refs db → ∃ c, (id, c) ∈ connectors db

theorem liveIdentity_eq {row : Option SecretSlot} {i : Scope × Text} :
    liveIdentity row = some i ↔ ∃ s, row = some (.live s) ∧ s.scope = i.1 ∧ s.slug = i.2 := by
  obtain ⟨scope, slug⟩ := i
  obtain _ | s | s := row
  · simp [liveIdentity]
  · simp [liveIdentity]
  · simp [liveIdentity]

/-- A tracked secret is there under the scope and the slug that it was made with. -/
theorem Sound.live_of_tracked {db : Db store} (h : Sound slugs db) {id secretId : Id}
    {i : Scope × Text} (htracked : isTracked (db.lookup (.ref id secretId)) = true)
    (hid : identity (db.lookup (.secret secretId)) = some i) :
    ∃ s, (secretId, s) ∈ secrets db ∧ s.scope = i.1 ∧ s.slug = i.2 := by
  obtain ⟨j, hj⟩ := Option.isSome_iff_exists.mp (h (.secret secretId) id htracked)
  have hij : j = i := Option.some.inj ((identity_of_live hj).symm.trans hid)
  subst hij
  obtain ⟨s, hs, hscope, hslug⟩ := liveIdentity_eq.mp hj
  exact ⟨s, mem_secrets.mpr hs, hscope, hslug⟩

/-- One slug of a scope is one secret. -/
theorem Sound.secret_unique {db : Db store} (h : Sound slugs db) {id id' : Id} {s s' : Secret}
    (hs : (id, s) ∈ secrets db) (hs' : (id', s') ∈ secrets db) (hscope : s'.scope = s.scope)
    (hslug : s'.slug = s.slug) : id' = id := by
  have hlive : liveIdentity (db.lookup (.secret id)) = some (s.scope, s.slug) :=
    liveIdentity_eq.mpr ⟨s, mem_secrets.mp hs, rfl, rfl⟩
  have hlive' : liveIdentity (db.lookup (.secret id')) = some (s.scope, s.slug) :=
    liveIdentity_eq.mpr ⟨s', mem_secrets.mp hs', hscope, hslug⟩
  obtain ⟨xmax, hentry⟩ := h (.secretSlug s.scope s.slug) id hlive
  obtain ⟨xmax', hentry'⟩ := h (.secretSlug s.scope s.slug) id' hlive'
  have heq := Option.some.inj (hentry'.symm.trans hentry)
  simp only [SlugEntry.mk.injEq, Option.some.injEq] at heq
  exact heq.1

theorem Sound.noDangling {db : Db store} (h : Sound slugs db) : NoDangling slugs db where
  resolves id c hc name hname := by
    obtain ⟨slug, secretId, hparse, htracked, hid⟩ :=
      (h (.connector id)).named c (mem_connectors.mp hc) name hname
    exact ⟨slug, hparse, secretId, h.live_of_tracked htracked hid⟩
  tracked id c hc secretId := by
    have hok : ConnectorOk slugs id db := h (.connector id)
    rw [mem_refs]
    constructor
    · intro htracked
      obtain ⟨c', slug, hc', hnames, hid⟩ := hok.tracked secretId htracked
      have heq := Option.some.inj ((mem_connectors.mp hc).symm.trans hc')
      obtain rfl : c = c' := by injection heq
      obtain ⟨s, hs, hscope, hslug⟩ := h.live_of_tracked htracked hid
      exact ⟨s, hs, hscope, hslug ▸ hnames⟩
    · rintro ⟨s, hs, hscope, name, hname, hparse⟩
      obtain ⟨slug, secretId', hparse', htracked, hid⟩ :=
        hok.named c (mem_connectors.mp hc) name hname
      have hslugs : s.slug = slug := Except.ok.inj (hparse.symm.trans hparse')
      obtain ⟨s', hs', hscope', hslug'⟩ := h.live_of_tracked htracked hid
      obtain rfl : secretId' = secretId :=
        h.secret_unique hs hs' (hscope'.trans hscope.symm) (hslug'.trans hslugs.symm)
      exact htracked
  owned id secretId href := by
    obtain ⟨c, -, hc, -⟩ := (h (.connector id)).tracked secretId (mem_refs.mp href)
    exact ⟨c, mem_connectors.mpr hc⟩

/-- In every state of every run the references in each stored config resolve in the scope of their
connector, and its rows of connector_secret_refs are the secrets that it names; an update whose
mask leaves the config out changes none of them. -/
theorem no_dangling_reference {db : Db store} (hdb : Sound slugs db) {st : State store Op}
    (h : Runs (step (code aead slugs)) (fun _ _ => True) (.rest db) st) :
    NoDangling slugs st.db ∧
      ∀ p a s scope req st', st.sessions[p]? = some s → s.log.op = .updateConnector scope req →
        req.inScope "config" = false → step (code aead slugs) st (.act p a) = some st' →
        ∀ id secretId, (id, secretId) ∈ refs st'.db ↔ (id, secretId) ∈ refs st.db := by
  have hok : st.Ok (contract slugs) := ok_of_runs hdb h
  refine ⟨Sound.noDangling hok.inv.1, fun p a s scope req st' hs hop hmask hstep id secretId => ?_⟩
  rw [mem_refs, mem_refs]
  obtain heq | hkeeps := Guarded.promise_of_step hok contract_safe
    (Guarded.meets_of_fit fun _ _ => trivial) hs hstep
  · rw [heq]
  · rw [hop] at hkeeps
    rw [show st'.db.lookup (.ref id secretId) = st.db.lookup (.ref id secretId) from
      hkeeps hmask id secretId]

/- A cipher that names its associated data in the clear. -/
def prefixAead : Aead where
  encrypt _ value associatedData := associatedData ++ value
  decrypt ciphertext associatedData := ciphertext.dropPrefix? associatedData
  decrypt_encrypt _ _ _ := List.dropPrefix?_eq_some_iff.mpr ⟨_, rfl, beq_self_eq_true _⟩

def acmeSlugs : Slugs := ⟨fun _ => "acme".toList, fun _ => "ops".toList⟩

def acme : Scope := ⟨1, none⟩

def keyTrace : List (Label store Op) :=
  [.spawn (.createSecret acme ⟨"key".toList, "Key", [7], .ok "{}", false⟩),
   .told 0 Ask.newId (some 10), .told 0 (.encrypt [7] (secretAAD 10)) (some 0),
   .told 0 Ask.etag "e", .run 0, .run 0, .run 0, .run 0]

/- One header, and as many statements as its references take. -/
def apiTrace (header : Text) (statements : Nat) : List (Label store Op) :=
  keyTrace ++
    [Label.spawn (Op.createConnector acme ⟨"api".toList, "Api", "",
       .ok (some ⟨"https://api".toList, [("X-Key".toList, header)]⟩), "", .ok "{}", false⟩),
     .told 1 Ask.newId (some 20), .told 1 Ask.etag "e"] ++ List.replicate statements (Label.run 1)

def keyHeader : Text := "secret(\"organizations/acme/secrets/key\")".toList

def apiState : State store Op :=
  (exec (step (code prefixAead acmeSlugs)) (.rest ∅) (apiTrace keyHeader 7)).get (by decide)

theorem runs_apiState :
    Runs (step (code prefixAead acmeSlugs)) (fun _ _ => True) (.rest ∅) apiState :=
  Runs.of_exec_free (apiTrace keyHeader 7) (Option.some_get _).symm

def nextHeader : Text := "secret(\"organizations/acme/secrets/next\")".toList

def updateApi (updateMask : List String) : Op :=
  .updateConnector acme ⟨"organizations/acme/connectors/api".toList, updateMask, "Api 2", "",
    .ok (some ⟨"https://api".toList, [("X-Key".toList, nextHeader)]⟩), "", .ok "{}", "", false⟩

def deleteKey (name : Text) : Op :=
  .deleteSecret acme ⟨"organizations/acme/secrets/".toList ++ name, "", false⟩

/- The connector goes over to another secret. While its transaction has that one locked, one delete
waits for the lock and another fails for the reference that is still there; after the commit the
first fails for the new reference, and the old secret can go. Last, an update of the display name is
about to commit. -/
def rotateTrace : List (Label store Op) := List.flatten
  [apiTrace keyHeader 7,
   [.spawn (.createSecret acme ⟨"next".toList, "Next", [8], .ok "{}", false⟩),
    .told 2 Ask.newId (some 11), .told 2 (.encrypt [8] (secretAAD 11)) (some 1),
    .told 2 Ask.etag "e"], List.replicate 4 (.run 2),
   [.spawn (updateApi ["config"]), .spawn (deleteKey "next".toList), .spawn (deleteKey "key".toList),
    .spawn (deleteKey "key".toList), .spawn (updateApi ["display_name"])],
   List.replicate 3 (.run 3), [.told 3 Ask.etag "f"], List.replicate 4 (.run 3),
   List.replicate 2 (.run 4), List.replicate 5 (.run 5), List.replicate 3 (.run 3),
   List.replicate 3 (.run 4), List.replicate 8 (.run 6), List.replicate 3 (.run 7),
   [.told 7 Ask.etag "g", .run 7]]

def rotatedState : State store Op :=
  (exec (step (code prefixAead acmeSlugs)) (.rest ∅) rotateTrace).get (by decide)

theorem runs_rotatedState :
    Runs (step (code prefixAead acmeSlugs)) (fun _ _ => True) (.rest ∅) rotatedState :=
  Runs.of_exec_free rotateTrace (Option.some_get _).symm

theorem no_dangling_reference_api :
    (refs rotatedState.db = [(20, 11)] ∧ (secrets rotatedState.db).map Prod.fst = [11]) ∧
      NoDangling acmeSlugs rotatedState.db ∧
      ∀ p a s scope req st', rotatedState.sessions[p]? = some s →
        s.log.op = .updateConnector scope req → req.inScope "config" = false →
        step (code prefixAead acmeSlugs) rotatedState (.act p a) = some st' →
        ∀ id secretId, (id, secretId) ∈ refs st'.db ↔ (id, secretId) ∈ refs rotatedState.db :=
  ⟨by decide, no_dangling_reference sound_empty runs_rotatedState⟩

end Pivox.Connectors
