import Pivox.Connectors.References

/-!
The broker evaluates the headers of a connector and injects the secrets that they ask for. What it
resolves is tracked as far as the names that it is asked for are literals of the stored config.
-/

namespace Pivox.Connectors
open ReadCommitted Transition

/-- A compiled header: it ends with its string, `none` when it comes to something else, or asks for
a secret and goes on with what it is told. -/
inductive Program where
  | done (value : Option Bytes)
  | secret (name : Text) (next : Option Bytes → Program)

/-- The names that a program can pass to secret(), over all that it can be told. -/
inductive Program.Passes (name : Text) : Program → Prop where
  | here {next : Option Bytes → Program} : Passes name (.secret name next)
  | later {asked : Text} {next : Option Bytes → Program} (value : Option Bytes)
      (h : Passes name (next value)) : Passes name (.secret asked next)

inductive BrokerErr where
  | notHttp
  | noBaseUrl
  | config
  | retryable
  deriving DecidableEq, Repr

/-- It must match what the value was encrypted with. -/
def Broker.secretAAD (id : Id) : Bytes :=
  "secret:".toList.map (fun c => UInt8.ofNat c.toNat) ++ uuidBytes id

theorem Broker.secretAAD_eq (id : Id) : Broker.secretAAD id = secretAAD id := rfl

/- `rows` is what the lookup sees, unless it fails. -/
def resolveSecret (aead : Aead) (scope : Scope) (name : Text) (rows : Option (Db store)) :
    Except BrokerErr (Id × Bytes) :=
  match parseSecretLeaf name with
  | .error _ => .error .config
  | .ok slug =>
    match rows with
    | none => .error .retryable
    | some db =>
      match answer (.getSecretByParent ⟨scope, slug⟩) db with
      | none => .error .config
      | some (id, s) =>
        match aead.decrypt s.sealed.ciphertext (Broker.secretAAD id) with
        | none => .error .config
        | some value => .ok (id, value)

/-- A secret is found by its scope and the last segment of its name. -/
theorem resolveSecret_ok {aead : Aead} {scope : Scope} {name : Text} {rows : Option (Db store)}
    {id : Id} {value : Bytes} (h : resolveSecret aead scope name rows = .ok (id, value)) :
    ∃ slug db s, parseSecretLeaf name = .ok slug ∧ rows = some db ∧ (id, s) ∈ secrets db ∧
      s.scope = scope ∧ s.slug = slug ∧
      aead.decrypt s.sealed.ciphertext (Broker.secretAAD id) = some value := by
  unfold resolveSecret at h
  split at h
  · cases h
  · rename_i slug hleaf
    split at h
    · cases h
    · rename_i db
      split at h
      · cases h
      · rename_i id' s hfound
        have hmem : (id', s) ∈ secrets db := List.mem_of_find?_eq_some hfound
        have hrow := List.find?_some hfound
        simp only [Bool.and_eq_true, decide_eq_true_eq] at hrow
        split at h
        · cases h
        · rename_i value' hvalue
          cases h
          exact ⟨slug, db, s, hleaf, rfl, hmem, hrow.1, hrow.2, hvalue⟩

/- A call of secret() and what came of it. -/
structure Call where
  name : Text
  outcome : Except BrokerErr (Id × Bytes)
  deriving DecidableEq

def Call.error (call : Call) : Option BrokerErr :=
  match call.outcome with
  | .ok _ => none
  | .error e => some e

/- What the program is told of an outcome. -/
def told : Except BrokerErr (Id × Bytes) → Option Bytes
  | .ok (_, value) => some value
  | .error _ => none

section evaluation
variable (resolve : Nat → Text → Except BrokerErr (Id × Bytes))

/- `resolve` is also given the number of the call. -/
def runProgram : Program → List Call → List Call × Option Bytes
  | .done value, calls => (calls, value)
  | .secret name next, calls =>
    runProgram (next (told (resolve calls.length name)))
      (calls ++ [⟨name, resolve calls.length name⟩])

/-- The first error of secret() is what the header fails with, whatever else it came to. -/
def evalConnectorHeaders (compile : Text → Option Program) :
    List (Text × Text) → List Call → List (Text × Bytes) →
      List Call × Except BrokerErr (List (Text × Bytes))
  | [], calls, out => (calls, .ok out)
  | (name, expr) :: headers, calls, out =>
    match compile expr with
    | none => (calls, .error .config)
    | some program =>
      let ran := runProgram resolve program calls
      match ran.1.findSome? Call.error, ran.2 with
      | some e, _ => (ran.1, .error e)
      | none, none => (ran.1, .error .config)
      | none, some value => evalConnectorHeaders compile headers ran.1 (out ++ [(name, value)])

/- Each call has been answered by `resolve`. -/
def Answered (calls : List Call) : Prop :=
  ∀ n call, calls[n]? = some call → call.outcome = resolve n call.name

variable {resolve}

theorem answered_nil : Answered resolve [] := fun _ _ h => by cases h

theorem Answered.concat {calls : List Call} (h : Answered resolve calls) (name : Text) :
    Answered resolve (calls ++ [⟨name, resolve calls.length name⟩]) := by
  intro n call hcall
  rw [List.getElem?_append] at hcall
  split at hcall
  · exact h n call hcall
  · rename_i hn
    rw [List.getElem?_singleton] at hcall
    split_ifs at hcall with hlast
    obtain rfl := Option.some.inj hcall
    obtain rfl : n = calls.length := by omega
    rfl

theorem answered_runProgram (program : Program) {calls : List Call} (h : Answered resolve calls) :
    Answered resolve (runProgram resolve program calls).1 := by
  induction program generalizing calls with
  | done value => exact h
  | secret name next ih => exact ih _ (h.concat name)

theorem answered_evalConnectorHeaders {compile : Text → Option Program} (headers : List (Text × Text))
    {calls : List Call} (out : List (Text × Bytes)) (h : Answered resolve calls) :
    Answered resolve (evalConnectorHeaders resolve compile headers calls out).1 := by
  induction headers generalizing calls out with
  | nil => exact h
  | cons header headers ih =>
    obtain ⟨name, expr⟩ := header
    unfold evalConnectorHeaders
    split
    · exact h
    · rename_i program _
      have hran := answered_runProgram program h
      dsimp only
      split
      · exact hran
      · exact hran
      · exact ih _ hran

theorem passes_runProgram {program : Program} {calls : List Call} {call : Call}
    (h : call ∈ (runProgram resolve program calls).1) :
    call ∈ calls ∨ program.Passes call.name := by
  induction program generalizing calls with
  | done value => exact .inl h
  | secret name next ih =>
    obtain hcall | hpasses := ih _ h
    · obtain hcall | hcall := List.mem_append.mp hcall
      · exact .inl hcall
      · obtain rfl := List.mem_singleton.mp hcall
        exact .inr .here
    · exact .inr (.later _ hpasses)

/-- No header is asked for more than its program can pass. -/
theorem passes_evalConnectorHeaders {compile : Text → Option Program} {headers : List (Text × Text)}
    {calls : List Call} {out : List (Text × Bytes)} {call : Call}
    (h : call ∈ (evalConnectorHeaders resolve compile headers calls out).1) :
    call ∈ calls ∨ ∃ header ∈ headers, ∃ program, compile header.2 = some program ∧
      program.Passes call.name := by
  induction headers generalizing calls out with
  | nil => exact .inl h
  | cons header headers ih =>
    obtain ⟨name, expr⟩ := header
    unfold evalConnectorHeaders at h
    split at h
    · exact .inl h
    · rename_i program hcompile
      have hran {call : Call} (h : call ∈ (runProgram resolve program calls).1) : call ∈ calls ∨
          ∃ header ∈ (name, expr) :: headers, ∃ program, compile header.2 = some program ∧
            program.Passes call.name :=
        (passes_runProgram h).imp_right fun h => ⟨_, List.mem_cons_self, program, hcompile, h⟩
      dsimp only at h
      split at h
      · exact hran h
      · exact hran h
      · obtain hcall | ⟨header, hheader, hpasses⟩ := ih h
        · exact hran hcall
        · exact .inr ⟨header, List.mem_cons_of_mem _ hheader, hpasses⟩

end evaluation

/-- What the broker makes of a connector that it has read: `order` is how it goes through the
headers, and `reads n` the state that the lookup of call `n` sees. -/
def evaluate (aead : Aead) (compile : Text → Option Program)
    (order : List (Text × Text) → List (Text × Text)) (reads : Nat → Option (State store Op))
    (c : Connector) : List Call × Except BrokerErr (List (Text × Bytes)) :=
  match c.config with
  | none => ([], .error .notHttp)
  | some http =>
    if http.baseUrl = [] then ([], .error .noBaseUrl)
    else
      evalConnectorHeaders (fun n name => resolveSecret aead c.scope name ((reads n).map (·.db)))
        compile (order http.headers) [] []

section tracking
variable {aead : Aead} {slugs : Slugs} {compile : Text → Option Program}
  {order : List (Text × Text) → List (Text × Text)} {reads : Nat → Option (State store Op)}
  {id : Id} {c : Connector}

theorem answered_evaluate : Answered
    (fun n name => resolveSecret aead c.scope name ((reads n).map (·.db)))
    (evaluate aead compile order reads c).1 := by
  unfold evaluate
  split
  · exact answered_nil
  · split_ifs
    · exact answered_nil
    · exact answered_evalConnectorHeaders _ _ answered_nil

/-- Each secret that is resolved is tracked for the connector, and is the one of its whole name. -/
def Covered (slugs : Slugs) (id : Id) (scope : Scope) (reads : Nat → Option (State store Op))
    (calls : List Call) : Prop :=
  ∀ n call secretId value, calls[n]? = some call → call.outcome = .ok (secretId, value) →
    ∃ st s, reads n = some st ∧ (id, secretId) ∈ refs st.db ∧ (secretId, s) ∈ secrets st.db ∧
      call.name = namePrefix slugs scope ++ "/secrets/".toList ++ s.slug

/- The same of the names alone: each is a literal of the config that the connector has by then. -/
def AskedByLiterals (id : Id) (reads : Nat → Option (State store Op)) (calls : List Call) : Prop :=
  ∀ n call secretId value, calls[n]? = some call → call.outcome = .ok (secretId, value) →
    ∃ st c, reads n = some st ∧ (id, c) ∈ connectors st.db ∧
      call.name ∈ extractSecretRefs c.config

/-- Each name of a secret that the headers of `config` can pass is a literal of `stored`. -/
def Literal (compile : Text → Option Program) (config stored : Config) : Prop :=
  ∀ http ∈ config, ∀ header ∈ http.headers, ∀ program, compile header.2 = some program →
    ∀ name slug, program.Passes name → parseSecretLeaf name = .ok slug →
      name ∈ extractSecretRefs stored

theorem passes_evaluate (horder : ∀ headers, (order headers).Perm headers) {call : Call}
    (h : call ∈ (evaluate aead compile order reads c).1) :
    ∃ http ∈ c.config, ∃ header ∈ http.headers, ∃ program, compile header.2 = some program ∧
      program.Passes call.name := by
  unfold evaluate at h
  split at h
  · cases h
  · rename_i http hconfig
    split_ifs at h
    · cases h
    · obtain hcall | ⟨header, hheader, hpasses⟩ := passes_evalConnectorHeaders h
      · cases hcall
      · exact ⟨http, hconfig, header, (horder _).mem_iff.mp hheader, hpasses⟩

/-- One lookup: what it finds is tracked if and only if it was asked for by a literal. -/
theorem tracked_iff {st : State store Op} (hst : Sound slugs st.db)
    (hscope : ∀ c', (id, c') ∈ connectors st.db → c'.scope = c.scope) {name : Text} {secretId : Id}
    {value : Bytes} (h : resolveSecret aead c.scope name (some st.db) = .ok (secretId, value)) :
    (∃ s, (id, secretId) ∈ refs st.db ∧ (secretId, s) ∈ secrets st.db ∧
      name = namePrefix slugs c.scope ++ "/secrets/".toList ++ s.slug) ↔
    ∃ c', (id, c') ∈ connectors st.db ∧ name ∈ extractSecretRefs c'.config := by
  obtain ⟨slug, db, s, hleaf, hdb, hs, hsscope, hsslug, -⟩ := resolveSecret_ok h
  cases hdb
  have hnone := hst.noDangling
  constructor
  · rintro ⟨s', href, hs', rfl⟩
    obtain ⟨c', hc'⟩ := hnone.owned _ _ href
    obtain ⟨s'', hs'', -, name', hname', hparse⟩ := (hnone.tracked id c' hc' secretId).mp href
    have heq := Option.some.inj ((mem_secrets.mp hs').symm.trans (mem_secrets.mp hs''))
    obtain rfl : s' = s'' := by injection heq
    obtain ⟨rfl, -⟩ := parseSecretRef_ok.mp hparse
    exact ⟨c', hc', by rwa [hscope c' hc'] at hname'⟩
  · rintro ⟨c', hc', hname⟩
    obtain ⟨slug', hparse, -⟩ := hnone.resolves id c' hc' name hname
    have hslug : slug' = slug := Except.ok.inj ((parseSecretLeaf_of_ref hparse).symm.trans hleaf)
    rw [hslug, ← hsslug] at hparse
    refine ⟨s, (hnone.tracked id c' hc' secretId).mpr ⟨s, hs, ?_, name, hname, hparse⟩, hs, ?_⟩
    · rw [hsscope, hscope c' hc']
    · rw [← hscope c' hc']
      exact (parseSecretRef_ok.mp hparse).1

end tracking

/-- What an evaluation resolves is tracked if and only if it was asked for by literals. -/
theorem covered_iff {aead : Aead} {slugs : Slugs} {db : Db store} (hdb : Sound slugs db)
    {st : State store Op} (h : Runs (step (code aead slugs)) (fun _ _ => True) (.rest db) st)
    {id : Id} {c : Connector} (hc : (id, c) ∈ connectors st.db)
    {reads : Nat → Option (State store Op)}
    (hreads : ∀ n st', reads n = some st' → Runs (step (code aead slugs)) (fun _ _ => True) st st')
    (compile : Text → Option Program) (order : List (Text × Text) → List (Text × Text)) :
    Covered slugs id c.scope reads (evaluate aead compile order reads c).1 ↔
      AskedByLiterals id reads (evaluate aead compile order reads c).1 := by
  have hok : st.Ok (contract slugs) := ok_of_runs hdb h
  have hlookup : ∀ n call secretId value,
      (evaluate aead compile order reads c).1[n]? = some call →
      call.outcome = .ok (secretId, value) → ∃ st', reads n = some st' ∧
        ((∃ s, (id, secretId) ∈ refs st'.db ∧ (secretId, s) ∈ secrets st'.db ∧
          call.name = namePrefix slugs c.scope ++ "/secrets/".toList ++ s.slug) ↔
        ∃ c', (id, c') ∈ connectors st'.db ∧ call.name ∈ extractSecretRefs c'.config) := by
    intro n call secretId value hcall hout
    have hresolve : resolveSecret aead c.scope call.name ((reads n).map (·.db)) =
        .ok (secretId, value) := (answered_evaluate n call hcall).symm.trans hout
    obtain ⟨_, _, _, _, hsome, _⟩ := resolveSecret_ok hresolve
    obtain ⟨st', hst', rfl⟩ := Option.map_eq_some_iff.mp hsome
    rw [hst'] at hresolve
    have hsound : Sound slugs st'.db := (ok_of_runs hdb (h.trans (hreads n st' hst'))).inv.1
    refine ⟨st', hst', tracked_iff hsound (fun c' hc' => ?_) hresolve⟩
    have hgrows : (guarded slugs).Grows st.db st'.db := Guarded.grows_of_runs hok contract_safe
      (fun _ _ _ => Guarded.meets_of_fit fun _ _ => trivial) (hreads n st' hst')
    have hstays : ConnectorStays _ _ := hgrows.stays (.connector id)
    rw [mem_connectors] at hc hc'
    obtain hgone | ⟨c'', hlive, hscope⟩ := hstays.live c hc
    · cases hgone.symm.trans hc'
    · cases hlive.symm.trans hc'
      exact hscope
  constructor
  · intro hcovered n call secretId value hcall hout
    obtain ⟨st', hst', hiff⟩ := hlookup n call secretId value hcall hout
    obtain ⟨st'', s, hst'', href, hs, hname⟩ := hcovered n call secretId value hcall hout
    cases hst'.symm.trans hst''
    obtain ⟨c', hc', hmem⟩ := hiff.mp ⟨s, href, hs, hname⟩
    exact ⟨st', c', hst', hc', hmem⟩
  · intro hliteral n call secretId value hcall hout
    obtain ⟨st', hst', hiff⟩ := hlookup n call secretId value hcall hout
    obtain ⟨st'', c', hst'', hc', hmem⟩ := hliteral n call secretId value hcall hout
    cases hst'.symm.trans hst''
    obtain ⟨s, href, hs, hname⟩ := hiff.mpr ⟨c', hc', hmem⟩
    exact ⟨st', s, hst', href, hs, hname⟩

/-- What an evaluation resolves is tracked, each secret under its whole name, in every run in which
the config that is stored at each lookup has all names that the headers can pass as literals. -/
theorem secrets_tracked {aead : Aead} {slugs : Slugs} {db : Db store} (hdb : Sound slugs db)
    {st : State store Op} (h : Runs (step (code aead slugs)) (fun _ _ => True) (.rest db) st)
    {id : Id} {c : Connector} (hc : (id, c) ∈ connectors st.db)
    {reads : Nat → Option (State store Op)}
    (hreads : ∀ n st', reads n = some st' → Runs (step (code aead slugs)) (fun _ _ => True) st st')
    {compile : Text → Option Program} {order : List (Text × Text) → List (Text × Text)}
    (horder : ∀ headers, (order headers).Perm headers)
    (hliteral : ∀ n st', reads n = some st' →
      ∃ c', (id, c') ∈ connectors st'.db ∧ Literal compile c.config c'.config) :
    Covered slugs id c.scope reads (evaluate aead compile order reads c).1 := by
  refine (covered_iff hdb h hc hreads compile order).mpr fun n call secretId value hcall hout => ?_
  have hresolve : resolveSecret aead c.scope call.name ((reads n).map (·.db)) =
      .ok (secretId, value) := (answered_evaluate n call hcall).symm.trans hout
  obtain ⟨slug, _, _, hleaf, hsome, _⟩ := resolveSecret_ok hresolve
  obtain ⟨st', hst', -⟩ := Option.map_eq_some_iff.mp hsome
  obtain ⟨c', hc', hnames⟩ := hliteral n st' hst'
  obtain ⟨http, hhttp, header, hheader, program, hcompile, hpasses⟩ :=
    passes_evaluate horder (List.mem_of_getElem? hcall)
  exact ⟨st', c', hst', hc', hnames http hhttp header hheader program hcompile _ slug hpasses hleaf⟩

/-- Each name that a program can pass stands in its header as a call of secret() on a literal. -/
theorem literal_of_calls {compile : Text → Option Program} {config : Config}
    (h : ∀ http ∈ config, ∀ header ∈ http.headers, ∀ program, compile header.2 = some program →
      ∀ name, program.Passes name → '"' ∉ name ∧ ')' ∉ name ∧
        ∃ before after, header.2 = before ++ (secretCall '"' name ++ after)) :
    Literal compile config config := by
  intro http hhttp header hheader program hcompile name slug hpasses hleaf
  obtain ⟨hquote, hparen, before, after, htext⟩ := h http hhttp header hheader program hcompile name
    hpasses
  have hne : name ≠ [] := by
    rintro rfl
    cases hleaf
  refine mem_extractSecretRefs.mpr ⟨http, hhttp, header, hheader, ?_⟩
  rw [htext]
  exact mem_findAllSecretRefs hne hquote hparen before after

/-! Calls on a literal -/

/- The characters that stand for themselves in a literal with the quotation marks `q`. -/
def plain (q c : Char) : Bool := c ≠ q && c ≠ Char.ofNat 92 && c ≠ '\n' && c ≠ '\r'

/-- What is assumed of CEL: a header that is one call of secret() on a literal, in quotation marks of
either kind, passes what stands in the literal. -/
def CelCalls (compile : Text → Option Program) : Prop :=
  ∀ q name, (q = '"' ∨ q = Char.ofNat 39) → (∀ c ∈ name, plain q c = true) →
    compile (secretCall q name) = some (.secret name .done)

/- A compiler of these headers alone. -/
def compileCall (expr : Text) : Option Program :=
  match expr.dropPrefix? "secret(".toList with
  | some (q :: quoted) =>
    let name := quoted.takeWhile (plain q)
    if (q = '"' ∨ q = Char.ofNat 39) ∧ quoted = name ++ [q, ')'] then some (.secret name .done)
    else none
  | _ => none

theorem celCalls_compileCall : CelCalls compileCall := by
  intro q name hq hname
  have hcall : (secretCall q name).dropPrefix? "secret(".toList = some (q :: (name ++ [q, ')'])) :=
    List.dropPrefix?_eq_some_iff.mpr ⟨_, rfl, beq_self_eq_true _⟩
  have htake : (name ++ [q, ')']).takeWhile (plain q) = name := by
    rw [List.takeWhile_append_of_pos hname]
    simp [plain]
  unfold compileCall
  rw [hcall]
  simp [htake, hq]

/-- A config whose headers are such calls in double quotation marks is literal. -/
theorem CelCalls.literal {compile : Text → Option Program} (hcel : CelCalls compile) {config : Config}
    (h : ∀ http ∈ config, ∀ header ∈ http.headers, ∃ name, header.2 = secretCall '"' name ∧
      (∀ c ∈ name, plain '"' c = true) ∧ ')' ∉ name) : Literal compile config config := by
  refine literal_of_calls fun http hhttp header hheader program hcompile passed hpasses => ?_
  obtain ⟨name, hcall, hname, hparen⟩ := h http hhttp header hheader
  rw [hcall, hcel '"' name (.inl rfl) hname] at hcompile
  obtain rfl := Option.some.inj hcompile
  cases hpasses with
  | here =>
    refine ⟨fun hquote => ?_, hparen, [], [], by rw [hcall, List.nil_append, List.append_nil]⟩
    exact absurd (hname '"' hquote) (by decide)
  | later _ hpasses => cases hpasses

def apiConnector (header : Text) : Connector :=
  ⟨acme, "api".toList, "Api", "", some ⟨"https://api".toList, [("X-Key".toList, header)]⟩, "", "{}",
    "e", 0⟩

theorem literal_keyHeader :
    Literal compileCall (apiConnector keyHeader).config (apiConnector keyHeader).config := by
  refine celCalls_compileCall.literal fun http hhttp header hheader =>
    ⟨"organizations/acme/secrets/key".toList, ?_, List.all_eq_true.mp (by decide), by decide⟩
  obtain rfl := Option.some.inj hhttp
  obtain rfl := List.mem_singleton.mp hheader
  decide

/- Between the read of the connector and the lookup, the key is given a new value. -/
def valueTrace : List (Label store Op) :=
  [.spawn (.updateSecret acme ⟨"organizations/acme/secrets/key".toList, ["value"], "", [8],
     .ok "{}", "", false⟩),
   .run 2, .told 2 (Ask.encrypt [8] (secretAAD 10)) (some 1), .run 2, .run 2, .run 2,
   .told 2 Ask.etag "f", .run 2, .run 2]

def valueState : State store Op :=
  (exec (step (code prefixAead acmeSlugs)) apiState valueTrace).get (by decide)

/-- The key of the connector is injected, and tracked. -/
theorem secrets_tracked_api :
    (evaluate prefixAead compileCall id (fun _ => some valueState) (apiConnector keyHeader)).1 =
        [⟨"organizations/acme/secrets/key".toList, .ok (10, [8])⟩] ∧
      Covered acmeSlugs 20 acme (fun _ => some valueState)
        (evaluate prefixAead compileCall id (fun _ => some valueState) (apiConnector keyHeader)).1 := by
  have hlater : Runs (step (code prefixAead acmeSlugs)) (fun _ _ => True) apiState valueState :=
    Runs.of_exec_free valueTrace (Option.some_get _).symm
  refine ⟨by decide, secrets_tracked sound_empty runs_apiState (by decide) ?_ List.Perm.refl ?_⟩
  · rintro n _ ⟨⟩
    exact hlater
  · rintro n _ ⟨⟩
    exact ⟨apiConnector keyHeader, by decide, literal_keyHeader⟩

/- The other quotation marks, around the name of another organization. -/
def otherHeader : Text := secretCall (Char.ofNat 39) "organizations/other/secrets/key".toList

def otherState : State store Op :=
  (exec (step (code prefixAead acmeSlugs)) (.rest ∅) (apiTrace otherHeader 4)).get (by decide)

/-- The broker resolves a secret that is not tracked, by the name of another organization. -/
theorem secrets_not_tracked :
    ¬ ∀ (aead : Aead) (slugs : Slugs) (compile : Text → Option Program), CelCalls compile →
      ∀ st : State store Op, Runs (step (code aead slugs)) (fun _ _ => True) (.rest ∅) st →
      ∀ id c, (id, c) ∈ connectors st.db →
        Covered slugs id c.scope (fun _ => some st)
          (evaluate aead compile (fun headers => headers) (fun _ => some st) c).1 := by
  intro h
  have hruns : Runs (step (code prefixAead acmeSlugs)) (fun _ _ => True) (.rest ∅) otherState :=
    Runs.of_exec_free (apiTrace otherHeader 4) (Option.some_get _).symm
  have hcovered := h prefixAead acmeSlugs compileCall celCalls_compileCall otherState hruns 20
    (apiConnector otherHeader) (by decide)
  obtain ⟨st, s, hst, href, -⟩ := hcovered 0
    ⟨"organizations/other/secrets/key".toList, .ok (10, [7])⟩ 10 [7] (by decide) rfl
  cases hst
  exact absurd href (by decide)

end Pivox.Connectors
