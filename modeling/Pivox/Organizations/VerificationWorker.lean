import Pivox.Organizations.SsoGuard

/-!
The operation of a CreateDomain and its domain: the workers that poll for the outcome statement by
statement, the ticks that verify and the requests that delete, in any order; and what each statement
leaves of the two rows.
-/

namespace Pivox.VerificationOutcome
open Organizations ReadCommitted Transition SsoGuard

/- protojson, of the metadata and of the result of an operation. -/
structure Encoder where
  metadata : Metadata → Option Json
  result : Payload → Option Json

def windowElapsed : String := "domain verification window elapsed without successful DNS check"

/-- What a worker does next: `waiting` is for its ticker, `clock` is the reading of the clock that
follows a look at a PENDING domain. -/
inductive Stage where
  | waiting
  | getOperation
  | getDomainByID
  | clock
  | markFailed
  | awaitingMeta
  | expiredMeta
  | verifiedMeta (d : Domain)
  | complete (d : Domain)
  | failOp (message : String)
  | over
  deriving DecidableEq

structure Worker where
  args : VerifyDomainArgs
  attempts : ℕ
  stage : Stage

def Worker.goto (w : Worker) (stage : Stage) : Worker := { w with stage }

def operationRow (db : Db store) (id : Id) : Option (Slot Operation) := db.lookup (Key.operation id)

/- A metadata that does not marshal is not written. -/
def updateMeta (enc : Encoder) (w : Worker) (phase : CreateDomainPhase) (now : Time)
    (db : Db store) : Db store :=
  match enc.metadata (.createDomain phase w.args.resource "" (some now) w.attempts) with
  | none => db
  | some json => update db (.operation w.args.operationId) (.updateOperationMetadata json)

def afterLook (d : Domain) : Stage :=
  match d.state with
  | .verified => .verifiedMeta d
  | .failed => .failOp ("domain " ++ d.domain.quote ++ " verification failed")
  | .pending => .clock

/-- The worker's next statement, or its next reading of the clock. -/
def work (enc : Encoder) (now : Time) (db : Db store) (w : Worker) : Option (Db store × Stage) :=
  match w.stage with
  | .waiting => some (db, .getOperation)
  | .getOperation =>
    match answer (.getOperation w.args.operationId) db with
    | none => some (db, .over)
    | some op => some (db, if op.done then .over else .getDomainByID)
  | .getDomainByID =>
    match answer (.getDomainByID w.args.domainId w.args.orgId) db with
    | none => some (db, .failOp "domain row was deleted; verification cancelled")
    | some d => some (db, afterLook d)
  | .clock => some (db, if w.args.deadline < now then .markFailed else .awaitingMeta)
  | .markFailed => some (update db (.domain w.args.domainId) (.markDomainFailed now), .expiredMeta)
  | .awaitingMeta => some (updateMeta enc w .awaitingDns now db, .waiting)
  | .expiredMeta => some (updateMeta enc w .expired now db, .failOp windowElapsed)
  | .verifiedMeta d => some (updateMeta enc w .verified now db, .complete d)
  | .complete d =>
    match enc.result (.domain d w.args.orgSlug) with
    | none => some (db, .over)
    | some json => some (update db (.operation w.args.operationId) (.completeOperation json), .over)
  | .failOp message =>
    some (update db (.operation w.args.operationId)
      (.failOperation codeFailedPrecondition message), .over)
  | .over => none

/- Where a worker goes on when its statement fails: a failed MarkDomainFailed is logged, as is a
   failed update of the metadata. -/
def afterError (w : Worker) : Option Stage :=
  match w.stage with
  | .waiting => none
  | .clock => none
  | .markFailed => some .expiredMeta
  | .awaitingMeta => some .waiting
  | .expiredMeta => some (.failOp windowElapsed)
  | .verifiedMeta d => some (.complete d)
  | .over => none
  | _ => some .over

/- The CreateDomains that have inserted their row and not yet their operation, and the jobs of
   those that have. -/
structure State where
  db : Db store
  claims : List (Id × CreateDomainParams)
  jobs : List VerifyDomainArgs
  workers : List Worker

def State.init : State := ⟨∅, [], [], []⟩

inductive Event where
  | createDomain (id : Id) (params : CreateDomainParams) (now : Time)
  | newLro (i : ℕ) (orgSlug : String) (operationId : Id) (deadline now : Time)
  | markDomainVerified (id : Id) (now : Time)
  | deleteDomain (id : Id) (orgSlug : String) (etag : Option Etag) (cancelled : List Id)
  | start (j : ℕ)
  | run (p : ℕ) (now : Time)
  | fail (p : ℕ)
  | stop (p : ℕ)

def domainResource (orgSlug domain : String) : String :=
  "organizations/" ++ orgSlug ++ "/domains/" ++ domain

def cancelOne (resource : String) (db : Db store) (operationId : Id) : Db store :=
  update db (.operation operationId) (.cancelDomainOpsForDomain resource)

/-- A DeleteDomain that its SSO guard lets pass, at its COMMIT: its locks have kept the others off
the domain and off the operations that it has found running. -/
def deleteDomain (id : Id) (orgSlug : String) (etag : Option Etag) (cancelled : List Id)
    (db : Db store) : Db store :=
  match domainRow db id with
  | some (.live d) =>
    if etag ≠ none ∧ etag ≠ some d.etag then db
    else update (cancelled.foldl (cancelOne (domainResource orgSlug d.domain)) db) (.domain id)
      (.deleteDomain d.orgId)
  | _ => db

def State.set (st : State) (p : ℕ) (w : Worker) : State :=
  { st with workers := st.workers.set p w }

/- The attempts count the looks: a look begins when the ticker fires. -/
def Worker.next (w : Worker) (stage : Stage) : Worker :=
  { w with attempts := if w.stage = .waiting then w.attempts + 1 else w.attempts, stage }

def step (enc : Encoder) (st : State) : Event → Option State
  | .createDomain id params now =>
    if answer (.domainClaimed params.domain) st.db then none
    else
      match domainRow st.db id with
      | none => some { st with
          db := update st.db (.domain id) (.createDomain params now)
          claims := st.claims ++ [(id, params)] }
      | some _ => none
  | .newLro i orgSlug operationId deadline now =>
    match st.claims[i]?, operationRow st.db operationId with
    | some (id, params), none =>
      let resource := domainResource orgSlug params.domain
      let claims := st.claims.eraseIdx i
      match enc.metadata (.createDomain .awaitingDns resource params.verificationToken none 0) with
      | none => some { st with claims }
      | some json => some { st with
          db := update st.db (.operation operationId)
            (.createOperation ⟨resource, some json, some params.orgId, none, params.createdBy⟩ now)
          claims
          jobs := st.jobs ++ [⟨operationId, id, params.orgId, orgSlug, resource, deadline⟩] }
    | _, _ => none
  | .markDomainVerified id now =>
    some { st with db := update st.db (.domain id) (.markDomainVerified now) }
  | .deleteDomain id orgSlug etag cancelled =>
    some { st with db := deleteDomain id orgSlug etag cancelled st.db }
  | .start j =>
    st.jobs[j]?.map fun args => { st with workers := st.workers ++ [⟨args, 1, .getOperation⟩] }
  | .run p now =>
    match st.workers[p]? with
    | none => none
    | some w => (work enc now st.db w).map fun r => { st with db := r.1 }.set p (w.next r.2)
  | .fail p =>
    match st.workers[p]? with
    | none => none
    | some w => (afterError w).map fun stage => st.set p (w.goto stage)
  | .stop p => st.workers[p]?.map fun w => st.set p (w.goto .over)

/-! Domains -/

def Verified (db : Db store) (id : Id) : Prop :=
  ∃ d, domainRow db id = some (.live d) ∧ d.state = .verified

/- FAILED or deleted. -/
def Over (db : Db store) (id : Id) : Prop :=
  domainRow db id = some .gone ∨ ∃ d, domainRow db id = some (.live d) ∧ d.state = .failed

variable {enc : Encoder} {db db' : Db store} {id id' : Id} {now : Time}

theorem Over.not_verified (h : Over db id) : ¬ Verified db id := by
  rintro ⟨d, hd, hstate⟩
  obtain hgone | ⟨d', hd', hstate'⟩ := h
  · rw [hgone] at hd
    cases hd
  · rw [hd', Option.some.injEq, Slot.live.injEq] at hd
    rw [hd, hstate] at hstate'
    cases hstate'

theorem domainRow_update (stmt : DomainStmt) :
    domainRow (update db (.domain id) stmt) id =
      (execDomain stmt (domainRow db id)).getD (domainRow db id) := by
  cases hexec : execDomain stmt (domainRow db id) with
  | none =>
    obtain heq | ⟨new, hnew, -⟩ := @update_cases store db (.domain id) stmt
    · rw [heq]
      rfl
    · have hmiss : store.exec (.domain id) stmt (db.lookup (.domain id)) = none := hexec
      rw [hmiss] at hnew
      cases hnew
  | some new =>
    have hupdate := @update_of_exec store db (.domain id) stmt new hexec
    rw [hupdate]
    exact lookup_put db (.domain id) new

theorem domainRow_update_operation (stmt : OperationStmt) :
    domainRow (update db (.operation id') stmt) id = domainRow db id := by
  have hne : Key.domain id ≠ .operation id' := by simp
  obtain heq | ⟨new, -, heq⟩ := @update_cases store db (.operation id') stmt
  · rw [heq]
  · rw [heq]
    exact lookup_put_ne db new hne

/-- FAILED and deleted are final: no statement leaves them. -/
theorem Over.update (h : Over db id) (stmt : DomainStmt) :
    Over (ReadCommitted.update db (.domain id') stmt) id := by
  by_cases hid : id = id'
  · subst hid
    rw [Over, domainRow_update]
    obtain hgone | ⟨d, hd, hstate⟩ := h
    · rw [hgone]
      cases stmt <;> exact .inl rfl
    · rw [hd]
      cases stmt with
      | createDomain params now => exact .inr ⟨d, rfl, hstate⟩
      | getDomainByNameForUpdate domain orgId =>
        refine .inr ⟨d, ?_, hstate⟩
        simp only [execDomain]
        split <;> rfl
      | markDomainVerified now => exact .inr ⟨d, by simp [execDomain, hstate], hstate⟩
      | markDomainFailed now => exact .inr ⟨d, by simp [execDomain, hstate], hstate⟩
      | deleteDomain orgId =>
        simp only [execDomain]
        split
        · exact .inl rfl
        · exact .inr ⟨d, rfl, hstate⟩
  · rw [Over, domainRow_update_ne stmt hid]
    exact h

theorem domainRow_update_ne_none (h : domainRow db id ≠ none) (stmt : DomainStmt) :
    domainRow (update db (.domain id') stmt) id ≠ none := by
  by_cases hid : id = id'
  · subst hid
    rw [domainRow_update]
    cases hrow : domainRow db id with
    | none => exact absurd hrow h
    | some row =>
      cases row with
      | gone => cases stmt <;> simp [execDomain]
      | live d =>
        cases stmt <;> simp only [execDomain] <;> grind -linarith
  · rwa [domainRow_update_ne stmt hid]

/-- Only MarkDomainVerified verifies, and only a deletion takes a verified domain away. -/
theorem verified_update_iff {stmt : DomainStmt} (hverify : ∀ now, stmt ≠ .markDomainVerified now)
    (hdelete : ∀ orgId, stmt ≠ .deleteDomain orgId) :
    Verified (update db (.domain id') stmt) id ↔ Verified db id := by
  by_cases hid : id = id'
  · subst hid
    rw [Verified, Verified, domainRow_update]
    cases hrow : domainRow db id with
    | none =>
      cases stmt with
      | createDomain params now => simp [execDomain, CreateDomainParams.row]
      | _ => simp [execDomain]
    | some row =>
      cases row with
      | gone => cases stmt <;> simp [execDomain]
      | live d =>
        cases stmt with
        | createDomain params now => simp [execDomain]
        | getDomainByNameForUpdate domain orgId =>
          simp only [execDomain]
          split <;> rfl
        | markDomainVerified now => exact absurd rfl (hverify now)
        | markDomainFailed now =>
          simp only [execDomain]
          split
          · rename_i hpending
            simp [Domain.marked, hpending]
          · rfl
        | deleteDomain orgId => exact absurd rfl (hdelete orgId)
  · rw [Verified, Verified, domainRow_update_ne stmt hid]

theorem Verified.markDomainVerified (h : Verified db id) :
    Verified (update db (.domain id') (.markDomainVerified now)) id := by
  by_cases hid : id = id'
  · subst hid
    obtain ⟨d, hd, hstate⟩ := h
    refine ⟨d, ?_, hstate⟩
    rw [domainRow_update, hd]
    simp [execDomain, hstate]
  · rwa [Verified, domainRow_update_ne _ hid]

theorem over_markDomainFailed (hrow : domainRow db id ≠ none) (h : ¬ Verified db id) :
    Over (update db (.domain id) (.markDomainFailed now)) id := by
  rw [Over, domainRow_update]
  cases hcur : domainRow db id with
  | none => exact absurd hcur hrow
  | some row =>
    cases row with
    | gone => exact .inl rfl
    | live d =>
      cases hstate : d.state with
      | pending =>
        exact .inr ⟨d.marked .failed d.verifiedTime now, by simp [execDomain, hstate], rfl⟩
      | failed => exact .inr ⟨d, by simp [execDomain, hstate], hstate⟩
      | verified => exact absurd ⟨d, hcur, hstate⟩ h

theorem getDomainByID_some {orgId : Id} {d : Domain}
    (h : answer (.getDomainByID id orgId) db = some d) : domainRow db id = some (.live d) := by
  obtain ⟨⟨id₁, d₁⟩, hfind, hd⟩ := Option.map_eq_some_iff.mp h
  have hmem := mem_domains.mp (List.mem_of_find?_eq_some hfind)
  have hid := List.find?_some hfind
  simp only [Bool.and_eq_true, decide_eq_true_eq] at hid
  rw [← hid.1, ← show d₁ = d from hd]
  exact hmem

/-! Operations -/

def Expired (enc : Encoder) (json : Json) : Prop :=
  ∃ resource token lastCheckTime attempts,
    enc.metadata (.createDomain .expired resource token lastCheckTime attempts) = some json

/- Clients can tell the phase from the JSON. -/
def Encoder.Decodes (enc : Encoder) : Prop :=
  ∀ phase phase' resource resource' token token' time time' attempts attempts' json,
    enc.metadata (.createDomain phase resource token time attempts) = some json →
    enc.metadata (.createDomain phase' resource' token' time' attempts') = some json →
    phase = phase'

/-- The operation reports that the window elapsed, by its error or by its phase. -/
def Elapsed (enc : Encoder) (o : Operation) : Prop :=
  o.errorMessage = some windowElapsed ∨ ∃ json, o.metadata = some json ∧ Expired enc json

def Reports (enc : Encoder) (db : Db store) (id : Id) : Prop :=
  ∃ o, operationRow db id = some (.live o) ∧ Elapsed enc o

def resultOf (db : Db store) (id : Id) : Option Json :=
  match operationRow db id with
  | some (.live o) => o.result
  | _ => none

/- The statements that make an operation report so. -/
def Tells (enc : Encoder) : OperationStmt → Prop
  | .createOperation p _ => ∃ json, p.metadata = some json ∧ Expired enc json
  | .failOperation _ message => message = windowElapsed
  | .updateOperationMetadata json => Expired enc json
  | _ => False

theorem operationRow_update (stmt : OperationStmt) :
    operationRow (update db (.operation id) stmt) id =
      (execOperation stmt (operationRow db id)).getD (operationRow db id) := by
  cases hexec : execOperation stmt (operationRow db id) with
  | none =>
    obtain heq | ⟨new, hnew, -⟩ := @update_cases store db (.operation id) stmt
    · rw [heq]
      rfl
    · have hmiss : store.exec (.operation id) stmt (db.lookup (.operation id)) = none := hexec
      rw [hmiss] at hnew
      cases hnew
  | some new =>
    have hupdate := @update_of_exec store db (.operation id) stmt new hexec
    rw [hupdate]
    exact lookup_put db (.operation id) new

theorem operationRow_update_ne (stmt : OperationStmt) (h : id ≠ id') :
    operationRow (update db (.operation id') stmt) id = operationRow db id := by
  have hne : Key.operation id ≠ .operation id' := by simpa using h
  obtain heq | ⟨new, -, heq⟩ := @update_cases store db (.operation id') stmt
  · rw [heq]
  · rw [heq]
    exact lookup_put_ne db new hne

theorem operationRow_update_domain (stmt : DomainStmt) :
    operationRow (update db (.domain id') stmt) id = operationRow db id := by
  have hne : Key.operation id ≠ .domain id' := by simp
  obtain heq | ⟨new, -, heq⟩ := @update_cases store db (.domain id') stmt
  · rw [heq]
  · rw [heq]
    exact lookup_put_ne db new hne

theorem operationRow_update_ne_none (h : operationRow db id ≠ none) (stmt : OperationStmt) :
    operationRow (update db (.operation id') stmt) id ≠ none := by
  by_cases hid : id = id'
  · subst hid
    rw [operationRow_update]
    cases hrow : operationRow db id with
    | none => exact absurd hrow h
    | some row =>
      cases row with
      | gone => cases stmt <;> simp [execOperation]
      | live o => cases stmt <;> simp only [execOperation] <;> grind -linarith
  · rwa [operationRow_update_ne stmt hid]

theorem Elapsed.of_failed {o : Operation} {code : ℕ} {message : String}
    (hne : message ≠ windowElapsed) (h : Elapsed enc (o.failed code message)) : Elapsed enc o := by
  obtain hmessage | hmeta := h
  · exact absurd (Option.some.inj hmessage) hne
  · exact .inr hmeta

/-- A statement leaves a row that reports only if the row did so before or the statement tells. -/
theorem Elapsed.of_exec {stmt : OperationStmt} {o o' : Operation}
    (hexec : execOperation stmt (some (.live o)) = some (some (.live o')))
    (h : Elapsed enc o') : Elapsed enc o ∨ Tells enc stmt := by
  cases stmt with
  | createOperation p now => cases hexec
  | completeOperation result =>
    cases hexec
    exact .inl h
  | failOperation code message =>
    cases hexec
    obtain hmessage | hmeta := h
    · exact .inr (Option.some.inj hmessage)
    · exact .inl (.inr hmeta)
  | updateOperationMetadata json =>
    cases hexec
    obtain hmessage | ⟨json', hjson, hexpired⟩ := h
    · exact .inl (.inl hmessage)
    · cases hjson
      exact .inr hexpired
  | cancelOperation =>
    simp only [execOperation] at hexec
    split at hexec <;> cases hexec
    exact .inl (h.of_failed (by decide))
  | cancelRunningOpsForOrg orgId =>
    simp only [execOperation] at hexec
    split at hexec <;> cases hexec
    exact .inl (h.of_failed (by decide))
  | cancelDomainOpsForDomain resource =>
    simp only [execOperation] at hexec
    split at hexec <;> cases hexec
    exact .inl (h.of_failed (by decide))
  | deleteOperation => cases hexec
  | deleteExpiredOperations now =>
    simp only [execOperation] at hexec
    split at hexec <;> cases hexec
  | orgPurged orgId =>
    simp only [execOperation] at hexec
    split at hexec <;> cases hexec
    exact .inl h
  | spacePurged spaceId =>
    simp only [execOperation] at hexec
    split at hexec <;> cases hexec
    exact .inl h

theorem reports_update {stmt : OperationStmt}
    (h : Reports enc (update db (.operation id') stmt) id) :
    Reports enc db id ∨ id = id' ∧ Tells enc stmt := by
  by_cases hid : id = id'
  · subst hid
    obtain ⟨o', ho', hreports⟩ := h
    rw [operationRow_update] at ho'
    cases hexec : execOperation stmt (operationRow db id) with
    | none =>
      rw [hexec] at ho'
      exact .inl ⟨o', ho', hreports⟩
    | some new =>
      rw [hexec] at ho'
      cases (show new = some (.live o') from ho')
      cases hrow : operationRow db id with
      | none =>
        rw [hrow] at hexec
        cases stmt <;> cases hexec
        obtain hmessage | hmeta := hreports
        · cases hmessage
        · exact .inr ⟨rfl, hmeta⟩
      | some row =>
        rw [hrow] at hexec
        cases row with
        | gone => cases stmt <;> cases hexec
        | live o => exact (hreports.of_exec hexec).imp (fun h => ⟨o, hrow, h⟩) fun h => ⟨rfl, h⟩
  · rw [Reports, operationRow_update_ne stmt hid] at h
    exact .inl h

/-- Only CompleteOperation sets a result. -/
theorem resultOf_update (stmt : OperationStmt) (h : ∀ json, stmt ≠ .completeOperation json) :
    resultOf (update db (.operation id') stmt) id = resultOf db id ∨
      resultOf (update db (.operation id') stmt) id = none := by
  by_cases hid : id = id'
  · subst hid
    rw [resultOf, operationRow_update, resultOf]
    cases hrow : operationRow db id with
    | none => cases stmt <;> exact .inr rfl
    | some row =>
      cases row with
      | gone => cases stmt <;> exact .inr rfl
      | live o =>
        cases stmt with
        | completeOperation json => exact absurd rfl (h json)
        | createOperation p now => exact .inl rfl
        | failOperation code message => exact .inl rfl
        | updateOperationMetadata json => exact .inl rfl
        | deleteOperation => exact .inr rfl
        | _ =>
          simp only [execOperation]
          grind -linarith [Operation.failed]
  · rw [resultOf, operationRow_update_ne stmt hid]
    exact .inl rfl

end Pivox.VerificationOutcome
