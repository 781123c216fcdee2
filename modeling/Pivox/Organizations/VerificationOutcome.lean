import Pivox.Organizations.VerificationWorker

/-!
The outcome of a CreateDomain operation matches its domain, if nobody verifies or deletes the domain
between a worker's look at it and what the worker then writes.
-/

namespace Pivox.VerificationOutcome
open Organizations ReadCommitted Transition SsoGuard

variable {enc : Encoder} {db db' : Db store} {id id' : Id} {now : Time}

/-! What a worker knows -/

variable {w w' : Worker} {stage : Stage}

/-- What the domain is for a worker at its stage. -/
def Knows (db : Db store) (w : Worker) : Prop :=
  match w.stage with
  | .markFailed => ¬ Verified db w.args.domainId
  | .expiredMeta => Over db w.args.domainId
  | .failOp message => message = windowElapsed → Over db w.args.domainId
  | .verifiedMeta _ => Verified db w.args.domainId
  | .complete _ => Verified db w.args.domainId
  | _ => True

def Stage.completing : Stage → Bool
  | .verifiedMeta _ => true
  | .complete _ => true
  | _ => false

theorem Knows.change (h : Knows db w) (hover : Over db w.args.domainId → Over db' w.args.domainId)
    (hmark : w.stage = .markFailed → Verified db' w.args.domainId → Verified db w.args.domainId)
    (hcomplete : w.stage.completing = true → Verified db w.args.domainId →
      Verified db' w.args.domainId) : Knows db' w := by
  unfold Knows at h ⊢
  cases hstage : w.stage with
  | markFailed =>
    rw [hstage] at h
    exact fun hverified => h (hmark hstage hverified)
  | expiredMeta =>
    rw [hstage] at h
    exact hover h
  | failOp message =>
    rw [hstage] at h
    exact fun heq => hover (h heq)
  | verifiedMeta d =>
    rw [hstage] at h
    exact hcomplete (by rw [hstage]; rfl) h
  | complete d =>
    rw [hstage] at h
    exact hcomplete (by rw [hstage]; rfl) h
  | _ => trivial

/-- What most steps leave of the domains and the operations. -/
structure Kept (db db' : Db store) : Prop where
  domain : ∀ id, domainRow db id ≠ none → domainRow db' id ≠ none
  operation : ∀ id, operationRow db id ≠ none → operationRow db' id ≠ none
  staysOver : ∀ id, Over db id → Over db' id

theorem Kept.refl (db : Db store) : Kept db db := ⟨fun _ h => h, fun _ h => h, fun _ h => h⟩

theorem Kept.trans {db'' : Db store} (h : Kept db db') (h' : Kept db' db'') : Kept db db'' :=
  ⟨fun id hd => h'.domain id (h.domain id hd), fun id ho => h'.operation id (h.operation id ho),
    fun id ho => h'.staysOver id (h.staysOver id ho)⟩

theorem kept_update_domain (stmt : DomainStmt) : Kept db (update db (.domain id) stmt) where
  domain _ h := domainRow_update_ne_none h stmt
  operation id' h := by rwa [operationRow_update_domain]
  staysOver _ h := h.update stmt

theorem kept_update_operation (stmt : OperationStmt) :
    Kept db (update db (.operation id) stmt) where
  domain id' h := by rwa [domainRow_update_operation]
  operation _ h := operationRow_update_ne_none h stmt
  staysOver id' h := by rwa [Over, domainRow_update_operation]

theorem verified_update_operation (stmt : OperationStmt) :
    Verified (update db (.operation id') stmt) id ↔ Verified db id := by
  rw [Verified, Verified, domainRow_update_operation]

theorem updateMeta_cases (enc : Encoder) (w : Worker) (phase : CreateDomainPhase) (now : Time)
    (db : Db store) : updateMeta enc w phase now db = db ∨ ∃ json,
      enc.metadata (.createDomain phase w.args.resource "" (some now) w.attempts) = some json ∧
      updateMeta enc w phase now db =
        update db (.operation w.args.operationId) (.updateOperationMetadata json) := by
  unfold updateMeta
  split
  · exact .inl rfl
  · rename_i json hjson
    exact .inr ⟨json, hjson, rfl⟩

theorem kept_updateMeta (enc : Encoder) (w : Worker) (phase : CreateDomainPhase) (now : Time)
    (db : Db store) : Kept db (updateMeta enc w phase now db) ∧
      ∀ id, Verified (updateMeta enc w phase now db) id ↔ Verified db id := by
  obtain heq | ⟨json, -, heq⟩ := updateMeta_cases enc w phase now db
  · rw [heq]
    exact ⟨.refl db, fun _ => .rfl⟩
  · rw [heq]
    exact ⟨kept_update_operation _, fun _ => verified_update_operation _⟩

/-- A worker's step deletes nothing and verifies nothing. -/
theorem kept_of_work (h : work enc now db w = some (db', stage)) :
    Kept db db' ∧ ∀ id, Verified db' id ↔ Verified db id := by
  have hsame : Kept db db ∧ ∀ id, Verified db id ↔ Verified db id := ⟨.refl db, fun _ => .rfl⟩
  unfold work at h
  split at h
  · cases h
    exact hsame
  · split at h <;> cases h <;> exact hsame
  · split at h <;> cases h <;> exact hsame
  · cases h
    exact hsame
  · cases h
    exact ⟨kept_update_domain _, fun _ =>
      verified_update_iff (fun _ h => by cases h) fun _ h => by cases h⟩
  · cases h
    exact kept_updateMeta _ _ _ _ _
  · cases h
    exact kept_updateMeta _ _ _ _ _
  · cases h
    exact kept_updateMeta _ _ _ _ _
  · split at h
    · cases h
      exact hsame
    · cases h
      exact ⟨kept_update_operation _, fun _ => verified_update_operation _⟩
  · cases h
    exact ⟨kept_update_operation _, fun _ => verified_update_operation _⟩
  · cases h

/-- A worker goes on knowing what it needs to, if no domain has been verified behind its back when
its clock says that the window has elapsed. -/
theorem knows_of_work (hknows : Knows db w) (hrow : domainRow db w.args.domainId ≠ none)
    (hclock : w.stage = .clock → w.args.deadline < now → ¬ Verified db w.args.domainId)
    (h : work enc now db w = some (db', stage)) : Knows db' (w.next stage) := by
  unfold Knows at hknows
  unfold work at h
  split at h
  · cases h
    trivial
  · split at h
    · cases h
      trivial
    · cases h
      unfold Knows Worker.next
      grind -linarith
  · split at h
    · cases h
      exact fun heq => absurd heq (by decide)
    · rename_i d hd
      cases h
      have hlive := getDomainByID_some hd
      unfold Knows Worker.next afterLook
      cases hstate : d.state with
      | verified => exact ⟨d, hlive, hstate⟩
      | failed => exact fun _ => .inr ⟨d, hlive, hstate⟩
      | pending => trivial
  · rename_i hstage
    cases h
    by_cases hdeadline : w.args.deadline < now
    · simp only [if_pos hdeadline]
      exact hclock hstage hdeadline
    · simp only [if_neg hdeadline]
      trivial
  · rename_i hstage
    cases h
    rw [hstage] at hknows
    exact over_markDomainFailed hrow hknows
  · cases h
    trivial
  · rename_i hstage
    cases h
    rw [hstage] at hknows
    exact fun _ => (kept_updateMeta _ _ _ _ _).1.staysOver _ hknows
  · rename_i d hstage
    cases h
    rw [hstage] at hknows
    exact ((kept_updateMeta _ _ _ _ _).2 _).mpr hknows
  · split at h
    · cases h
      trivial
    · cases h
      trivial
  · cases h
    trivial
  · cases h

theorem reports_updateMeta {phase : CreateDomainPhase} (hdecodes : enc.Decodes)
    (h : Reports enc (updateMeta enc w phase now db) id) :
    Reports enc db id ∨ id = w.args.operationId ∧ phase = .expired := by
  obtain heq | ⟨json, hjson, heq⟩ := updateMeta_cases enc w phase now db
  · rw [heq] at h
    exact .inl h
  · rw [heq] at h
    refine (reports_update h).imp_right fun ⟨hid, htells⟩ => ⟨hid, ?_⟩
    obtain ⟨resource, token, time, attempts, hexpired⟩ := htells
    exact hdecodes _ _ _ _ _ _ _ _ _ _ _ hjson hexpired

/-- A worker reports that the window elapsed only of a domain that is FAILED or deleted. -/
theorem reports_of_work (hdecodes : enc.Decodes) (hknows : Knows db w)
    (h : work enc now db w = some (db', stage)) (hreports : Reports enc db' id) :
    Reports enc db id ∨ id = w.args.operationId ∧ Over db w.args.domainId := by
  unfold Knows at hknows
  unfold work at h
  split at h
  · cases h
    exact .inl hreports
  · split at h <;> cases h <;> exact .inl hreports
  · split at h <;> cases h <;> exact .inl hreports
  · cases h
    exact .inl hreports
  · cases h
    obtain ⟨o, ho, helapsed⟩ := hreports
    rw [operationRow_update_domain] at ho
    exact .inl ⟨o, ho, helapsed⟩
  · cases h
    refine (reports_updateMeta hdecodes hreports).imp_right fun ⟨_, hphase⟩ => ?_
    cases hphase
  · rename_i hstage
    cases h
    rw [hstage] at hknows
    exact (reports_updateMeta hdecodes hreports).imp_right fun ⟨hid, _⟩ => ⟨hid, hknows⟩
  · cases h
    refine (reports_updateMeta hdecodes hreports).imp_right fun ⟨_, hphase⟩ => ?_
    cases hphase
  · split at h
    · cases h
      exact .inl hreports
    · cases h
      exact (reports_update hreports).imp_right fun ⟨_, htells⟩ => htells.elim
  · rename_i message hstage
    cases h
    rw [hstage] at hknows
    exact (reports_update hreports).imp_right fun ⟨hid, htells⟩ => ⟨hid, hknows htells⟩
  · cases h

/-! DeleteDomain -/

def cancelAll (resource : String) (cancelled : List Id) (db : Db store) : Db store :=
  cancelled.foldl (cancelOne resource) db

theorem kept_cancelAll (resource : String) (cancelled : List Id) (db : Db store) :
    Kept db (cancelAll resource cancelled db) := by
  induction cancelled generalizing db with
  | nil => exact .refl db
  | cons operationId cancelled ih => exact (kept_update_operation _).trans (ih _)

theorem domainRow_cancelAll (resource : String) (cancelled : List Id) (db : Db store) :
    domainRow (cancelAll resource cancelled db) id = domainRow db id := by
  induction cancelled generalizing db with
  | nil => rfl
  | cons operationId cancelled ih => exact (ih _).trans (domainRow_update_operation _)

theorem reports_cancelAll {resource : String} {cancelled : List Id}
    (h : Reports enc (cancelAll resource cancelled db) id) : Reports enc db id := by
  induction cancelled generalizing db with
  | nil => exact h
  | cons operationId cancelled ih =>
    exact (reports_update (ih h)).resolve_right fun htells => htells.2.elim

theorem resultOf_cancelAll (resource : String) (cancelled : List Id) (db : Db store) :
    resultOf (cancelAll resource cancelled db) id = resultOf db id ∨
      resultOf (cancelAll resource cancelled db) id = none := by
  induction cancelled generalizing db with
  | nil => exact .inl rfl
  | cons operationId cancelled ih =>
    obtain hsame | hnone := ih (cancelOne resource db operationId)
    · rw [cancelAll, List.foldl_cons, ← cancelAll, hsame]
      exact resultOf_update _ fun _ h => by cases h
    · exact .inr hnone

variable {orgSlug : String} {etag : Option Etag} {cancelled : List Id}

theorem deleteDomain_cases (id : Id) (orgSlug : String) (etag : Option Etag) (cancelled : List Id)
    (db : Db store) : deleteDomain id orgSlug etag cancelled db = db ∨ ∃ resource orgId,
      deleteDomain id orgSlug etag cancelled db =
        update (cancelAll resource cancelled db) (.domain id) (.deleteDomain orgId) := by
  unfold deleteDomain
  split
  · split
    · exact .inl rfl
    · exact .inr ⟨_, _, rfl⟩
  · exact .inl rfl

theorem kept_deleteDomain : Kept db (deleteDomain id orgSlug etag cancelled db) := by
  obtain heq | ⟨resource, orgId, heq⟩ := deleteDomain_cases id orgSlug etag cancelled db
  · rw [heq]
    exact .refl db
  · rw [heq]
    exact (kept_cancelAll resource cancelled db).trans
      (kept_update_domain _)

theorem reports_deleteDomain (h : Reports enc (deleteDomain id orgSlug etag cancelled db) id') :
    Reports enc db id' := by
  obtain heq | ⟨resource, orgId, heq⟩ := deleteDomain_cases id orgSlug etag cancelled db
  · rwa [heq] at h
  · rw [heq] at h
    obtain ⟨o, ho, helapsed⟩ := h
    rw [operationRow_update_domain] at ho
    exact reports_cancelAll ⟨o, ho, helapsed⟩

theorem verified_deleteDomain_ne (h : id' ≠ id) :
    Verified (deleteDomain id orgSlug etag cancelled db) id' ↔ Verified db id' := by
  obtain heq | ⟨resource, orgId, heq⟩ := deleteDomain_cases id orgSlug etag cancelled db
  · rw [heq]
  · rw [heq, Verified, Verified, domainRow_update_ne _ h,
      domainRow_cancelAll]

theorem verified_of_deleteDomain (h : Verified (deleteDomain id orgSlug etag cancelled db) id') :
    Verified db id' := by
  by_cases hid : id' = id
  · subst hid
    obtain heq | ⟨resource, orgId, heq⟩ := deleteDomain_cases id' orgSlug etag cancelled db
    · rwa [heq] at h
    · rw [heq] at h
      obtain ⟨d, hd, hstate⟩ := h
      rw [domainRow_update,
        domainRow_cancelAll] at hd
      refine ⟨d, ?_, hstate⟩
      cases hrow : domainRow db id' with
      | none =>
        rw [hrow] at hd
        cases hd
      | some row =>
        rw [hrow] at hd
        cases row with
        | gone => cases hd
        | live d' =>
          simp only [execDomain] at hd
          split at hd
          · cases hd
          · exact hd
  · exact (verified_deleteDomain_ne hid).mp h

/-! The invariant -/

variable {st st' : State} {ev : Event} {p : ℕ}

/-- A job stands for one operation and one domain, and an operation reports that the window elapsed
only if its domain is FAILED or deleted. -/
structure Inv (enc : Encoder) (st : State) : Prop where
  distinct : ∀ a ∈ st.jobs, ∀ b ∈ st.jobs, a.operationId = b.operationId → a = b
  operation : ∀ a ∈ st.jobs, operationRow st.db a.operationId ≠ none
  domain : ∀ a ∈ st.jobs, domainRow st.db a.domainId ≠ none
  claim : ∀ c ∈ st.claims, domainRow st.db c.1 ≠ none
  worker : ∀ w ∈ st.workers, w.args ∈ st.jobs ∧ Knows st.db w
  report : ∀ a ∈ st.jobs, Reports enc st.db a.operationId → Over st.db a.domainId

def stateOf (db : Db store) (id : Id) : Option DomainState :=
  match domainRow db id with
  | some (.live d) => some d.state
  | _ => none

theorem stateOf_eq {state : DomainState} : stateOf db id = some state ↔
    ∃ d, domainRow db id = some (.live d) ∧ d.state = state := by
  unfold stateOf
  split <;> simp_all

/-- No tick verifies a domain between a look at it that ends its window and the MarkDomainFailed of
that worker, no such MarkDomainFailed fails, and no DeleteDomain removes a domain between a look
that finds it VERIFIED and the CompleteOperation of that worker. -/
def spared (st : State) : Event → Bool
  | .markDomainVerified id _ =>
    st.workers.all fun w => w.stage ≠ .markFailed || w.args.domainId ≠ id ||
      stateOf st.db id ≠ some .pending
  | .deleteDomain id orgSlug etag cancelled =>
    st.workers.all fun w => !w.stage.completing || w.args.domainId ≠ id ||
      stateOf (deleteDomain id orgSlug etag cancelled st.db) id = stateOf st.db id
  | .run p now =>
    st.workers[p]?.all fun w => w.stage ≠ .clock || w.args.deadline ≥ now ||
      stateOf st.db w.args.domainId ≠ some .verified
  | .fail p =>
    st.workers[p]?.all fun w => w.stage ≠ .markFailed ||
      stateOf st.db w.args.domainId ≠ some .pending
  | _ => true

abbrev Spared (st : State) (ev : Event) : Prop := spared st ev = true

theorem Inv.change (h : Inv enc st) (hkept : Kept st.db db')
    (hknows : ∀ w ∈ st.workers, Knows db' w) (hreports : ∀ a ∈ st.jobs, Reports enc db' a.operationId →
      Reports enc st.db a.operationId ∨ Over db' a.domainId) : Inv enc { st with db := db' } where
  distinct := h.distinct
  operation a ha := hkept.operation _ (h.operation a ha)
  domain a ha := hkept.domain _ (h.domain a ha)
  claim c hc := hkept.domain _ (h.claim c hc)
  worker w hw := ⟨(h.worker w hw).1, hknows w hw⟩
  report a ha hr := (hreports a ha hr).elim (fun hr => hkept.staysOver _ (h.report a ha hr)) id

theorem Inv.claims {claims : List (Id × CreateDomainParams)} (h : Inv enc st)
    (hclaims : ∀ c ∈ claims, domainRow st.db c.1 ≠ none) : Inv enc { st with claims } :=
  ⟨h.distinct, h.operation, h.domain, hclaims, h.worker, h.report⟩

theorem Inv.set (h : Inv enc st) (hp : st.workers[p]? = some w) (hargs : w'.args = w.args)
    (hknows : Knows st.db w') : Inv enc (st.set p w') where
  distinct := h.distinct
  operation := h.operation
  domain := h.domain
  claim := h.claim
  worker w₁ hw₁ := by
    obtain hmem | rfl := List.mem_or_eq_of_mem_set hw₁
    · exact h.worker w₁ hmem
    · refine ⟨?_, hknows⟩
      rw [hargs]
      exact (h.worker w (List.mem_of_getElem? hp)).1
  report := h.report

theorem Inv.createDomain {params : CreateDomainParams} (h : Inv enc st)
    (hnone : domainRow st.db id = none) : Inv enc { st with
      db := update st.db (.domain id) (.createDomain params now)
      claims := st.claims ++ [(id, params)] } := by
  have hverified : ∀ id', Verified (update st.db (.domain id) (.createDomain params now)) id' ↔
      Verified st.db id' := fun _ =>
    verified_update_iff (fun _ h => by cases h) fun _ h => by cases h
  have hchange : Inv enc
      { st with db := update st.db (.domain id) (.createDomain params now) } := by
    refine h.change (kept_update_domain _) (fun w hw => ?_) fun a ha hreports => ?_
    · exact (h.worker w hw).2.change (fun hover => hover.update _) (fun _ => (hverified _).mp)
        fun _ => (hverified _).mpr
    · obtain ⟨o, ho, helapsed⟩ := hreports
      rw [operationRow_update_domain] at ho
      exact .inl ⟨o, ho, helapsed⟩
  refine hchange.claims fun c hc => ?_
  obtain hmem | hnew := List.mem_append.mp hc
  · exact hchange.claim c hmem
  · obtain rfl := List.mem_singleton.mp hnew
    simp [domainRow_update, hnone, execDomain]

theorem Inv.newLro {p : CreateOperationParams} (h : Inv enc st) (hdecodes : enc.Decodes)
    (args : VerifyDomainArgs) (hdomain : domainRow st.db args.domainId ≠ none)
    (hnone : operationRow st.db args.operationId = none)
    (hmeta : ∃ resource token json, p.metadata = some json ∧
      enc.metadata (.createDomain .awaitingDns resource token none 0) = some json) :
    Inv enc { st with
      db := update st.db (.operation args.operationId) (.createOperation p now)
      jobs := st.jobs ++ [args] } := by
  have hkept : Kept st.db (update st.db (.operation args.operationId) (.createOperation p now)) :=
    kept_update_operation _
  have hfresh : ∀ a ∈ st.jobs, a.operationId ≠ args.operationId := by
    intro a ha heq
    rw [← heq] at hnone
    exact h.operation a ha hnone
  have hreports : ∀ id, Reports enc (update st.db (.operation args.operationId)
      (.createOperation p now)) id → Reports enc st.db id := by
    intro id hreports
    refine (reports_update hreports).resolve_right ?_
    rintro ⟨-, json, hjson, resource', token', time, attempts, hexpired⟩
    obtain ⟨resource, token, json', hjson', hawaiting⟩ := hmeta
    rw [hjson'] at hjson
    cases hjson
    cases hdecodes _ _ _ _ _ _ _ _ _ _ _ hawaiting hexpired
  refine ⟨fun a ha b hb heq => ?_, fun a ha => ?_, fun a ha => ?_, fun c hc => ?_, fun w hw => ?_,
    fun a ha hr => ?_⟩
  · obtain hmem | hnew := List.mem_append.mp ha <;> obtain hmem' | hnew' := List.mem_append.mp hb
    · exact h.distinct a hmem b hmem' heq
    · obtain rfl := List.mem_singleton.mp hnew'
      exact absurd heq (hfresh a hmem)
    · obtain rfl := List.mem_singleton.mp hnew
      exact absurd heq.symm (hfresh b hmem')
    · rw [List.mem_singleton.mp hnew, List.mem_singleton.mp hnew']
  · obtain hmem | hnew := List.mem_append.mp ha
    · exact hkept.operation _ (h.operation a hmem)
    · obtain rfl := List.mem_singleton.mp hnew
      simp [operationRow_update, hnone, execOperation]
  · obtain hmem | hnew := List.mem_append.mp ha
    · exact hkept.domain _ (h.domain a hmem)
    · obtain rfl := List.mem_singleton.mp hnew
      exact hkept.domain _ hdomain
  · exact hkept.domain _ (h.claim c hc)
  · obtain ⟨hargs, hknows⟩ := h.worker w hw
    exact ⟨List.mem_append_left _ hargs, hknows.change (hkept.staysOver _)
      (fun _ => (verified_update_operation _).mp) fun _ => (verified_update_operation _).mpr⟩
  · obtain hmem | hnew := List.mem_append.mp ha
    · exact hkept.staysOver _ (h.report a hmem (hreports _ hr))
    · obtain rfl := List.mem_singleton.mp hnew
      obtain ⟨o, ho, -⟩ := hreports _ hr
      rw [hnone] at ho
      cases ho

theorem Inv.markDomainVerified (h : Inv enc st) (hspared : Spared st (.markDomainVerified id now)) :
    Inv enc { st with db := update st.db (.domain id) (.markDomainVerified now) } := by
  refine h.change (kept_update_domain _) (fun w hw => ?_) fun a ha hreports => ?_
  · have hknows := (h.worker w hw).2
    refine hknows.change (fun hover => hover.update _) (fun hstage hverified => ?_)
      fun _ hverified => hverified.markDomainVerified
    have hw' := List.all_eq_true.mp hspared w hw
    by_cases hid : w.args.domainId = id
    · have hstate : stateOf st.db id ≠ some .pending := by simpa [hstage, hid] using hw'
      rw [hid] at hverified ⊢
      obtain ⟨d, hd, hd'⟩ := hverified
      rw [domainRow_update] at hd
      refine ⟨d, ?_, hd'⟩
      unfold stateOf at hstate
      cases hrow : domainRow st.db id with
      | none =>
        rw [hrow] at hd
        cases hd
      | some row =>
        rw [hrow] at hd hstate
        cases row with
        | gone => cases hd
        | live d₁ =>
          have hne : ¬ d₁.state = .pending := fun heq => hstate (congrArg some heq)
          simpa [execDomain, hne] using hd
    · rwa [Verified, domainRow_update_ne _ hid] at hverified
  · obtain ⟨o, ho, helapsed⟩ := hreports
    rw [operationRow_update_domain] at ho
    exact .inl ⟨o, ho, helapsed⟩

theorem Inv.deleteDomain (h : Inv enc st)
    (hspared : Spared st (.deleteDomain id orgSlug etag cancelled)) :
    Inv enc { st with db := VerificationOutcome.deleteDomain id orgSlug etag cancelled st.db } := by
  refine h.change kept_deleteDomain (fun w hw => ?_) fun a ha hr => .inl (reports_deleteDomain hr)
  have hknows := (h.worker w hw).2
  refine hknows.change (kept_deleteDomain.staysOver _) (fun _ => verified_of_deleteDomain)
    fun hcompleting hverified => ?_
  by_cases hid : w.args.domainId = id
  · have hw' := List.all_eq_true.mp hspared w hw
    rw [hid] at hverified ⊢
    have hstate : stateOf (VerificationOutcome.deleteDomain id orgSlug etag cancelled st.db) id =
        stateOf st.db id := by
      simpa [hcompleting, hid] using hw'
    exact stateOf_eq.mp (hstate.trans (stateOf_eq.mpr hverified))
  · exact (verified_deleteDomain_ne hid).mpr hverified

theorem Inv.run {stage : Stage} (h : Inv enc st) (hdecodes : enc.Decodes)
    (hp : st.workers[p]? = some w) (hspared : Spared st (.run p now))
    (hwork : work enc now st.db w = some (db', stage)) :
    Inv enc ({ st with db := db' }.set p (w.next stage)) := by
  obtain ⟨hargs, hknows⟩ := h.worker w (List.mem_of_getElem? hp)
  obtain ⟨hkept, hverified⟩ := kept_of_work hwork
  have hchange : Inv enc { st with db := db' } := by
    refine h.change hkept (fun w' hw' => ?_) fun a ha hreports => ?_
    · exact (h.worker w' hw').2.change (hkept.staysOver _) (fun _ => (hverified _).mp)
        fun _ => (hverified _).mpr
    · refine (reports_of_work hdecodes hknows hwork hreports).imp_right fun ⟨hid, hover⟩ => ?_
      rw [h.distinct a ha w.args hargs hid]
      exact hkept.staysOver _ hover
  have hrow := h.domain _ hargs
  refine hchange.set hp rfl (knows_of_work hknows hrow (fun hstage hdeadline => ?_) hwork)
  intro hdone
  have hstate := stateOf_eq.mpr hdone
  have hlate : ¬ w.args.deadline < now := by
    simpa [Spared, spared, hp, hstage, hstate] using hspared
  exact hlate hdeadline

theorem Inv.fail {stage : Stage} (h : Inv enc st) (hp : st.workers[p]? = some w)
    (hspared : Spared st (.fail p)) (herror : afterError w = some stage) :
    Inv enc (st.set p (w.goto stage)) := by
  obtain ⟨hargs, hknows⟩ := h.worker w (List.mem_of_getElem? hp)
  refine h.set hp rfl ?_
  unfold Knows at hknows
  unfold afterError at herror
  split at herror
  · cases herror
  · cases herror
  · rename_i hstage
    cases herror
    rw [hstage] at hknows
    have hstate : stateOf st.db w.args.domainId ≠ some .pending := by
      simpa [Spared, spared, hp, hstage] using hspared
    change Over st.db w.args.domainId
    cases hrow : domainRow st.db w.args.domainId with
    | none => exact absurd hrow (h.domain _ hargs)
    | some row =>
      cases row with
      | gone => exact .inl hrow
      | live d =>
        cases hd : d.state with
        | pending => exact absurd (stateOf_eq.mpr ⟨d, hrow, hd⟩) hstate
        | verified => exact absurd ⟨d, hrow, hd⟩ hknows
        | failed => exact .inr ⟨d, hrow, hd⟩
  · cases herror
    trivial
  · rename_i hstage
    cases herror
    rw [hstage] at hknows
    exact fun _ => hknows
  · rename_i d hstage
    cases herror
    rw [hstage] at hknows
    exact hknows
  · cases herror
  · cases herror
    trivial

theorem Inv.start {args : VerifyDomainArgs} (h : Inv enc st) (hargs : args ∈ st.jobs) :
    Inv enc { st with workers := st.workers ++ [⟨args, 1, .getOperation⟩] } where
  distinct := h.distinct
  operation := h.operation
  domain := h.domain
  claim := h.claim
  worker w hw := by
    obtain hmem | hnew := List.mem_append.mp hw
    · exact h.worker w hmem
    · rw [List.mem_singleton.mp hnew]
      exact ⟨hargs, trivial⟩
  report := h.report

theorem Inv.step (h : Inv enc st) (hdecodes : enc.Decodes) (hspared : Spared st ev)
    (hstep : VerificationOutcome.step enc st ev = some st') : Inv enc st' := by
  cases ev with
  | createDomain id params now =>
    simp only [VerificationOutcome.step] at hstep
    split at hstep
    · cases hstep
    · split at hstep
      · rename_i hnone
        cases hstep
        exact h.createDomain hnone
      · cases hstep
  | newLro i orgSlug operationId deadline now =>
    simp only [VerificationOutcome.step] at hstep
    split at hstep
    · rename_i id params hclaim hnone
      have hclaims : ∀ c ∈ st.claims.eraseIdx i, domainRow st.db c.1 ≠ none := fun c hc =>
        h.claim c (List.mem_of_mem_eraseIdx hc)
      split at hstep
      · cases hstep
        exact h.claims hclaims
      · rename_i json hjson
        cases hstep
        exact (h.claims hclaims).newLro hdecodes
          ⟨operationId, id, params.orgId, orgSlug, _, deadline⟩
          (h.claim _ (List.mem_of_getElem? hclaim)) hnone ⟨_, _, json, rfl, hjson⟩
    · cases hstep
  | markDomainVerified id now =>
    cases hstep
    exact h.markDomainVerified hspared
  | deleteDomain id orgSlug etag cancelled =>
    cases hstep
    exact h.deleteDomain hspared
  | start j =>
    obtain ⟨args, hargs, rfl⟩ := Option.map_eq_some_iff.mp hstep
    exact h.start (List.mem_of_getElem? hargs)
  | run p now =>
    simp only [VerificationOutcome.step] at hstep
    split at hstep
    · cases hstep
    · rename_i w hp
      obtain ⟨⟨db', stage⟩, hwork, rfl⟩ := Option.map_eq_some_iff.mp hstep
      exact h.run hdecodes hp hspared hwork
  | fail p =>
    simp only [VerificationOutcome.step] at hstep
    split at hstep
    · cases hstep
    · rename_i w hp
      obtain ⟨stage, herror, rfl⟩ := Option.map_eq_some_iff.mp hstep
      exact h.fail hp hspared herror
  | stop p =>
    obtain ⟨w, hp, rfl⟩ := Option.map_eq_some_iff.mp hstep
    exact h.set hp rfl trivial

theorem inv_init (enc : Encoder) : Inv enc .init where
  distinct _ ha := by cases ha
  operation _ ha := by cases ha
  domain _ ha := by cases ha
  claim _ hc := by cases hc
  worker _ hw := by cases hw
  report _ ha := by cases ha

theorem inv_of_runs (hdecodes : enc.Decodes) (h : Runs (step enc) Spared .init st) : Inv enc st :=
  h.invariant (inv_init enc) fun _ _ _ hinv hspared hstep => hinv.step hdecodes hspared hstep

/-! Outcomes -/

theorem over_of_step (hstep : step enc st ev = some st') (h : Over st.db id) : Over st'.db id := by
  cases ev with
  | createDomain id params now =>
    simp only [step] at hstep
    split at hstep
    · cases hstep
    · split at hstep
      · cases hstep
        exact h.update _
      · cases hstep
  | newLro i orgSlug operationId deadline now =>
    simp only [step] at hstep
    split at hstep
    · split at hstep
      · cases hstep
        exact h
      · cases hstep
        exact (kept_update_operation _).staysOver _ h
    · cases hstep
  | markDomainVerified id now =>
    cases hstep
    exact h.update _
  | deleteDomain id orgSlug etag cancelled =>
    cases hstep
    exact kept_deleteDomain.staysOver _ h
  | start j =>
    obtain ⟨args, -, rfl⟩ := Option.map_eq_some_iff.mp hstep
    exact h
  | run p now =>
    simp only [step] at hstep
    split at hstep
    · cases hstep
    · obtain ⟨⟨db', stage⟩, hwork, rfl⟩ := Option.map_eq_some_iff.mp hstep
      exact (kept_of_work hwork).1.staysOver _ h
  | fail p =>
    simp only [step] at hstep
    split at hstep
    · cases hstep
    · obtain ⟨stage, -, rfl⟩ := Option.map_eq_some_iff.mp hstep
      exact h
  | stop p =>
    obtain ⟨w, -, rfl⟩ := Option.map_eq_some_iff.mp hstep
    exact h

/-- The step completes the operation with success. -/
def Completes (st st' : State) (operationId : Id) : Prop :=
  resultOf st'.db operationId ≠ none ∧ resultOf st'.db operationId ≠ resultOf st.db operationId

theorem resultOf_update_domain (stmt : DomainStmt) :
    resultOf (update db (.domain id') stmt) id = resultOf db id := by
  rw [resultOf, operationRow_update_domain, resultOf]

theorem resultOf_updateMeta (enc : Encoder) (w : Worker) (phase : CreateDomainPhase) (now : Time) :
    resultOf (updateMeta enc w phase now db) id = resultOf db id ∨
      resultOf (updateMeta enc w phase now db) id = none := by
  obtain heq | ⟨json, -, heq⟩ := updateMeta_cases enc w phase now db
  · rw [heq]
    exact .inl rfl
  · rw [heq]
    exact resultOf_update _ fun _ h => by cases h

/-- Only a worker that has found its domain VERIFIED sets the result of its operation. -/
theorem completing_of_work (h : work enc now db w = some (db', stage)) :
    resultOf db' id = resultOf db id ∨ resultOf db' id = none ∨
      id = w.args.operationId ∧ ∃ d, w.stage = .complete d := by
  unfold work at h
  split at h
  · cases h
    exact .inl rfl
  · split at h <;> cases h <;> exact .inl rfl
  · split at h <;> cases h <;> exact .inl rfl
  · cases h
    exact .inl rfl
  · cases h
    exact .inl (resultOf_update_domain _)
  · cases h
    exact (resultOf_updateMeta _ _ _ _).imp_right .inl
  · cases h
    exact (resultOf_updateMeta _ _ _ _).imp_right .inl
  · cases h
    exact (resultOf_updateMeta _ _ _ _).imp_right .inl
  · rename_i d hstage
    split at h
    · cases h
      exact .inl rfl
    · cases h
      by_cases hid : id = w.args.operationId
      · exact .inr (.inr ⟨hid, d, hstage⟩)
      · rw [resultOf, operationRow_update_ne _ hid]
        exact .inl rfl
  · cases h
    exact (resultOf_update _ fun _ h => by cases h).imp_right .inl
  · cases h

theorem Inv.verified_of_completes {a : VerifyDomainArgs} (h : Inv enc st) (ha : a ∈ st.jobs)
    (hstep : VerificationOutcome.step enc st ev = some st')
    (hcompletes : Completes st st' a.operationId) : Verified st'.db a.domainId := by
  obtain ⟨hsome, hnew⟩ := hcompletes
  have habsurd : (resultOf st'.db a.operationId = resultOf st.db a.operationId ∨
      resultOf st'.db a.operationId = none) → Verified st'.db a.domainId := fun h =>
    (h.elim hnew hsome).elim
  cases ev with
  | createDomain id params now =>
    simp only [VerificationOutcome.step] at hstep
    split at hstep
    · cases hstep
    · split at hstep
      · cases hstep
        exact habsurd (.inl (resultOf_update_domain _))
      · cases hstep
  | newLro i orgSlug operationId deadline now =>
    simp only [VerificationOutcome.step] at hstep
    split at hstep
    · split at hstep
      · cases hstep
        exact habsurd (.inl rfl)
      · cases hstep
        exact habsurd (resultOf_update _ fun _ h => by cases h)
    · cases hstep
  | markDomainVerified id now =>
    cases hstep
    exact habsurd (.inl (resultOf_update_domain _))
  | deleteDomain id orgSlug etag cancelled =>
    cases hstep
    refine habsurd ?_
    obtain heq | ⟨resource, orgId, heq⟩ := deleteDomain_cases id orgSlug etag cancelled st.db
    · rw [heq]
      exact .inl rfl
    · rw [heq, resultOf_update_domain]
      exact resultOf_cancelAll _ _ _
  | start j =>
    obtain ⟨args, -, rfl⟩ := Option.map_eq_some_iff.mp hstep
    exact habsurd (.inl rfl)
  | run p now =>
    simp only [VerificationOutcome.step] at hstep
    split at hstep
    · cases hstep
    · rename_i w hp
      obtain ⟨⟨db', stage⟩, hwork, rfl⟩ := Option.map_eq_some_iff.mp hstep
      obtain hsame | hnone | ⟨hid, d, hstage⟩ := @completing_of_work _ _ _ a.operationId _ _ _ hwork
      · exact habsurd (.inl hsame)
      · exact habsurd (.inr hnone)
      · obtain ⟨hargs, hknows⟩ := h.worker w (List.mem_of_getElem? hp)
        rw [h.distinct a ha w.args hargs hid]
        unfold Knows at hknows
        rw [hstage] at hknows
        exact ((kept_of_work hwork).2 _).mpr hknows
  | fail p =>
    simp only [VerificationOutcome.step] at hstep
    split at hstep
    · cases hstep
    · obtain ⟨stage, -, rfl⟩ := Option.map_eq_some_iff.mp hstep
      exact habsurd (.inl rfl)
  | stop p =>
    obtain ⟨w, -, rfl⟩ := Option.map_eq_some_iff.mp hstep
    exact habsurd (.inl rfl)

/-- The outcome of the operation of a job matches its domain: whatever happens next. -/
structure Matches (enc : Encoder) (st : State) (a : VerifyDomainArgs) : Prop where
  completed : ∀ ev st', step enc st ev = some st' → Completes st st' a.operationId →
    Verified st'.db a.domainId
  expired : Reports enc st.db a.operationId →
    ∀ st', Runs (step enc) (fun _ _ => True) st st' → Over st'.db a.domainId
  verified : ∀ st', Runs (step enc) (fun _ _ => True) st st' → Verified st'.db a.domainId →
    ¬ Reports enc st.db a.operationId

theorem operation_matches_domain {a : VerifyDomainArgs} (hdecodes : enc.Decodes)
    (h : Runs (step enc) Spared .init st) (ha : a ∈ st.jobs) : Matches enc st a := by
  have hinv := inv_of_runs hdecodes h
  have hexpired : Reports enc st.db a.operationId →
      ∀ st', Runs (step enc) (fun _ _ => True) st st' → Over st'.db a.domainId := by
    intro hreports st' hruns
    exact hruns.invariant (I := fun t => Over t.db a.domainId) (hinv.report a ha hreports)
      fun _ _ _ hover _ hstep => over_of_step hstep hover
  exact ⟨fun ev st' hstep hcompletes => hinv.verified_of_completes ha hstep hcompletes, hexpired,
    fun st' hruns hverified hreports => (hexpired hreports st' hruns).not_verified hverified⟩

def acmeResource : String := "organizations/acme/domains/acme.com"

def awaitingJson : Json :=
  "\x7b\"phase\":\"AWAITING_DNS\",\"domain\":\"organizations/acme/domains/acme.com\"," ++
    "\"verificationToken\":\"token\"\x7d"

def expiredJson : Json :=
  "\x7b\"phase\":\"EXPIRED\",\"domain\":\"organizations/acme/domains/acme.com\"," ++
    "\"lastCheckTime\":\"1970-01-01T00:11:40Z\",\"attemptCount\":1\x7d"

/- The JSON of the two metadata of the traces below. -/
def acmeEncoder : Encoder where
  metadata m :=
    if m = .createDomain .awaitingDns acmeResource "token" none 0 then some awaitingJson
    else if m = .createDomain .expired acmeResource "" (some 700) 1 then some expiredJson
    else none
  result _ := none

theorem acmeEncoder_decodes : acmeEncoder.Decodes := by
  have hne : awaitingJson ≠ expiredJson := by decide
  intro phase phase' resource resource' token token' time time' attempts attempts' json h h'
  simp only [acmeEncoder] at h h'
  split at h
  · split at h'
    · simp_all
    · split at h' <;> simp_all
  · split at h
    · split at h'
      · simp_all
      · split at h' <;> simp_all
    · cases h

/- A worker finds the domain PENDING past its deadline. -/
def elapsedTrace : List Event :=
  [.createDomain 1 ⟨10, "acme.com", "token", none⟩ 100, .newLro 0 "acme" 7 500 100, .start 0,
   .run 0 700, .run 0 700, .run 0 700]

def elapsedState : State :=
  (exec (step acmeEncoder) .init (elapsedTrace ++ [Event.run 0 700, .run 0 700, .run 0 700])).get rfl

def acmeJob : VerifyDomainArgs := ⟨7, 1, 10, "acme", acmeResource, 500⟩

theorem operation_matches_domain_acme : Matches acmeEncoder elapsedState acmeJob :=
  operation_matches_domain acmeEncoder_decodes
    (Runs.of_exec (elapsedTrace ++ [Event.run 0 700, .run 0 700, .run 0 700]) (Option.some_get _).symm
      (by decide)) (List.mem_singleton.mpr rfl)

/- A tick verifies the domain before the worker's MarkDomainFailed, which then finds nothing. -/
def racedState : State :=
  (exec (step acmeEncoder) .init (elapsedTrace ++
    [Event.markDomainVerified 1 700, .run 0 700, .run 0 700, .run 0 700])).get rfl

theorem elapsed_while_verified : ¬ ∀ (enc : Encoder) (st : State) (a : VerifyDomainArgs),
    enc.Decodes → Runs (step enc) (fun _ _ => True) .init st → a ∈ st.jobs → Matches enc st a := by
  intro h
  have hmatches := h acmeEncoder racedState acmeJob acmeEncoder_decodes
    (Runs.of_exec_free (elapsedTrace ++
      [Event.markDomainVerified 1 700, .run 0 700, .run 0 700, .run 0 700]) (Option.some_get _).symm)
    (List.mem_singleton.mpr rfl)
  refine hmatches.verified racedState (.refl _) ⟨_, rfl, rfl⟩ ⟨_, rfl, .inl rfl⟩

end Pivox.VerificationOutcome
