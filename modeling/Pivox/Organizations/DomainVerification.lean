import Pivox.Organizations.Grants

/-!
What verifies a domain: the states of its row over every run, and the DNS answers behind them.
-/

namespace Pivox.Organizations
open ReadCommitted Transition

inductive DomainOp where
  | createDomain (scope : RequestScope) (req : CreateDomainRequest)
  | verifyDomains
  | verifyDomain (args : VerifyDomainArgs)
  | deleteDomain (scope : RequestScope) (req : DeleteDomainRequest)

def domainCode : DomainOp → Prog store
  | .createDomain scope req => (createDomain scope req).run
  | .verifyDomains => verifyDomains.run
  | .verifyDomain args => (verifyDomain args).run
  | .deleteDomain scope req => (deleteDomain scope req).run

/- The columns of a domain that no statement writes after the insert. -/
def Domain.claim (d : Domain) : Id × String × String := (d.orgId, d.domain, d.verificationToken)

/-- What any writers leave of a domain: its claim, and its state once it is not PENDING. -/
structure DomainStays (old new : Option (Slot Domain)) : Prop where
  live : ∀ d, old = some (.live d) → new = some .gone ∨
    ∃ d', new = some (.live d') ∧ d'.claim = d.claim ∧ (d.state ≠ .pending → d'.state = d.state)
  gone : old = some .gone → new = some .gone

theorem DomainStays.refl (old : Option (Slot Domain)) : DomainStays old old where
  live d h := .inr ⟨d, h, rfl, fun _ => rfl⟩
  gone h := h

theorem DomainStays.trans {a b c : Option (Slot Domain)} (h : DomainStays a b)
    (h' : DomainStays b c) : DomainStays a c where
  live d ha := by
    obtain hb | ⟨d', hb, hclaim, hstate⟩ := h.live d ha
    · exact .inl (h'.gone hb)
    · obtain hc | ⟨d'', hc, hclaim', hstate'⟩ := h'.live d' hb
      · exact .inl hc
      · refine .inr ⟨d'', hc, hclaim'.trans hclaim, fun hd => ?_⟩
        have heq : d'.state = d.state := hstate hd
        rw [← heq] at hd ⊢
        exact hstate' hd
  gone ha := h'.gone (h.gone ha)

/- The tick has been told, for the domain's own host, records with the domain's own token. -/
def TokenFound (log : Log store DomainOp) (d : Domain) : Prop :=
  log.op = .verifyDomains ∧ ∃ records : List String,
    (.answered (Ask.lookupTXT (verifyHost d.domain)) (some records) : Event store) ∈ log.events ∧
    d.verificationToken ∈ records

theorem TokenFound.of_claim {log : Log store DomainOp} {d d' : Domain} (h : TokenFound log d)
    (hclaim : d.claim = d'.claim) : TokenFound log d' := by
  obtain ⟨hop, records, hmem, htoken⟩ := h
  simp only [Domain.claim, Prod.mk.injEq] at hclaim
  obtain ⟨-, hdomain, htok⟩ := hclaim
  exact ⟨hop, records, hdomain ▸ hmem, htok ▸ htoken⟩

theorem TokenFound.extends {log log' : Log store DomainOp} {d : Domain} (h : TokenFound log d)
    (hlog : log'.Extends log) : TokenFound log' d := by
  obtain ⟨hop, records, hmem, htoken⟩ := h
  exact ⟨hlog.op.trans hop, records, hlog.events hmem, htoken⟩

/-- How a session may change a domain: only the tick verifies, and only DeleteDomain removes. -/
structure DomainChange (log : Log store DomainOp) (old new : Option (Slot Domain)) : Prop where
  stays : DomainStays old new
  verified : ∀ d', new = some (.live d') → d'.state = .verified →
    ∃ d, old = some (.live d) ∧ (d.state = .verified ∨ d.state = .pending ∧ TokenFound log d)
  removed : ∀ d, old = some (.live d) → new = some .gone →
    ∃ scope req, log.op = .deleteDomain scope req
  unclaimed : log.op = .verifyDomains → old = none → new = none

theorem DomainChange.refl (log : Log store DomainOp) (old : Option (Slot Domain)) :
    DomainChange log old old where
  stays := .refl old
  verified d h hd := ⟨d, h, .inl hd⟩
  removed d h h' := by
    rw [h] at h'
    cases h'
  unclaimed _ h := h

theorem DomainChange.trans {log : Log store DomainOp} {a b c : Option (Slot Domain)}
    (h : DomainChange log a b) (h' : DomainChange log b c) : DomainChange log a c where
  stays := h.stays.trans h'.stays
  verified d'' hc hd'' := by
    obtain ⟨d', hb, hd' | ⟨hd', hfound⟩⟩ := h'.verified d'' hc hd''
    · exact h.verified d' hb hd'
    · obtain _ | d | _ := a
      · rw [h.unclaimed hfound.1 rfl] at hb
        cases hb
      · obtain hgone | ⟨d₁, hb₁, hclaim, hstate⟩ := h.stays.live d rfl
        · rw [hgone] at hb
          cases hb
        · obtain rfl : d₁ = d' := by
            rw [hb₁] at hb
            cases hb
            rfl
          refine ⟨d, rfl, .inr ⟨?_, hfound.of_claim hclaim⟩⟩
          by_contra hne
          exact hne ((hstate hne).symm.trans hd')
      · rw [h.stays.gone rfl] at hb
        cases hb
  removed d ha hc := by
    obtain hb | ⟨d', hb, -⟩ := h.stays.live d ha
    · exact h.removed d ha hb
    · exact h'.removed d' hb hc
  unclaimed hop ha := h'.unclaimed hop (h.unclaimed hop ha)

theorem DomainChange.extends {log log' : Log store DomainOp} {a b : Option (Slot Domain)}
    (h : DomainChange log a b) (hlog : log'.Extends log) : DomainChange log' a b where
  stays := h.stays
  verified d' hb hd' := by
    obtain ⟨d, ha, hd | ⟨hd, hfound⟩⟩ := h.verified d' hb hd'
    · exact ⟨d, ha, .inl hd⟩
    · exact ⟨d, ha, .inr ⟨hd, hfound.extends hlog⟩⟩
  removed d ha hb := by
    obtain ⟨scope, req, hop⟩ := h.removed d ha hb
    exact ⟨scope, req, hlog.op.trans hop⟩
  unclaimed hop := h.unclaimed (hlog.op.symm.trans hop)

theorem DomainChange.create {log : Log store DomainOp} (hop : log.op ≠ .verifyDomains)
    (p : CreateDomainParams) (now : Time) : DomainChange log none (some (.live (p.row now))) where
  stays := ⟨fun d h => (nomatch h), fun h => (nomatch h)⟩
  verified d' h hd' := by
    cases h
    cases hd'
  removed d h := by cases h
  unclaimed h := absurd h hop

theorem DomainChange.remove {log : Log store DomainOp} {scope : RequestScope}
    {req : DeleteDomainRequest} (hop : log.op = .deleteDomain scope req) (d : Domain) :
    DomainChange log (some (.live d)) (some .gone) where
  stays := ⟨fun _ _ => .inl rfl, fun _ => rfl⟩
  verified d' h := by cases h
  removed _ _ _ := ⟨scope, req, hop⟩
  unclaimed _ h := by cases h

theorem DomainChange.mark {log : Log store DomainOp} {d : Domain} (hd : d.state = .pending)
    {state : DomainState} (hfound : state = .verified → TokenFound log d)
    (verifiedTime : Option Time) (now : Time) :
    DomainChange log (some (.live d)) (some (.live (d.marked state verifiedTime now))) where
  stays := by
    refine ⟨fun d₁ h => ?_, fun h => (nomatch h)⟩
    cases h
    exact .inr ⟨_, rfl, rfl, fun hne => absurd hd hne⟩
  verified d' h hd' := by
    cases h
    exact ⟨d, rfl, .inr ⟨hd, hfound hd'⟩⟩
  removed _ _ h := by cases h
  unclaimed _ h := by cases h

/-- Every record list that DNS answers for the host of a PENDING domain is empty or has the domain's
own token. -/
def AnswersToken (db : Db store) : (q : Ask) → Answer q → Prop
  | .lookupTXT host, some (record :: records) => ∀ d ∈ domains db, d.2.state = .pending →
    verifyHost d.2.domain = host → d.2.verificationToken ∈ record :: records
  | _, _ => True

def domainContract : Rowwise store DomainOp where
  good _ _ := True
  change
    | log, .domain _, old, new => DomainChange log old new
    | _, _, _, _ => True
  stays
    | .domain _, old, new => DomainStays old new
    | _, _, _ => True
  allow _ _ _ := True
  accept := AnswersToken
  change_refl log k r := by
    cases k with
    | domain id => exact .refl log r
    | _ => trivial
  change_trans log k a b c h h' := by
    cases k with
    | domain id => exact DomainChange.trans h h'
    | _ => trivial
  change_mono log log' k a b hlog h := by
    cases k with
    | domain id => exact DomainChange.extends h hlog
    | _ => trivial
  stays_refl k r := by
    cases k with
    | domain id => exact .refl r
    | _ => trivial
  stays_trans k a b c h h' := by
    cases k with
    | domain id => exact DomainStays.trans h h'
    | _ => trivial
  stays_of_change log k a b h := by
    cases k with
    | domain id => exact DomainChange.stays h
    | _ => trivial

/-! CreateDomain, the worker of its operation, and DeleteDomain -/

theorem lawful_domain {op : DomainOp} (hop : op ≠ .verifyDomains) (id : Id) (stmt : DomainStmt)
    (h : Ordinary (.domain id) stmt) : domainContract.Lawful op (.domain id) stmt := by
  intro cur new _ hx _
  refine ⟨trivial, fun log hlog => ?_⟩
  have hne : log.op ≠ .verifyDomains := hlog ▸ hop
  change execDomain stmt cur = some new at hx
  change DomainChange log cur new
  cases stmt with
  | createDomain p now =>
    cases cur with
    | none =>
      cases hx
      exact .create hne p now
    | some _ => cases hx
  | getDomainByNameForUpdate domain orgId =>
    obtain _ | d | _ := cur
    · cases hx
    · simp only [execDomain] at hx
      split at hx
      · cases hx
        exact .refl _ _
      · cases hx
    · cases hx
  | markDomainVerified now => exact h.elim
  | markDomainFailed now =>
    obtain _ | d | _ := cur
    · cases hx
    · simp only [execDomain] at hx
      split at hx
      · rename_i hd
        cases hx
        exact .mark hd (fun hv => by cases hv) _ _
      · cases hx
    · cases hx
  | deleteDomain orgId => exact h.elim

theorem grants_domainContract {op : DomainOp} (hop : op ≠ .verifyDomains) :
    Grants domainContract op := by
  intro k stmt h
  cases k with
  | domain id => exact lawful_domain hop id stmt h
  | _ => exact fun _ _ _ _ _ => ⟨trivial, fun _ _ => trivial⟩

theorem grantsRemoval_deleteDomain (scope : RequestScope) (req : DeleteDomainRequest) :
    GrantsRemoval domainContract (.deleteDomain scope req) := by
  intro id orgId cur new _ hx _
  refine ⟨trivial, fun log hlog => ?_⟩
  change execDomain (.deleteDomain orgId) cur = some new at hx
  change DomainChange log cur new
  obtain _ | d | _ := cur
  · cases hx
  · simp only [execDomain] at hx
    split at hx
    · cases hx
      exact .remove hlog d
    · cases hx
  · cases hx

/-! The tick -/

variable {log : Log store DomainOp} {db : Db store}

/- A domain that was listed earlier in the tick: still there as listed, or removed since. -/
def Listed (db : Db store) (d : Id × Domain) : Prop :=
  DomainStays (some (.live d.2)) (db.lookup (Key.domain d.1))

theorem Listed.later {db' : Db store} {d : Id × Domain} (h : Listed db d)
    (hl : domainContract.contract.rely log db db') : Listed db' d :=
  DomainStays.trans h (hl (Key.domain d.1))

/-- The answer for a listed domain, put to the row that is PENDING when it is marked. -/
theorem token_of_answer {db' : Db store} {d : Id × Domain} {cur : Domain} {record : String}
    {records : List String} (h : Listed db d)
    (ha : AnswersToken db (.lookupTXT (verifyHost d.2.domain)) (some (record :: records)))
    (hl : DomainStays (db.lookup (Key.domain d.1)) (db'.lookup (Key.domain d.1)))
    (hcur : db'.lookup (Key.domain d.1) = some (.live cur)) (hpending : cur.state = .pending) :
    cur.domain = d.2.domain ∧ cur.verificationToken ∈ record :: records := by
  obtain hgone | ⟨d₁, hd₁, hclaim₁, -⟩ := h.live d.2 rfl
  · rw [hl.gone hgone] at hcur
    cases hcur
  · obtain hgone | ⟨d₂, hd₂, hclaim₂, hstate⟩ := hl.live d₁ hd₁
    · rw [hgone] at hcur
      cases hcur
    · obtain rfl : d₂ = cur := by
        rw [hd₂] at hcur
        cases hcur
        rfl
      have hpending₁ : d₁.state = .pending := by
        by_contra hne
        exact hne ((hstate hne).symm.trans hpending)
      simp only [Domain.claim, Prod.mk.injEq] at hclaim₁ hclaim₂
      obtain ⟨-, hdomain₁, -⟩ := hclaim₁
      obtain ⟨-, hdomain₂, htoken₂⟩ := hclaim₂
      refine ⟨hdomain₂.trans hdomain₁, ?_⟩
      rw [htoken₂]
      exact ha (d.1, d₁) (mem_domains.mpr hd₁) hpending₁ (by rw [hdomain₁])

theorem exec_markDomainVerified {now : Time} {cur new : Option (Slot Domain)}
    (h : execDomain (.markDomainVerified now) cur = some new) :
    ∃ d, cur = some (.live d) ∧ d.state = .pending ∧
      new = some (.live (d.marked .verified (some now) now)) := by
  obtain _ | d | _ := cur
  · cases h
  · simp only [execDomain] at h
    split at h
    · rename_i hd
      cases h
      exact ⟨d, rfl, hd, rfl⟩
    · cases h
  · cases h

/- What follows a round of the tick starts from any later rows. -/
abbrev Continues (log : Log store DomainOp) (db : Db store)
    (k : Except Err Unit → Prog store) : Prop :=
  ∀ r (log' : Log store DomainOp) db', log'.Extends log → domainContract.contract.rely log db db' →
    Safe domainContract.contract (k r) .idle ∅ log' db'

theorem safe_verifyPending {d : Id × Domain} {k : Except Err Unit → Prog store}
    (hop : log.op = .verifyDomains) (h : Listed db d) (hk : Continues log db k) :
    Safe domainContract.contract (verifyPending d k) .idle ∅ log db := by
  intro db₁ hl₁ records hrecords
  have hasked := log.extends_add
    (.answered (Ask.lookupTXT (verifyHost d.2.domain)) records : Event store)
  match records, hrecords, hasked with
  | none, _, hasked => exact hk _ _ _ hasked hl₁.rely
  | some [], _, hasked => exact hk _ _ _ hasked hl₁.rely
  | some (record :: records), hrecords, hasked =>
    intro db₂ hl₂ now _ db₃ hl₃
    let log₂ : Log store DomainOp := (log.add (.answered (Ask.lookupTXT (verifyHost d.2.domain))
      (some (record :: records)))).add (.answered Ask.now now)
    have hlog : log₂.Extends log := ⟨rfl, fun e he => .tail _ (hasked.events he)⟩
    have hrely : domainContract.contract.rely log db₁ db₃ :=
      domainContract.contract.rely_trans log _ _ _ hl₂.rely hl₃.rely
    have hthen : ∀ r db', domainContract.contract.rely log db₃ db' →
        Safe domainContract.contract (k r) .idle ∅ log₂ db' := fun r db' hdb' =>
      hk r log₂ db' hlog (domainContract.contract.rely_trans log _ _ _
        (domainContract.contract.rely_trans log _ _ _ hl₁.rely hrely) hdb')
    refine ⟨hthen _ _ fun _ => domainContract.stays_refl _ _, fun _ _ =>
      hthen _ _ fun _ => domainContract.stays_refl _ _, fun new hx _ => ⟨nofun, fun _ => ?_⟩⟩
    rw [overlay_empty] at hx
    obtain ⟨cur, hcur, hpending, rfl⟩ := exec_markDomainVerified hx
    obtain ⟨hdomain, htoken⟩ :=
      token_of_answer (h.later hl₁.rely) hrecords (hrely (Key.domain d.1)) hcur hpending
    have hfound : TokenFound log₂ cur := by
      refine ⟨hop, record :: records, ?_, htoken⟩
      rw [hdomain]
      exact .tail _ (.head _)
    have hguar : domainContract.contract.guar log₂ db₃
        (put db₃ (Key.domain d.1) (some (.live (cur.marked .verified (some now) now)))) := by
      refine Rowwise.guar_put hl₃.inv trivial ?_
      rw [hcur]
      exact DomainChange.mark hpending (fun _ => hfound) _ _
    have hstays := fun k => domainContract.stays_of_change _ _ _ _ (hguar.2 k)
    exact ⟨fun _ => hguar, hthen _ _ hstays, hthen _ _ hstays⟩

theorem safe_verifyDomains (db : Db store) :
    Safe domainContract.contract verifyDomains.run .idle ∅ (.start .verifyDomains) db := by
  intro db₁ hl₁
  refine ⟨trivial, fun _ _ => ?_⟩
  have hlisted : ∀ d ∈ answer .listPendingDomains db₁, Listed db₁ d := by
    intro d hd
    have hmem : d ∈ domains db₁ := List.mem_of_mem_filter (List.mem_of_mem_take hd)
    rw [Listed, mem_domains.mp hmem]
    exact .refl _
  have hround : ∀ (ds : List (Id × Domain)) (log : Log store DomainOp) (db : Db store),
      log.op = .verifyDomains → (∀ d ∈ ds, Listed db d) →
      Safe domainContract.contract (Script.forEach verifyPending ds fun _ => .done) .idle ∅
        log db := by
    intro ds
    induction ds with
    | nil => exact fun _ _ _ _ => trivial
    | cons d ds ih =>
      intro log db hop hds
      refine safe_verifyPending hop (hds d List.mem_cons_self) fun r log' db' hlog hrely => ?_
      cases r with
      | error e => trivial
      | ok _ =>
        exact ih log' db' (hlog.op.trans hop) fun d' hd' =>
          (hds d' (List.mem_cons_of_mem d hd')).later hrely
  exact hround _ _ _ rfl hlisted

theorem domainContract_keeps : domainContract.Keeps domainCode := by
  intro op db _
  cases op with
  | createDomain scope req =>
    exact (kept_createDomain (@grants_domainContract (.createDomain scope req) nofun) scope req).run db
  | verifyDomains => exact safe_verifyDomains db
  | verifyDomain args =>
    exact (kept_verifyDomain (@grants_domainContract (.verifyDomain args) nofun) args).run db
  | deleteDomain scope req =>
    exact (kept_deleteDomain (@grants_domainContract (.deleteDomain scope req) nofun)
      (grantsRemoval_deleteDomain scope req) scope req).run db

/-- Whatever DNS answers in the step, it answers with the tokens of the PENDING domains asked for. -/
def AnswersTokens (st : State store DomainOp) : Label store DomainOp → Prop
  | .act _ (.answer q a) => AnswersToken st.db q a
  | _ => True

instance (db : Db store) : (q : Ask) → (a : Answer q) → Decidable (AnswersToken db q a)
  | .lookupTXT _, some (_ :: _) => inferInstanceAs (Decidable (∀ d ∈ domains db, _ → _ → _))
  | .lookupTXT _, some [] => isTrue trivial
  | .lookupTXT _, none => isTrue trivial
  | .now, _ => isTrue trivial
  | .newId, _ => isTrue trivial
  | .generateVerificationToken, _ => isTrue trivial
  | .marshalResult _, _ => isTrue trivial
  | .marshalMetadata _, _ => isTrue trivial
  | .shuttingDown, _ => isTrue trivial
  | .insertJob, _ => isTrue trivial
  | .completeJob, _ => isTrue trivial
  | .pollTicks, _ => isTrue trivial

instance (st : State store DomainOp) : (l : Label store DomainOp) → Decidable (AnswersTokens st l)
  | .spawn _ => isTrue trivial
  | .act _ (.answer q a) => inferInstanceAs (Decidable (AnswersToken st.db q a))
  | .act _ .run => isTrue trivial
  | .act _ .fail => isTrue trivial
  | .act _ .lose => isTrue trivial
  | .act _ .retry => isTrue trivial
  | .act _ .crash => isTrue trivial

theorem AnswersTokens.meets {st : State store DomainOp} {l : Label store DomainOp}
    (h : AnswersTokens st l) : domainContract.Meets st l where
  allows _ _ _ _ _ _ _ _ _ _ := trivial
  accepts p q a hl := by
    subst hl
    exact h

/-- What a step may do to a domain: the tick verifies a PENDING one, told records with its token for
its host; and a domain that is not PENDING keeps its state, or is removed by DeleteDomain. -/
structure VerifiedByToken (st st' : State store DomainOp) (l : Label store DomainOp) (id : Id) :
    Prop where
  verified : ∀ d', st'.db.lookup (Key.domain id) = some (.live d') → d'.state = .verified →
    ∃ d, st.db.lookup (Key.domain id) = some (.live d) ∧ (d.state = .verified ∨
      d.state = .pending ∧ ∃ p s a, l = .act p a ∧ st.sessions[p]? = some s ∧ TokenFound s.log d)
  settled : ∀ d, st.db.lookup (Key.domain id) = some (.live d) → d.state ≠ .pending →
    (∃ d', st'.db.lookup (Key.domain id) = some (.live d') ∧ d'.state = d.state) ∨
    st'.db.lookup (Key.domain id) = some .gone ∧ ∃ p s a scope req, l = .act p a ∧
      st.sessions[p]? = some s ∧ s.log.op = .deleteDomain scope req

/-- While DNS answers with the domains' tokens, every step of every run verifies by token only. -/
theorem domain_verified_by_token {db : Db store} {st st' : State store DomainOp}
    {l : Label store DomainOp} (h : Runs (step domainCode) AnswersTokens (.rest db) st)
    (hl : AnswersTokens st l) (hs : step domainCode st l = some st') (id : Id) :
    VerifiedByToken st st' l id := by
  have hgood : domainContract.Good db := fun _ => trivial
  obtain heq | ⟨p, s, a, hact, hp, hchange⟩ := Rowwise.change_of_step hgood domainContract_keeps
    (fun _ _ h => h.meets) h hl hs (Key.domain id)
  · refine ⟨fun d' hd' hv => ⟨d', heq ▸ hd', .inl hv⟩, fun d hd _ => .inl ⟨d, heq ▸ hd, rfl⟩⟩
  · have hchange : DomainChange s.log (st.db.lookup (Key.domain id))
        (st'.db.lookup (Key.domain id)) := hchange
    refine ⟨fun d' hd' hv => ?_, fun d hd hne => ?_⟩
    · obtain ⟨d, hd, hv | ⟨hpending, hfound⟩⟩ := hchange.verified d' hd' hv
      · exact ⟨d, hd, .inl hv⟩
      · exact ⟨d, hd, .inr ⟨hpending, p, s, a, hact, hp, hfound⟩⟩
    · obtain hgone | ⟨d', hd', -, hstate⟩ := hchange.stays.live d hd
      · obtain ⟨scope, req, hop⟩ := hchange.removed d hd hgone
        exact .inr ⟨hgone, p, s, a, scope, req, hact, hp, hop⟩
      · exact .inl ⟨d', hd', hstate hne⟩

/- A domain is claimed, and a tick asks DNS for it: the token is there, or anything else. -/
def claimTrace : List (Label store DomainOp) :=
  [.spawn (.createDomain ⟨10, "acme", 5⟩ ⟨"acme.com", ""⟩),
   .told 0 Ask.generateVerificationToken (some "token"), .run 0, .run 0,
   .told 0 Ask.newId (1 : Nat), .told 0 Ask.now (100 : Nat), .run 0, .run 0,
   .spawn .verifyDomains, .run 1]

def tickTrace (record : String) : List (Label store DomainOp) :=
  [.told 1 (Ask.lookupTXT (verifyHost "acme.com")) (some [record]), .told 1 Ask.now (200 : Nat)]

def claimedState : State store DomainOp := (exec (step domainCode) (.rest ∅) claimTrace).get (by decide)

def foundState : State store DomainOp :=
  (exec (step domainCode) claimedState (tickTrace "token")).get (by decide)

def verifiedState : State store DomainOp := (step domainCode foundState (.run 1)).get (by decide)

def acmeDomain : Domain := (CreateDomainParams.mk 10 "acme.com" "token" (some 5)).row 100

theorem domain_verified_by_token_acme :
    verifiedState.db.lookup (Key.domain 1) = some (.live (acmeDomain.marked .verified (some 200) 200)) ∧
    VerifiedByToken foundState verifiedState (.run 1) 1 :=
  ⟨rfl, domain_verified_by_token
    ((Runs.of_exec claimTrace (Option.some_get _).symm (by decide)).trans
      (Runs.of_exec (tickTrace "token") (Option.some_get _).symm (by decide)))
    (by decide) (Option.some_get _).symm 1⟩

/- What the stub resolver answers to every question. -/
def stubState : State store DomainOp :=
  (exec (step domainCode) claimedState (tickTrace "stub-dns-verification-pass")).get (by decide)

def fakedState : State store DomainOp := (step domainCode stubState (.run 1)).get (by decide)

theorem domain_not_verified_by_token :
    ¬ ∀ (db : Db store) (st st' : State store DomainOp) (l : Label store DomainOp),
      Runs (step domainCode) (fun _ _ => True) (.rest db) st → step domainCode st l = some st' →
      ∀ id, VerifiedByToken st st' l id := by
  intro h
  have hclaim : Runs (step domainCode) (fun _ _ => True) (.rest ∅) claimedState :=
    Runs.of_exec_free claimTrace (Option.some_get _).symm
  have htick : Runs (step domainCode) (fun _ _ => True) claimedState stubState :=
    Runs.of_exec_free (tickTrace "stub-dns-verification-pass") (Option.some_get _).symm
  have hstep := h ∅ stubState fakedState (.run 1) (hclaim.trans htick) (Option.some_get _).symm 1
  obtain ⟨d, hd, hv | ⟨-, p, s, a, hl, hs, -, records, hmem, htoken⟩⟩ :=
    hstep.verified (acmeDomain.marked .verified (some 200) 200) rfl rfl
  · cases hd
    cases hv
  · cases hd
    cases hl
    cases hs
    obtain _ | ⟨_, _ | ⟨_, _ | ⟨_, hnil⟩⟩⟩ := hmem
    · exact absurd htoken (by decide)
    · cases hnil

end Pivox.Organizations
