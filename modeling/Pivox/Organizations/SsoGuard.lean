import Pivox.Organizations.Domains
import Pivox.Organizations.Owners
import Pivox.ReadCommitted.Update

/-!
The SSO config of an organization against the deletion of its domains: the transactions of
DeleteDomain statement by statement, the statements that verify or fail a domain, and the upserts of
UpdateSsoConfig, in any order at READ COMMITTED.
-/

namespace Pivox.SsoGuard
open Organizations ReadCommitted Transition

/- The request of a DeleteDomain that got past the parser, with the organization it is about. -/
structure Deletion where
  orgId : Id
  domain : String
  etag : Option Etag
  deriving DecidableEq

/-- Where the transaction of a DeleteDomain is: at the lookup of its domain and the lock on what the
lookup found, at the lock on the SSO config, at the count, at the DELETE, at the COMMIT. `row` is the
domain as it was locked, and `locked` whether the guard has locked a config. -/
inductive Stage where
  | lookup
  | lock (id : Id)
  | guard (id : Id) (row : Domain)
  | count (id : Id) (row : Domain)
  | delete (id : Id) (row : Domain) (locked : Bool)
  | commit (id : Id) (row : Domain) (locked : Bool)
  deriving DecidableEq

inductive Session where
  | deleteDomain (d : Deletion) (stage : Stage)
  | updateSsoConfig (orgId : Id) (enabled : Bool)
  | done
  deriving DecidableEq

/- The rows that a session has locked. -/
def Session.locks (k : Key) : Session → Bool
  | .deleteDomain d stage =>
    match stage with
    | .lookup => false
    | .lock _ => false
    | .guard id _ => k = .domain id
    | .count id _ => k = .domain id || k = .ssoConfig d.orgId
    | .delete id _ locked => k = .domain id || locked && k = .ssoConfig d.orgId
    | .commit id _ locked => k = .domain id || locked && k = .ssoConfig d.orgId
  | _ => false

def ssoConfig (db : Db store) (orgId : Id) : Option SsoConfig := db.lookup (Key.ssoConfig orgId)

def domainRow (db : Db store) (id : Id) : Option (Slot Domain) := db.lookup (Key.domain id)

def upsertSsoConfig (orgId : Id) (enabled : Bool) (db : Db store) : Db store :=
  put db (.ssoConfig orgId) (some { enabled })

/- The next statement of a DeleteDomain; `busy` are the rows that other sessions have locked. A
   request that is turned down ends, and so does one for a domain that is gone. -/
def nextStage (db : Db store) (busy : Key → Bool) (d : Deletion) : Stage → Option (Session × Db store)
  | .lookup =>
    match answer (.getDomainByName d.domain d.orgId) db with
    | none => some (.done, db)
    | some (id, _) => some (.deleteDomain d (.lock id), db)
  | .lock id =>
    match execDomain (.getDomainByNameForUpdate d.domain d.orgId) (domainRow db id) with
    | some (some (.live row)) =>
      if busy (.domain id) then none
      else if d.etag ≠ none ∧ d.etag ≠ some row.etag then some (.done, db)
      else if row.state = .verified then some (.deleteDomain d (.guard id row), db)
      else some (.deleteDomain d (.delete id row false), db)
    | _ => some (.done, db)
  | .guard id row =>
    match ssoConfig db d.orgId with
    | none => some (.deleteDomain d (.delete id row false), db)
    | some sso =>
      if busy (.ssoConfig d.orgId) then none
      else if sso.enabled then some (.deleteDomain d (.count id row), db)
      else some (.deleteDomain d (.delete id row true), db)
  | .count id row =>
    if answer (.countVerifiedDomainsByOrg d.orgId) db ≤ 1 then some (.done, db)
    else some (.deleteDomain d (.delete id row true), db)
  | .delete id row locked => some (.deleteDomain d (.commit id row locked), db)
  | .commit id _ _ => some (.done, update db (.domain id) (.deleteDomain d.orgId))

def nextStatement (db : Db store) (busy : Key → Bool) : Session → Option (Session × Db store)
  | .deleteDomain d stage => nextStage db busy d stage
  | .updateSsoConfig orgId enabled =>
    if busy (.ssoConfig orgId) then none else some (.done, upsertSsoConfig orgId enabled db)
  | .done => none

structure State where
  db : Db store
  sessions : List Session

def State.rest (db : Db store) : State := ⟨db, []⟩

inductive Event where
  | createDomain (id : Id) (params : CreateDomainParams) (now : Time)
  | markDomainVerified (id : Id) (now : Time)
  | markDomainFailed (id : Id) (now : Time)
  | deleteDomain (d : Deletion)
  | updateSsoConfig (orgId : Id) (enabled : Bool)
  | run (p : ℕ)
  | abort (p : ℕ)

def State.busy (st : State) (k : Key) : Bool := st.sessions.any (Session.locks k)

/- Locked by another session than `p`. -/
def State.busyFor (st : State) (p : ℕ) (k : Key) : Bool :=
  (st.sessions.eraseIdx p).any (Session.locks k)

/- A statement of its own on a domain waits for whoever has locked it. -/
def State.mark (st : State) (id : Id) (stmt : DomainStmt) : Option State :=
  if st.busy (.domain id) then none else some { st with db := update st.db (.domain id) stmt }

def step (st : State) : Event → Option State
  | .createDomain id params now =>
    if answer (.domainClaimed params.domain) st.db then none
    else st.mark id (.createDomain params now)
  | .markDomainVerified id now => st.mark id (.markDomainVerified now)
  | .markDomainFailed id now => st.mark id (.markDomainFailed now)
  | .deleteDomain d => some { st with sessions := st.sessions ++ [.deleteDomain d .lookup] }
  | .updateSsoConfig orgId enabled =>
    some { st with sessions := st.sessions ++ [.updateSsoConfig orgId enabled] }
  | .run p =>
    match st.sessions[p]? with
    | none => none
    | some s =>
      (nextStatement st.db (st.busyFor p) s).map fun r => ⟨r.2, st.sessions.set p r.1⟩
  | .abort p => some { st with sessions := st.sessions.set p .done }

/-! Verified domains -/

def VerifiedIn (db : Db store) (orgId id : Id) : Prop :=
  ∃ d, domainRow db id = some (.live d) ∧ d.orgId = orgId ∧ d.state = .verified

def SsoEnabled (db : Db store) (orgId : Id) : Prop := ssoConfig db orgId = some { enabled := true }

variable {db : Db store} {orgId id id' : Id} {k : Key}

theorem domains_nodup (db : Db store) : (domains db).Nodup := by
  refine nodup_collected (fun r => ⟨.domain r.1, .live r.2⟩) fun e r h => ?_
  split at h <;> cases h
  rfl

/-- A count above one finds another domain than a given one. -/
theorem exists_other_verified (h : ¬ answer (.countVerifiedDomainsByOrg orgId) db ≤ 1) (id : Id) :
    ∃ id' ≠ id, VerifiedIn db orgId id' := by
  by_contra hnone
  refine h ?_
  rw [answer, List.countP_eq_length_filter]
  have honly : ∀ r ∈ (domains db).filter fun r => r.2.orgId = orgId && r.2.state = .verified,
      r.1 = id ∧ domainRow db r.1 = some (.live r.2) := by
    intro r hr
    simp only [List.mem_filter, Bool.and_eq_true, decide_eq_true_eq] at hr
    have hrow := mem_domains.mp hr.1
    refine ⟨?_, hrow⟩
    by_contra hne
    exact hnone ⟨r.1, hne, r.2, hrow, hr.2.1, hr.2.2⟩
  refine length_le_one ((domains_nodup db).filter _) fun r hr r' hr' => ?_
  obtain ⟨hid, hrow⟩ := honly r hr
  obtain ⟨hid', hrow'⟩ := honly r' hr'
  rw [hid] at hrow
  rw [hid', hrow, Option.some.injEq, Slot.live.injEq] at hrow'
  exact Prod.ext (hid.trans hid'.symm) hrow'

/-! What a statement leaves of the other rows -/

theorem domainRow_update_ne (stmt : DomainStmt) (h : id' ≠ id) :
    domainRow (update db (.domain id) stmt) id' = domainRow db id' := by
  have hne : Key.domain id' ≠ .domain id := by simpa using h
  obtain heq | ⟨new, -, heq⟩ := @update_cases store db (.domain id) stmt
  · rw [heq]
  · rw [heq]
    exact lookup_put_ne db new hne

theorem ssoConfig_update (stmt : DomainStmt) :
    ssoConfig (update db (.domain id) stmt) orgId = ssoConfig db orgId := by
  have hne : Key.ssoConfig orgId ≠ .domain id := by simp
  obtain heq | ⟨new, -, heq⟩ := @update_cases store db (.domain id) stmt
  · rw [heq]
  · rw [heq]
    exact lookup_put_ne db new hne

theorem domainRow_upsert (enabled : Bool) :
    domainRow (upsertSsoConfig orgId enabled db) id = domainRow db id := by
  have hne : Key.domain id ≠ .ssoConfig orgId := by simp
  exact lookup_put_ne db _ hne

theorem ssoConfig_upsert (enabled : Bool) :
    ssoConfig (upsertSsoConfig orgId enabled db) orgId = some { enabled } :=
  lookup_put db (.ssoConfig orgId) _

theorem ssoConfig_upsert_ne (enabled : Bool) {orgId' : Id} (h : orgId' ≠ orgId) :
    ssoConfig (upsertSsoConfig orgId enabled db) orgId' = ssoConfig db orgId' := by
  have hne : Key.ssoConfig orgId' ≠ .ssoConfig orgId := by simpa using h
  exact lookup_put_ne db _ hne

/- The statements outside of DeleteDomain. -/
def Marks : DomainStmt → Prop
  | .createDomain _ _ => True
  | .markDomainVerified _ => True
  | .markDomainFailed _ => True
  | _ => False

/-- A domain that is verified stays so until it is deleted. -/
theorem VerifiedIn.mark {stmt : DomainStmt} (hstmt : Marks stmt) (h : VerifiedIn db orgId id') :
    VerifiedIn (update db (.domain id) stmt) orgId id' := by
  obtain ⟨d, hrow, horg, hstate⟩ := h
  refine ⟨d, ?_, horg, hstate⟩
  by_cases hid : id' = id
  · subst hid
    have hmiss : execDomain stmt (domainRow db id') = none := by
      rw [hrow]
      cases stmt with
      | createDomain params now => rfl
      | markDomainVerified now => simp [execDomain, hstate]
      | markDomainFailed now => simp [execDomain, hstate]
      | _ => exact hstmt.elim
    have hsame : update db (.domain id') stmt = db := by
      obtain heq | ⟨new, hnew, -⟩ := @update_cases store db (.domain id') stmt
      · exact heq
      · rw [show store.exec (.domain id') stmt (db.lookup (.domain id')) = none from hmiss] at hnew
        cases hnew
    rw [hsame]
    exact hrow
  · rw [domainRow_update_ne stmt hid]
    exact hrow

/-! The invariant -/

/- The domain that a session has locked, as it was then. -/
def Session.holds : Session → Option (Deletion × Id × Domain)
  | .deleteDomain d stage =>
    match stage with
    | .lookup => none
    | .lock _ => none
    | .guard id row => some (d, id, row)
    | .count id row => some (d, id, row)
    | .delete id row _ => some (d, id, row)
    | .commit id row _ => some (d, id, row)
  | _ => none

/- Past the guard: what it goes on with. -/
def Session.passed : Session → Option (Deletion × Id × Domain × Bool)
  | .deleteDomain d stage =>
    match stage with
    | .delete id row locked => some (d, id, row, locked)
    | .commit id row locked => some (d, id, row, locked)
    | _ => none
  | _ => none

/-- While the SSO of the organization is enabled, whoever is past the guard with a verified domain
has locked the config, and there is another verified domain. -/
def Guarded (db : Db store) (d : Deletion) (id : Id) (row : Domain) (locked : Bool) : Prop :=
  row.state = .verified → SsoEnabled db d.orgId → locked = true ∧ ∃ id' ≠ id, VerifiedIn db d.orgId id'

structure Inv (st : State) : Prop where
  apart : ∀ (p q : ℕ) (s t : Session), p ≠ q → st.sessions[p]? = some s →
    st.sessions[q]? = some t → ∀ k, s.locks k = true → t.locks k = false
  rows : ∀ (p : ℕ) (s : Session) (d : Deletion) (id : Id) (row : Domain),
    st.sessions[p]? = some s → s.holds = some (d, id, row) →
    domainRow st.db id = some (.live row) ∧ row.orgId = d.orgId
  guarded : ∀ (p : ℕ) (s : Session) (d : Deletion) (id : Id) (row : Domain) (locked : Bool),
    st.sessions[p]? = some s → s.passed = some (d, id, row, locked) →
    Guarded st.db d id row locked

theorem holds_of_passed {s : Session} {d : Deletion} {row : Domain} {locked : Bool}
    (h : s.passed = some (d, id, row, locked)) : s.holds = some (d, id, row) := by
  cases s with
  | deleteDomain d' stage =>
    cases stage with
    | delete id' row' locked' =>
      cases h
      rfl
    | commit id' row' locked' =>
      cases h
      rfl
    | _ => cases h
  | _ => cases h

theorem locks_of_holds {s : Session} {d : Deletion} {row : Domain}
    (h : s.holds = some (d, id, row)) : s.locks (.domain id) = true := by
  cases s with
  | deleteDomain d' stage =>
    cases stage with
    | lookup => cases h
    | lock id' => cases h
    | _ =>
      cases h
      simp [Session.locks]
  | _ => cases h

theorem locks_of_passed {s : Session} {d : Deletion} {row : Domain}
    (h : s.passed = some (d, id, row, true)) : s.locks (.ssoConfig d.orgId) = true := by
  cases s with
  | deleteDomain d' stage =>
    cases stage with
    | delete id' row' locked' =>
      cases h
      simp [Session.locks]
    | commit id' row' locked' =>
      cases h
      simp [Session.locks]
    | _ => cases h
  | _ => cases h

variable {st st' : State} {ev : Event} {p q : ℕ} {s t : Session}

theorem busyFor_eq_false (h : st.busyFor p k = false) (hqp : q ≠ p)
    (hq : st.sessions[q]? = some t) : t.locks k = false := by
  by_contra hlock
  rw [Bool.not_eq_false] at hlock
  have hany : st.busyFor p k = true :=
    List.any_eq_true.mpr ⟨t, List.mem_eraseIdx_iff_getElem?.mpr ⟨q, hqp, hq⟩, hlock⟩
  rw [hany] at h
  cases h

theorem busy_eq_false (h : st.busy k = false) (hq : st.sessions[q]? = some t) : t.locks k = false := by
  by_contra hlock
  rw [Bool.not_eq_false] at hlock
  have hany : st.busy k = true := List.any_eq_true.mpr ⟨t, List.mem_of_getElem? hq, hlock⟩
  rw [hany] at h
  cases h

/-! Steps -/

/- A DeleteDomain of a verified domain that found no SSO config, and is open. -/
def Session.unguarded (orgId : Id) (s : Session) : Bool :=
  match s.passed with
  | some (d, _, row, false) => d.orgId = orgId && row.state = .verified
  | _ => false

/-- No SSO is enabled behind the back of a DeleteDomain that found no config to lock. -/
def calm (st : State) : Event → Bool
  | .run p =>
    match st.sessions[p]? with
    | some (.updateSsoConfig orgId true) => st.sessions.all fun s => !s.unguarded orgId
    | _ => true
  | _ => true

abbrev Calm (st : State) (ev : Event) : Prop := calm st ev = true

theorem Guarded.mono {db' : Db store} {d : Deletion} {row : Domain} {locked : Bool}
    (h : Guarded db d id row locked) (hsso : ssoConfig db' d.orgId = ssoConfig db d.orgId)
    (hverified : ∀ id', id' ≠ id → VerifiedIn db d.orgId id' → VerifiedIn db' d.orgId id') :
    Guarded db' d id row locked := by
  intro hrow henabled
  rw [SsoEnabled, hsso] at henabled
  obtain ⟨hlocked, id', hne, hid'⟩ := h hrow henabled
  exact ⟨hlocked, id', hne, hverified id' hne hid'⟩

/- A statement on a domain that nobody has locked. -/
theorem Inv.mark (stmt : DomainStmt) (hstmt : Marks stmt) (h : Inv st)
    (hmark : st.mark id stmt = some st') : Inv st' := by
  unfold State.mark at hmark
  split at hmark
  · cases hmark
  · rename_i hbusy
    cases hmark
    rw [Bool.not_eq_true] at hbusy
    refine ⟨h.apart, fun p s d id' row hp hs => ?_, fun p s d id' row locked hp hs => ?_⟩
    · have hne : id' ≠ id := by
        rintro rfl
        have hfree := busy_eq_false hbusy hp
        rw [locks_of_holds hs] at hfree
        cases hfree
      obtain ⟨hrow, horg⟩ := h.rows p s d id' row hp hs
      exact ⟨(domainRow_update_ne stmt hne).trans hrow, horg⟩
    · exact (h.guarded p s d id' row locked hp hs).mono (ssoConfig_update stmt)
        fun _ _ hid' => hid'.mark hstmt

/- A session that starts, and one that ends, holds nothing. -/
def Session.Idle (s : Session) : Prop := s.holds = none ∧ ∀ k, s.locks k = false

theorem passed_of_idle (h : s.Idle) : s.passed = none := by
  cases hs : s.passed with
  | none => rfl
  | some r =>
    obtain ⟨d, id, row, locked⟩ := r
    have hheld := h.1
    rw [holds_of_passed hs] at hheld
    cases hheld

theorem Inv.spawn (h : Inv st) (hs : s.Idle) : Inv { st with sessions := st.sessions ++ [s] } := by
  have hcases : ∀ {p : ℕ} {t : Session}, (st.sessions ++ [s])[p]? = some t →
      st.sessions[p]? = some t ∨ t = s := by
    intro p t hp
    rw [List.getElem?_append] at hp
    split at hp
    · exact .inl hp
    · exact .inr (by simpa using List.mem_of_getElem? hp)
  refine ⟨fun p q t u hpq hp hq k hk => ?_, fun p t d id row hp ht => ?_,
    fun p t d id row locked hp ht => ?_⟩
  · obtain hq | rfl := hcases hq
    · obtain hp | rfl := hcases hp
      · exact h.apart p q t u hpq hp hq k hk
      · rw [hs.2] at hk
        cases hk
    · exact hs.2 k
  · obtain hp | rfl := hcases hp
    · exact h.rows p t d id row hp ht
    · rw [hs.1] at ht
      cases ht
  · obtain hp | rfl := hcases hp
    · exact h.guarded p t d id row locked hp ht
    · rw [passed_of_idle hs] at ht
      cases ht

/-- One session moves on: its locks are new to the others, and the rows are as the others want them. -/
theorem Inv.move {db' : Db store} (h : Inv st)
    (hlocks : ∀ q u, q ≠ p → st.sessions[q]? = some u → ∀ k, t.locks k = true → u.locks k = false)
    (hrows : ∀ d id row, t.holds = some (d, id, row) →
      domainRow db' id = some (.live row) ∧ row.orgId = d.orgId)
    (hguarded : ∀ d id row locked, t.passed = some (d, id, row, locked) →
      Guarded db' d id row locked)
    (hothers : ∀ q u d id row, q ≠ p → st.sessions[q]? = some u → u.holds = some (d, id, row) →
      domainRow db' id = domainRow st.db id)
    (hpassed : ∀ q u d id row locked, q ≠ p → st.sessions[q]? = some u →
      u.passed = some (d, id, row, locked) → Guarded st.db d id row locked →
      Guarded db' d id row locked) : Inv ⟨db', st.sessions.set p t⟩ := by
  have hcases : ∀ {q : ℕ} {u : Session}, (st.sessions.set p t)[q]? = some u →
      (q = p ∧ u = t) ∨ (q ≠ p ∧ st.sessions[q]? = some u) := by
    intro q u hq
    rw [List.getElem?_set] at hq
    split at hq
    · rename_i hpq
      split at hq
      · exact .inl ⟨hpq.symm, by simpa using hq.symm⟩
      · cases hq
    · rename_i hpq
      exact .inr ⟨Ne.symm hpq, hq⟩
  refine ⟨fun q r u v hqr hq hr k hk => ?_, fun q u d id row hq hu => ?_,
    fun q u d id row locked hq hu => ?_⟩
  · obtain ⟨rfl, rfl⟩ | ⟨hqp, hq'⟩ := hcases hq
    · obtain ⟨rfl, rfl⟩ | ⟨hrp, hr'⟩ := hcases hr
      · exact absurd rfl hqr
      · exact hlocks r v hrp hr' k hk
    · obtain ⟨rfl, rfl⟩ | ⟨hrp, hr'⟩ := hcases hr
      · by_contra hv
        rw [Bool.not_eq_false] at hv
        rw [hlocks q u hqp hq' k hv] at hk
        cases hk
      · exact h.apart q r u v hqr hq' hr' k hk
  · obtain ⟨rfl, rfl⟩ | ⟨hqp, hq'⟩ := hcases hq
    · exact hrows d id row hu
    · obtain ⟨hrow, horg⟩ := h.rows q u d id row hq' hu
      exact ⟨(hothers q u d id row hqp hq' hu).trans hrow, horg⟩
  · obtain ⟨rfl, rfl⟩ | ⟨hqp, hq'⟩ := hcases hq
    · exact hguarded d id row locked hu
    · exact hpassed q u d id row locked hqp hq' hu (h.guarded q u d id row locked hq' hu)

/- Nothing is written by the statement. -/
theorem Inv.stay (h : Inv st)
    (hlocks : ∀ q u, q ≠ p → st.sessions[q]? = some u → ∀ k, t.locks k = true → u.locks k = false)
    (hrows : ∀ d id row, t.holds = some (d, id, row) →
      domainRow st.db id = some (.live row) ∧ row.orgId = d.orgId)
    (hguarded : ∀ d id row locked, t.passed = some (d, id, row, locked) →
      Guarded st.db d id row locked) : Inv ⟨st.db, st.sessions.set p t⟩ :=
  h.move hlocks hrows hguarded (fun _ _ _ _ _ _ _ _ => rfl) fun _ _ _ _ _ _ _ _ _ hg => hg

/- A session that ends, whatever it was at. -/
theorem Inv.finish (h : Inv st) (p : ℕ) : Inv ⟨st.db, st.sessions.set p .done⟩ :=
  h.stay (fun _ _ _ _ _ hk => by cases hk) (fun _ _ _ ht => by cases ht) fun _ _ _ _ ht => by cases ht

/- What a session has locked before it moves, the others have not. -/
theorem Inv.others (h : Inv st) (hp : st.sessions[p]? = some s) (hk : s.locks k = true) :
    ∀ q u, q ≠ p → st.sessions[q]? = some u → u.locks k = false :=
  fun q u hqp hq => h.apart p q s u (Ne.symm hqp) hp hq k hk

theorem execDomain_forUpdate {domain : String} {cur : Option (Slot Domain)} {row : Domain}
    (h : execDomain (.getDomainByNameForUpdate domain orgId) cur = some (some (.live row))) :
    cur = some (.live row) ∧ row.orgId = orgId := by
  obtain _ | d | _ := cur
  · cases h
  · simp only [execDomain, Option.ite_none_right_eq_some, Option.some.injEq, Slot.live.injEq] at h
    obtain ⟨⟨-, horg⟩, rfl⟩ := h
    exact ⟨rfl, horg⟩
  · cases h

/- The COMMIT of a DeleteDomain: the others hold other domains, and count on another verified one. -/
theorem Inv.commit {d : Deletion} {row : Domain} {locked : Bool} (h : Inv st)
    (hp : st.sessions[p]? = some (.deleteDomain d (.commit id row locked))) :
    Inv ⟨update st.db (.domain id) (.deleteDomain d.orgId), st.sessions.set p .done⟩ := by
  have hdomain : ∀ q u, q ≠ p → st.sessions[q]? = some u → u.locks (.domain id) = false :=
    h.others hp (locks_of_holds rfl)
  have hother : ∀ q u d' id' row', q ≠ p → st.sessions[q]? = some u →
      u.holds = some (d', id', row') → id' ≠ id := by
    rintro q u d' id' row' hqp hq hu rfl
    have hfree := hdomain q u hqp hq
    rw [locks_of_holds hu] at hfree
    cases hfree
  refine h.move (fun _ _ _ _ _ hk => by cases hk) (fun _ _ _ ht => by cases ht)
    (fun _ _ _ _ ht => by cases ht) (fun q u d' id' row' hqp hq hu => ?_)
    fun q u d' id' row' locked' hqp hq hu hg => ?_
  · exact domainRow_update_ne _ (hother q u d' id' row' hqp hq hu)
  · intro hrow' henabled
    rw [SsoEnabled, ssoConfig_update] at henabled
    obtain ⟨rfl, id₁, hne, hverified⟩ := hg hrow' henabled
    refine ⟨rfl, id₁, hne, ?_⟩
    have hne₁ : id₁ ≠ id := by
      rintro rfl
      -- The other one is the domain that goes, so both are past the guard of one organization.
      obtain ⟨hlive, horg⟩ := h.rows p _ d id₁ row hp rfl
      obtain ⟨d₁, hlive', horg', hstate⟩ := hverified
      rw [hlive, Option.some.injEq, Slot.live.injEq] at hlive'
      subst hlive'
      have hsame : d.orgId = d'.orgId := horg.symm.trans horg'
      obtain ⟨rfl, -⟩ := h.guarded p _ d id₁ row locked hp rfl hstate (hsame ▸ henabled)
      have hfree := h.others hp (locks_of_passed rfl) q u hqp hq
      rw [hsame, locks_of_passed hu] at hfree
      cases hfree
    obtain ⟨d₁, hlive, hrest⟩ := hverified
    exact ⟨d₁, (domainRow_update_ne _ hne₁).trans hlive, hrest⟩

/- The domain, once nobody else has locked it. -/
theorem Inv.lock {d : Deletion} {db' : Db store} (h : Inv st)
    (hstep : nextStage st.db (st.busyFor p) d (.lock id) = some (t, db')) :
    Inv ⟨db', st.sessions.set p t⟩ := by
  simp only [SsoGuard.nextStage] at hstep
  split at hstep
  · rename_i row hrow
    have hheld := execDomain_forUpdate hrow
    split at hstep
    · cases hstep
    · rename_i hbusy
      rw [Bool.not_eq_true] at hbusy
      have hfree : ∀ q u, q ≠ p → st.sessions[q]? = some u → ∀ k, k = .domain id → u.locks k = false := by
        rintro q u hqp hq k rfl
        exact busyFor_eq_false hbusy hqp hq
      split at hstep
      · cases hstep
        exact h.finish p
      · split at hstep
        · cases hstep
          refine h.stay (fun q u hqp hq k hk => hfree q u hqp hq k (by simpa [Session.locks] using hk))
            (fun d' id' row' ht => ?_) fun _ _ _ _ ht => by cases ht
          cases ht
          exact hheld
        · rename_i hstate
          cases hstep
          refine h.stay (fun q u hqp hq k hk => hfree q u hqp hq k (by simpa [Session.locks] using hk))
            (fun d' id' row' ht => ?_) fun d' id' row' locked ht => ?_
          · cases ht
            exact hheld
          · cases ht
            exact fun hverified => absurd hverified hstate
  · cases hstep
    exact h.finish p

/- The SSO config, if there is one. -/
theorem Inv.guard {d : Deletion} {row : Domain} {db' : Db store} (h : Inv st)
    (hp : st.sessions[p]? = some (.deleteDomain d (.guard id row)))
    (hstep : nextStage st.db (st.busyFor p) d (.guard id row) = some (t, db')) :
    Inv ⟨db', st.sessions.set p t⟩ := by
  have hheld := h.rows p _ d id row hp rfl
  have hdomain := h.others hp (locks_of_holds (s := .deleteDomain d (.guard id row)) rfl)
  simp only [SsoGuard.nextStage] at hstep
  split at hstep
  · rename_i hnone
    cases hstep
    refine h.stay (fun q u hqp hq k hk => ?_) (fun d' id' row' ht => ?_)
      fun d' id' row' locked ht => ?_
    · obtain rfl : k = .domain id := by simpa [Session.locks] using hk
      exact hdomain q u hqp hq
    · cases ht
      exact hheld
    · cases ht
      intro _ henabled
      rw [SsoEnabled, hnone] at henabled
      cases henabled
  · rename_i sso hsso
    split at hstep
    · cases hstep
    · rename_i hbusy
      rw [Bool.not_eq_true] at hbusy
      have hlocks : ∀ q u, q ≠ p → st.sessions[q]? = some u → ∀ k,
          (k = .domain id ∨ k = .ssoConfig d.orgId) → u.locks k = false := by
        rintro q u hqp hq k (rfl | rfl)
        · exact hdomain q u hqp hq
        · exact busyFor_eq_false hbusy hqp hq
      split at hstep
      · cases hstep
        refine h.stay (fun q u hqp hq k hk => hlocks q u hqp hq k (by simpa [Session.locks] using hk))
          (fun d' id' row' ht => ?_) fun _ _ _ _ ht => by cases ht
        cases ht
        exact hheld
      · rename_i hdisabled
        cases hstep
        refine h.stay (fun q u hqp hq k hk => hlocks q u hqp hq k (by simpa [Session.locks] using hk))
          (fun d' id' row' ht => ?_) fun d' id' row' locked ht => ?_
        · cases ht
          exact hheld
        · cases ht
          intro _ henabled
          rw [SsoEnabled, hsso, Option.some.injEq] at henabled
          rw [henabled] at hdisabled
          exact absurd rfl hdisabled

/- A session goes on with the locks and the domain that it has. -/
theorem Inv.goOn (h : Inv st) (hp : st.sessions[p]? = some s) (ht : t.holds = s.holds)
    (hlocks : ∀ k, t.locks k = s.locks k)
    (hguarded : ∀ d id row locked, t.passed = some (d, id, row, locked) →
      Guarded st.db d id row locked) : Inv ⟨st.db, st.sessions.set p t⟩ := by
  refine h.stay (fun q u hqp hq k hk => ?_) (fun d' id' row' ht' => ?_) hguarded
  · rw [hlocks k] at hk
    exact h.others hp hk q u hqp hq
  · rw [ht] at ht'
    exact h.rows p s d' id' row' hp ht'

theorem Inv.nextStage {d : Deletion} {stage : Stage} {db' : Db store} (h : Inv st)
    (hp : st.sessions[p]? = some (.deleteDomain d stage))
    (hstep : nextStage st.db (st.busyFor p) d stage = some (t, db')) :
    Inv ⟨db', st.sessions.set p t⟩ := by
  cases stage with
  | lookup =>
    simp only [SsoGuard.nextStage] at hstep
    split at hstep
    · cases hstep
      exact h.finish p
    · cases hstep
      exact h.stay (fun _ _ _ _ _ hk => by cases hk) (fun _ _ _ ht => by cases ht)
        fun _ _ _ _ ht => by cases ht
  | lock id => exact h.lock hstep
  | guard id row => exact h.guard hp hstep
  | count id row =>
    simp only [SsoGuard.nextStage] at hstep
    split at hstep
    · cases hstep
      exact h.finish p
    · rename_i hcount
      cases hstep
      refine h.goOn hp rfl (fun k => by simp [Session.locks]) fun d' id' row' locked ht => ?_
      cases ht
      exact fun _ _ => ⟨rfl, exists_other_verified hcount id⟩
  | delete id row locked =>
    cases hstep
    refine h.goOn hp rfl (fun _ => rfl) fun d' id' row' locked' ht => ?_
    cases ht
    exact h.guarded p _ d id row locked hp rfl
  | commit id row locked =>
    cases hstep
    exact h.commit hp

/- Nobody past the guard with a verified domain of the organization is in the way of an upsert that
   enables its SSO. -/
theorem Inv.upsert {enabled : Bool} (h : Inv st)
    (hp : st.sessions[p]? = some (.updateSsoConfig orgId enabled)) (hcalm : Calm st (.run p))
    (hbusy : st.busyFor p (.ssoConfig orgId) = false) :
    Inv ⟨upsertSsoConfig orgId enabled st.db, st.sessions.set p .done⟩ := by
  refine h.move (fun _ _ _ _ _ hk => by cases hk) (fun _ _ _ ht => by cases ht)
    (fun _ _ _ _ ht => by cases ht) (fun _ _ _ _ _ _ _ _ => domainRow_upsert enabled)
    fun q u d id row locked hqp hq hu hg => ?_
  by_cases horg : d.orgId = orgId
  · intro hrow henabled
    subst horg
    rw [SsoEnabled, ssoConfig_upsert, Option.some.injEq, SsoConfig.mk.injEq] at henabled
    subst henabled
    cases locked with
    | false =>
      simp only [Calm, calm, hp, List.all_eq_true] at hcalm
      have hguarded := hcalm u (List.mem_of_getElem? hq)
      simp [Session.unguarded, hu, hrow] at hguarded
    | true =>
      have hfree := busyFor_eq_false hbusy hqp hq
      rw [locks_of_passed hu] at hfree
      cases hfree
  · refine hg.mono (ssoConfig_upsert_ne enabled horg) fun id' _ hverified => ?_
    obtain ⟨d₁, hlive, hrest⟩ := hverified
    exact ⟨d₁, (domainRow_upsert enabled).trans hlive, hrest⟩

theorem idle_deleteDomain (d : Deletion) : (Session.deleteDomain d .lookup).Idle := ⟨rfl, fun _ => rfl⟩

theorem idle_updateSsoConfig (orgId : Id) (enabled : Bool) :
    (Session.updateSsoConfig orgId enabled).Idle := ⟨rfl, fun _ => rfl⟩

theorem step_run (h : step st (.run p) = some st') : ∃ s t, st.sessions[p]? = some s ∧
    nextStatement st.db (st.busyFor p) s = some (t, st'.db) ∧ st'.sessions = st.sessions.set p t := by
  simp only [step] at h
  split at h
  · cases h
  · rename_i s hs
    obtain ⟨⟨t, db'⟩, hnext, rfl⟩ := Option.map_eq_some_iff.mp h
    exact ⟨s, t, hs, hnext, rfl⟩

theorem Inv.run (h : Inv st) (hcalm : Calm st (.run p)) (hstep : step st (.run p) = some st') :
    Inv st' := by
  obtain ⟨s, t, hs, hnext, hset⟩ := step_run hstep
  have hst' : st' = ⟨st'.db, st.sessions.set p t⟩ := by rw [← hset]
  rw [hst']
  cases s with
  | deleteDomain d stage => exact h.nextStage hs hnext
  | updateSsoConfig orgId enabled =>
    simp only [nextStatement] at hnext
    split at hnext
    · cases hnext
    · rename_i hbusy
      obtain ⟨rfl, hdb⟩ := Prod.mk.inj (Option.some.inj hnext)
      rw [← hdb]
      exact h.upsert hs hcalm (by simpa using hbusy)
  | done => cases hnext

theorem Inv.step (h : Inv st) (hcalm : Calm st ev) (hstep : step st ev = some st') : Inv st' := by
  cases ev with
  | createDomain id params now =>
    simp only [SsoGuard.step] at hstep
    split at hstep
    · cases hstep
    · exact h.mark (.createDomain params now) trivial hstep
  | markDomainVerified id now => exact h.mark (.markDomainVerified now) trivial hstep
  | markDomainFailed id now => exact h.mark (.markDomainFailed now) trivial hstep
  | deleteDomain d =>
    cases hstep
    exact h.spawn (idle_deleteDomain d)
  | updateSsoConfig orgId enabled =>
    cases hstep
    exact h.spawn (idle_updateSsoConfig orgId enabled)
  | run p => exact h.run hcalm hstep
  | abort p =>
    cases hstep
    exact h.finish p

theorem inv_rest (db : Db store) : Inv (.rest db) where
  apart _ _ _ _ _ hp := by cases hp
  rows _ _ _ _ _ hp := by cases hp
  guarded _ _ _ _ _ _ hp := by cases hp

theorem inv_of_runs (h : Runs SsoGuard.step Calm (.rest db) st) : Inv st :=
  h.invariant (inv_rest db) fun _ _ _ hinv hcalm hstep => hinv.step hcalm hstep

/-! The law -/

/- SSO is enabled for the organization only with a verified domain. -/
def Routed (db : Db store) (orgId : Id) : Prop := SsoEnabled db orgId → ∃ id, VerifiedIn db orgId id

/- No UpdateSsoConfig enables the SSO of the organization. -/
def settles (orgId : Id) (st : State) : Event → Bool
  | .run p =>
    match st.sessions[p]? with
    | some (.updateSsoConfig orgId' true) => orgId' ≠ orgId
    | _ => true
  | _ => true

abbrev Settles (orgId : Id) (st : State) (ev : Event) : Prop := settles orgId st ev = true

theorem Routed.mark (stmt : DomainStmt) (hstmt : Marks stmt) (h : Routed st.db orgId)
    (hmark : st.mark id stmt = some st') : Routed st'.db orgId := by
  unfold State.mark at hmark
  split at hmark
  · cases hmark
  · cases hmark
    intro henabled
    rw [SsoEnabled, ssoConfig_update] at henabled
    exact (h henabled).imp fun _ hverified => hverified.mark hstmt

/-- The COMMIT of a DeleteDomain: of a verified domain it leaves another one, and of one that is not
verified it takes none. -/
theorem Inv.routed_commit {d : Deletion} {row : Domain} {locked : Bool} (h : Inv st)
    (hp : st.sessions[p]? = some (.deleteDomain d (.commit id row locked)))
    (hrouted : (row.state = .verified ∧ orgId = d.orgId) ∨ Routed st.db orgId) :
    Routed (update st.db (.domain id) (.deleteDomain d.orgId)) orgId := by
  obtain ⟨hlive, horg⟩ := h.rows p _ d id row hp rfl
  intro henabled
  rw [SsoEnabled, ssoConfig_update] at henabled
  have hother : ∃ id' ≠ id, VerifiedIn st.db orgId id' := by
    by_cases hrow : row.state = .verified ∧ orgId = d.orgId
    · obtain ⟨hstate, rfl⟩ := hrow
      exact (h.guarded p _ d id row locked hp rfl hstate henabled).2
    · obtain ⟨id', hverified⟩ := hrouted.resolve_left hrow henabled
      refine ⟨id', ?_, hverified⟩
      rintro rfl
      obtain ⟨d₁, hlive', horg', hstate⟩ := hverified
      rw [hlive, Option.some.injEq, Slot.live.injEq] at hlive'
      subst hlive'
      exact hrow ⟨hstate, horg'.symm.trans horg⟩
  obtain ⟨id', hne, d₁, hlive', hrest⟩ := hother
  exact ⟨id', d₁, (domainRow_update_ne _ hne).trans hlive', hrest⟩

theorem Inv.routed_run (h : Inv st) (hrouted : Routed st.db orgId) (hsettles : Settles orgId st (.run p))
    (hstep : SsoGuard.step st (.run p) = some st') : Routed st'.db orgId := by
  obtain ⟨s, t, hs, hnext, -⟩ := step_run hstep
  cases s with
  | deleteDomain d stage =>
    cases stage with
    | commit id row locked =>
      obtain ⟨-, hdb⟩ := Prod.mk.inj (Option.some.inj hnext)
      rw [← hdb]
      exact h.routed_commit hs (.inr hrouted)
    | _ =>
      have hsame : st'.db = st.db := by
        simp only [nextStatement, SsoGuard.nextStage] at hnext
        grind -linarith
      rwa [hsame]
  | updateSsoConfig orgId' enabled =>
    simp only [nextStatement] at hnext
    split at hnext
    · cases hnext
    · obtain ⟨-, hdb⟩ := Prod.mk.inj (Option.some.inj hnext)
      rw [← hdb]
      intro henabled
      by_cases horg : orgId = orgId'
      · subst horg
        rw [SsoEnabled, ssoConfig_upsert, Option.some.injEq, SsoConfig.mk.injEq] at henabled
        subst henabled
        simp [Settles, settles, hs] at hsettles
      · rw [SsoEnabled, ssoConfig_upsert_ne enabled horg] at henabled
        obtain ⟨id, d₁, hlive, hrest⟩ := hrouted henabled
        exact ⟨id, d₁, (domainRow_upsert enabled).trans hlive, hrest⟩
  | done => cases hnext

theorem Inv.routed_step (h : Inv st) (hrouted : Routed st.db orgId) (hsettles : Settles orgId st ev)
    (hstep : SsoGuard.step st ev = some st') : Routed st'.db orgId := by
  cases ev with
  | createDomain id params now =>
    simp only [SsoGuard.step] at hstep
    split at hstep
    · cases hstep
    · exact hrouted.mark (.createDomain params now) trivial hstep
  | markDomainVerified id now => exact hrouted.mark (.markDomainVerified now) trivial hstep
  | markDomainFailed id now => exact hrouted.mark (.markDomainFailed now) trivial hstep
  | deleteDomain d =>
    cases hstep
    exact hrouted
  | updateSsoConfig orgId enabled =>
    cases hstep
    exact hrouted
  | run p => exact h.routed_run hrouted hsettles hstep
  | abort p =>
    cases hstep
    exact hrouted

/- A new transaction, which overlaps nothing that has committed. -/
def Event.starts : Event → Bool
  | .deleteDomain _ => true
  | .updateSsoConfig _ _ => true
  | _ => false

/-- A committed DeleteDomain of a verified domain leaves its organization with a verified domain if
its SSO is enabled, until an UpdateSsoConfig enables it later on. -/
theorem delete_domain_keeps_sso {st'' : State} {d : Deletion} {row : Domain} {locked : Bool}
    (h : Runs SsoGuard.step Calm (.rest db) st)
    (hp : st.sessions[p]? = some (.deleteDomain d (.commit id row locked)))
    (hrow : row.state = .verified) (hcommit : SsoGuard.step st (.run p) = some st')
    (hafter : Runs SsoGuard.step (fun st ev => Calm st ev ∧ Settles d.orgId st ev) st' st'') :
    SsoEnabled st''.db d.orgId → ∃ id, VerifiedIn st''.db d.orgId id := by
  have hinv := inv_of_runs h
  obtain ⟨s, t, hs, hnext, -⟩ := step_run hcommit
  rw [hp] at hs
  cases hs
  obtain ⟨-, hdb⟩ := Prod.mk.inj (Option.some.inj hnext)
  have hcalm : Calm st (.run p) := by simp [Calm, calm, hp]
  have hrouted : Routed st'.db d.orgId := by
    rw [← hdb]
    exact hinv.routed_commit hp (.inl ⟨hrow, rfl⟩)
  exact (hafter.invariant (I := fun st => Inv st ∧ Routed st.db d.orgId)
    ⟨hinv.step hcalm hcommit, hrouted⟩ fun _ _ _ hst hcond hstep =>
      ⟨hst.1.step hcond.1 hstep, hst.1.routed_step hst.2 hcond.2 hstep⟩).2

/- Two domains are verified, SSO is enabled, and a DeleteDomain of one is at its COMMIT. -/
def enabledTrace : List Event :=
  [.createDomain 1 ⟨10, "acme.com", "token", none⟩ 100, .markDomainVerified 1 200,
   .createDomain 2 ⟨10, "acme.org", "token", none⟩ 100, .markDomainVerified 2 200,
   .updateSsoConfig 10 true, .run 0, .deleteDomain ⟨10, "acme.com", none⟩,
   .run 1, .run 1, .run 1, .run 1, .run 1]

def enabledState : State := (exec SsoGuard.step (.rest ∅) enabledTrace).get (by decide)

def verifiedDomain (domain : String) : Domain :=
  ((CreateDomainParams.mk 10 domain "token" none).row 100).marked .verified (some 200) 200

def committedState : State := (SsoGuard.step enabledState (.run 1)).get rfl

/- After its COMMIT a DeleteDomain of the other one, which the guard refuses. -/
def keptTrace : List Event :=
  [.deleteDomain ⟨10, "acme.org", none⟩, .run 2, .run 2, .run 2, .run 2]

def keptState : State := (exec SsoGuard.step committedState keptTrace).get (by decide)

theorem delete_domain_keeps_sso_acme :
    SsoEnabled keptState.db 10 ∧ ∃ id, VerifiedIn keptState.db 10 id := by
  have henabled : SsoEnabled keptState.db 10 := rfl
  exact ⟨henabled, delete_domain_keeps_sso (d := ⟨10, "acme.com", none⟩)
    (Runs.of_exec enabledTrace (Option.some_get _).symm (by decide)) rfl rfl
    (Option.some_get _).symm (Runs.of_exec keptTrace (Option.some_get _).symm (by decide))
    henabled⟩

/- The only verified domain is past the guard of its DeleteDomain when the first SSO config of the
   organization is inserted, enabled. -/
def insertedTrace : List Event :=
  [.createDomain 1 ⟨10, "acme.com", "token", none⟩ 100, .markDomainVerified 1 200,
   .deleteDomain ⟨10, "acme.com", none⟩, .run 0, .run 0, .run 0, .updateSsoConfig 10 true, .run 1,
   .run 0]

def insertedState : State := (exec SsoGuard.step (.rest ∅) insertedTrace).get (by decide)

def strandedState : State := (SsoGuard.step insertedState (.run 0)).get rfl

theorem sso_without_verified_domain : ¬ ∀ (db : Db store) (st st' st'' : State) (p : ℕ) (d : Deletion)
    (id : Id) (row : Domain) (locked : Bool), Runs SsoGuard.step (fun _ _ => True) (.rest db) st →
    st.sessions[p]? = some (.deleteDomain d (.commit id row locked)) → row.state = .verified →
    SsoGuard.step st (.run p) = some st' →
    Runs SsoGuard.step (fun _ ev => ev.starts = false) st' st'' → (∀ s ∈ st''.sessions, s = .done) →
    SsoEnabled st''.db d.orgId → ∃ id, VerifiedIn st''.db d.orgId id := by
  intro h
  obtain ⟨id, d, hlive, -, hstate⟩ := h ∅ insertedState strandedState strandedState 0
    ⟨10, "acme.com", none⟩ 1 (verifiedDomain "acme.com") false
    (Runs.of_exec_free insertedTrace (Option.some_get _).symm) rfl rfl
    (Option.some_get _).symm (.refl _) (by decide) rfl
  have hmem := mem_domains.mpr hlive
  have hnone : domains strandedState.db = [] := rfl
  rw [hnone] at hmem
  cases hmem

end Pivox.SsoGuard
