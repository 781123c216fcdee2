import Pivox.Requests.Handlers

/-!
The state machine of a request: the edges that each operation may take it along, over every run of
concurrent calls.
-/

namespace Pivox.Requests
open ReadCommitted Transition

/-- The edges of an operation. -/
inductive Edge : Call → RequestState → RequestState → Prop where
  | submit : Edge .submitRequest .draft .open
  | assign (assignee : String) : Edge (.assignRequest assignee) .open .inProgress
  | reassign (assignee : String) : Edge (.assignRequest assignee) .inProgress .inProgress
  | claim (caller : Id) : Edge (.claimRequest caller) .open .inProgress
  | deliver : Edge .deliverRequest .inProgress .delivered
  | approve : Edge .approveRequest .delivered .approved
  | revise : Edge .requestRevision .delivered .revisionRequested
  | reject : Edge .rejectRequest .delivered .rejected
  | cancel {state : RequestState} : state ≠ .approved → state ≠ .cancelled →
      Edge .cancelRequest state .cancelled

def Final (state : RequestState) : Prop := state = .approved ∨ state = .cancelled

theorem Edge.trans {call : Call} {a b c : RequestState} (h : Edge call a b) (h' : Edge call b c) :
    Edge call a c := by
  cases h with
  | assign assignee =>
    cases h'
    exact .assign assignee
  | reassign assignee => exact h'
  | cancel ha hb =>
    cases h' with
    | cancel _ hne => exact absurd rfl hne
  | _ => cases h'

theorem Edge.not_final {call : Call} {a b : RequestState} (h : Edge call a b) : ¬ Final a := by
  rintro (rfl | rfl) <;> cases h with
  | cancel ha hb => contradiction

/- The same request: its space and its name. -/
def AssetRequest.Same (r r' : AssetRequest) : Prop := r'.spaceId = r.spaceId ∧ r'.name = r.name

theorem AssetRequest.Same.trans {a b c : AssetRequest} (h : a.Same b) (h' : b.Same c) : a.Same c :=
  ⟨h'.1.trans h.1, h'.2.trans h.2⟩

/-- A call moves a row along one of its edges. -/
inductive Moved (call : Call) : Option AssetRequest → Option AssetRequest → Prop where
  | still (row : Option AssetRequest) : Moved call row row
  | edge {r r' : AssetRequest} : r.Same r' → Edge call r.state r'.state →
      Moved call (some r) (some r')

theorem Moved.trans {call : Call} {a b c : Option AssetRequest} (h : Moved call a b)
    (h' : Moved call b c) : Moved call a c := by
  cases h with
  | still => exact h'
  | edge hsame hedge =>
    cases h' with
    | still => exact .edge hsame hedge
    | edge hsame' hedge' => exact .edge (hsame.trans hsame') (hedge.trans hedge')

/-- What any calls leave of a row: the same request, in its state if that is final. -/
def Lasts (old new : Option AssetRequest) : Prop :=
  ∀ r, old = some r → ∃ r', new = some r' ∧ r.Same r' ∧ (Final r.state → r'.state = r.state)

theorem Moved.lasts {call : Call} {a b : Option AssetRequest} (h : Moved call a b) : Lasts a b := by
  intro r hr
  cases h with
  | still => exact ⟨r, hr, ⟨rfl, rfl⟩, fun _ => rfl⟩
  | edge hsame hedge =>
    cases hr
    exact ⟨_, rfl, hsame, fun hfinal => absurd hfinal hedge.not_final⟩

theorem Lasts.trans {a b c : Option AssetRequest} (h : Lasts a b) (h' : Lasts b c) : Lasts a c := by
  intro r hr
  obtain ⟨r₁, hr₁, hsame, hfinal⟩ := h r hr
  obtain ⟨r₂, hr₂, hsame', hfinal'⟩ := h' r₁ hr₁
  refine ⟨r₂, hr₂, hsame.trans hsame', fun hf => ?_⟩
  have hstate := hfinal hf
  rw [← hstate]
  exact hfinal' (by rwa [hstate])

def requestContract : Rowwise store Request where
  good _ _ := True
  change log _ old new := Moved log.op.call old new
  stays _ old new := Lasts old new
  allow _ _ _ := True
  accept _ _ _ := True
  change_refl _ _ r := .still r
  change_trans _ _ _ _ _ := Moved.trans
  change_mono log log' _ _ _ hlog h := by rwa [hlog.op]
  stays_refl _ r := (Moved.still r : Moved .submitRequest r r).lasts
  stays_trans _ _ _ _ := Lasts.trans
  stays_of_change _ _ _ _ := Moved.lasts

variable {req : Request} {log : Log store Request} {own : Pending store} {α : Type} {id : Id}

/-! The handlers -/

theorem kept_resolveRequest (name : List String) :
    requestContract.KeptBy req (resolveRequest name) := by
  unfold resolveRequest
  split
  · exact Rowwise.kept_throw _
  · refine Rowwise.KeptBy.bind ?_ fun _ => Rowwise.kept_pure _
    refine (Rowwise.kept_ask _).bind fun a => ?_
    cases a with
    | ok spaceId => exact Rowwise.kept_pure _
    | error e => exact Rowwise.kept_throw _

theorem kept_getRequestByName (spaceId : Id) (name : String) :
    requestContract.KeptBy req (getRequestByName spaceId name) :=
  (Rowwise.kept_read _).bind fun row => kept_found row

/- What a statement leaves of a row that it does not miss. -/
theorem exec_some {stmt : RequestStmt} {cur new : Option AssetRequest}
    (h : store.exec id stmt cur = some new) :
    ∃ r r', cur = some r ∧ new = some r' ∧ execRequest stmt r = some r' := by
  obtain ⟨r, hr, hexec⟩ := Option.bind_eq_some_iff.mp h
  obtain ⟨r', hr', rfl⟩ := Option.map_eq_some_iff.mp hexec
  exact ⟨r, r', hr, rfl, hr'⟩

theorem lawful_updateRequestStateIfFrom {fromState toState : RequestState}
    (hedge : Edge req.call fromState toState) (updatedBy : Option Id) (now : Time) :
    requestContract.Lawful req id (.updateRequestStateIfFrom toState updatedBy fromState now) := by
  intro cur new _ hx _
  obtain ⟨r, r', rfl, rfl, hexec⟩ := exec_some hx
  refine ⟨trivial, fun log hlog => ?_⟩
  simp only [execRequest] at hexec
  split at hexec
  · rename_i hfrom
    cases hexec
    refine Moved.edge ⟨rfl, rfl⟩ ?_
    rw [hlog, hfrom]
    exact hedge
  · cases hexec

theorem kept_updateReturning {stmt : Time → RequestStmt}
    (h : ∀ now, requestContract.Lawful req id (stmt now)) :
    requestContract.KeptBy req (updateReturning id stmt) :=
  (Rowwise.kept_ask _).bind fun now => (Rowwise.kept_write (h now)).bind fun row => kept_found row

theorem kept_moveInTx {fromState toState : RequestState} (hedge : Edge req.call fromState toState)
    (spaceId : Id) (request : String) :
    requestContract.KeptBy req (moveInTx spaceId request fromState toState) := by
  refine (kept_mapError _ (kept_getRequestByName _ _)).bind fun row => ?_
  refine (kept_updateReturning fun now =>
    lawful_updateRequestStateIfFrom hedge none now).attempt.bind fun res => ?_
  split
  · exact Rowwise.kept_pure _
  · refine (kept_getRequestByName _ _).attempt.bind fun current => ?_
    split <;> exact Rowwise.kept_throw _
  · exact Rowwise.kept_throw _

/-- What an operation may do to a row that it has locked in a state that it does not refuse. -/
def Permits (call : Call) (refusal : RequestState → Option String) (stmt : Time → RequestStmt) :
    Prop :=
  ∀ now r r', refusal r.state = none → execRequest (stmt now) r = some r' →
    Moved call (some r) (some r')

theorem safe_updateReturning {stmt : Time → RequestStmt} {r : AssetRequest}
    {k : Except Err AssetRequest → Prog store} (hlock : own.lookup id = some (some r))
    (hpermits : ∀ now r', execRequest (stmt now) r = some r' →
      Moved log.op.call (some r) (some r'))
    (hk : ∀ res mode own, requestContract.Safe (k res) mode own log) :
    requestContract.Safe (updateReturning id stmt k) .active own log := by
  refine Rowwise.safe_bind (Rowwise.safe_ask fun now => ?_)
  have hlog := log.extends_add (.answered Ask.now now : ReadCommitted.Event store)
  have hk' : ∀ res mode own, requestContract.Safe (k res) mode own
      (log.add (.answered Ask.now now)) := fun res mode own => (hk res mode own).log_subset hlog
  refine Rowwise.safe_bind (Rowwise.safe_write (hk' _ _ _) (hk' _ _ _)
    fun cur new _ hcur hx _ => ?_)
  obtain ⟨r₁, r', rfl, rfl, hexec⟩ := exec_some hx
  obtain rfl : r₁ = r := Option.some.inj (hcur _ hlock)
  exact ⟨trivial, hpermits now r' hexec, hk' _ _ _⟩

theorem safe_getRequestByNameForUpdate {spaceId : Id} {name : String}
    {k : Except Err (Id × AssetRequest) → Prog store}
    (herror : ∀ e mode own log', log'.Extends log →
      requestContract.Safe (k (.error e)) mode own log')
    (hok : ∀ id r log', log'.Extends log →
      requestContract.Safe (k (.ok (id, r))) .active ((∅ : Pending store).insert id (some r))
        log') :
    requestContract.Safe (getRequestByNameForUpdate spaceId name k) .active ∅ log := by
  refine Rowwise.safe_bind (Rowwise.safe_bind (Rowwise.safe_read ?_ fun db _ => ?_))
  · exact herror _ _ _ _ (.refl log)
  · have hlog := log.extends_add (.read (Query.getRequestByName spaceId name)
      (requestWithName (overlay ∅ db) spaceId name) : ReadCommitted.Event store)
    change requestContract.Safe (found (requestWithName (overlay ∅ db) spaceId name) _) _ _
      (log.add (.read (Query.getRequestByName spaceId name)
        (requestWithName (overlay ∅ db) spaceId name)))
    cases hfound : requestWithName (overlay ∅ db) spaceId name with
    | none => exact herror _ _ _ _ (hfound ▸ hlog)
    | some e =>
      obtain ⟨id, r⟩ := e
      rw [hfound] at hlog
      refine Rowwise.safe_bind (Rowwise.safe_bind (Rowwise.safe_write (herror _ _ _ _ hlog)
        (herror _ _ _ _ hlog) fun cur new _ _ hx _ => ?_))
      obtain ⟨r₁, r', rfl, rfl, hexec⟩ := exec_some hx
      simp only [execRequest] at hexec
      split at hexec
      · cases hexec
        exact ⟨trivial, .still _, hok _ _ _ hlog⟩
      · cases hexec

theorem safe_lockInTx {refusal : RequestState → Option String} {stmt : Time → RequestStmt}
    (hpermits : Permits log.op.call refusal stmt) {spaceId : Id} {request : String}
    {k : Except Err AssetRequest → Prog store}
    (hk : ∀ res mode own, requestContract.Safe (k res) mode own log) :
    requestContract.Safe (lockInTx spaceId request refusal stmt k) .active ∅ log := by
  have hk' : ∀ log', log'.Extends log → ∀ res mode own,
      requestContract.Safe (k res) mode own log' :=
    fun log' hlog res mode own => (hk res mode own).log_subset hlog
  refine Rowwise.safe_bind (safe_mapError (safe_getRequestByNameForUpdate ?_ ?_))
  · exact fun e mode own log' hlog => hk' log' hlog _ _ _
  · intro id r log' hlog
    dsimp only
    cases hrefusal : refusal r.state with
    | some message => exact hk' log' hlog _ _ _
    | none =>
      refine safe_mapError (safe_updateReturning (AList.lookup_insert _) (fun now r' hexec => ?_)
        fun res mode own => ?_)
      · rw [hlog.op]
        exact hpermits now r r' hrefusal hexec
      · cases res with
        | ok r' => exact hk' log' hlog _ _ _
        | error e => exact hk' log' hlog _ _ _

/-! Every operation keeps to its edges -/

theorem permits_assign (assignee : String) : Permits (.assignRequest assignee)
    (fun state =>
      if state ≠ .open ∧ state ≠ .inProgress then
        some ("request must be OPEN or IN_PROGRESS to assign, got " ++ state.text)
      else none)
    (.updateRequestAssignee assignee .inProgress none) := by
  intro now r r' hrefusal hexec
  cases hexec
  refine .edge ⟨rfl, rfl⟩ ?_
  cases hstate : r.state with
  | «open» => exact .assign assignee
  | inProgress => exact .reassign assignee
  | _ => simp [hstate] at hrefusal

theorem permits_claim (caller : Id) : Permits (.claimRequest caller)
    (fun state =>
      if state ≠ .open then some ("can only claim OPEN requests, got " ++ state.text) else none)
    (.updateRequestAssignee "" .inProgress (some caller)) := by
  intro now r r' hrefusal hexec
  cases hexec
  refine .edge ⟨rfl, rfl⟩ ?_
  cases hstate : r.state with
  | «open» => exact .claim caller
  | _ => simp [hstate] at hrefusal

theorem permits_cancel : Permits .cancelRequest
    (fun state =>
      if state = .approved ∨ state = .cancelled then
        some ("cannot cancel a request in state " ++ state.text)
      else none)
    (.updateRequestState .cancelled none) := by
  intro now r r' hrefusal hexec
  cases hexec
  refine .edge ⟨rfl, rfl⟩ ?_
  have hstate : ¬ (r.state = .approved ∨ r.state = .cancelled) := by
    intro h
    simp [h] at hrefusal
  exact .cancel (fun h => hstate (.inl h)) fun h => hstate (.inr h)

theorem kept_handle (spaceId : Id) (request : String) :
    requestContract.KeptBy req (handle req.call spaceId request) := by
  have hmove : ∀ fromState toState, Edge req.call fromState toState →
      requestContract.KeptBy req (transitionRequest fromState toState spaceId request) :=
    fun fromState toState hedge => Rowwise.kept_transaction fun log k hlog hk =>
      (kept_moveInTx hedge spaceId request).body log k hlog hk
  have hlock : ∀ refusal stmt, Permits req.call refusal stmt →
      requestContract.KeptBy req (runInTx (lockInTx spaceId request refusal stmt)) :=
    fun refusal stmt hpermits => Rowwise.kept_transaction fun log k hlog hk =>
      safe_lockInTx (by rwa [hlog]) hk
  obtain ⟨name, call⟩ := req
  cases call with
  | submitRequest => exact hmove _ _ .submit
  | assignRequest assignee => exact hlock _ _ (permits_assign assignee)
  | claimRequest caller => exact hlock _ _ (permits_claim caller)
  | deliverRequest => exact hmove _ _ .deliver
  | approveRequest => exact hmove _ _ .approve
  | requestRevision => exact hmove _ _ .revise
  | rejectRequest => exact hmove _ _ .reject
  | cancelRequest => exact hlock _ _ permits_cancel

theorem keeps_code : requestContract.Keeps code := by
  intro req db _
  refine Rowwise.Safe.contract ?_ (Rowwise.fits_empty _ _) fun _ => rfl
  refine ((kept_resolveRequest req.name).bind fun _ => kept_handle _ _) .idle ∅ (.start req) respond
    rfl (fun _ => rfl) fun res mode own _ => ?_
  cases res with
  | ok r => exact fun _ _ _ _ _ _ _ _ => trivial
  | error e => exact fun _ _ _ _ => trivial

/-! Every call commits once -/

/- What may follow a COMMIT: no error for the caller. -/
def tellsNoError : Ask → Prop
  | .respond response => response.isOk = true
  | _ => True

section
variable {tx : Bool} {fine : Ask → Prop}

theorem stays_found (row : Option α) : Script.Stays (S := store) fine tx (found row) := by
  cases row with
  | none => exact Script.stays_throw _
  | some a => exact Script.stays_pure a

theorem stays_mapError (f : Err → Err) {m : Service α} (hm : m.Stays fine tx) :
    Script.Stays fine tx (mapError f m) :=
  hm.tryCatch fun _ => Script.stays_throw _

theorem stays_getRequestByName (spaceId : Id) (name : String) :
    (getRequestByName spaceId name).Stays fine tx :=
  (Script.stays_read _).bind fun row => stays_found row

theorem stays_updateReturning (stmt : Time → RequestStmt) :
    (updateReturning id stmt).Stays fine true :=
  (Script.stays_ask _).bind fun _ => (Script.stays_write _ _).bind fun row => stays_found row

theorem stays_moveInTx (spaceId : Id) (request : String) (fromState toState : RequestState) :
    (moveInTx spaceId request fromState toState).Stays fine true := by
  refine (stays_mapError _ (stays_getRequestByName _ _)).bind fun row => ?_
  refine (stays_updateReturning _).attempt.bind fun res => ?_
  split
  · exact Script.stays_pure _
  · refine (stays_getRequestByName _ _).attempt.bind fun current => ?_
    split <;> exact Script.stays_throw _
  · exact Script.stays_throw _

theorem stays_lockInTx (spaceId : Id) (request : String) (refusal : RequestState → Option String)
    (stmt : Time → RequestStmt) : (lockInTx spaceId request refusal stmt).Stays fine true := by
  refine (stays_mapError _ ?_).bind fun row => ?_
  · exact (stays_getRequestByName _ _).bind fun row =>
      ((Script.stays_write _ _).bind fun row => stays_found row).bind fun r => Script.stays_pure _
  · dsimp only
    split
    · exact Script.stays_throw _
    · exact stays_mapError _ (stays_updateReturning _)

theorem stays_resolveRequest (name : List String) : (resolveRequest name).Stays fine tx := by
  unfold resolveRequest
  split
  · exact Script.stays_throw _
  · refine Script.Stays.bind ?_ fun _ => Script.stays_pure _
    refine (Script.stays_ask _).bind fun a => ?_
    cases a with
    | ok spaceId => exact Script.stays_pure _
    | error e => exact Script.stays_throw _

end

theorem commitsOnce_handle (call : Call) (spaceId : Id) (request : String) :
    CommitsOnce tellsNoError (handle call spaceId request respond) false := by
  have htx : ∀ body : Service AssetRequest, body.Stays tellsNoError true →
      CommitsOnce tellsNoError (runInTx body respond) false := fun body hbody =>
    Script.commitsOnce_transaction hbody (fun e => ⟨trivial, fun _ => trivial⟩)
      fun r => ⟨trivial, fun _ => ⟨rfl, fun _ => trivial⟩⟩
  cases call with
  | assignRequest assignee => exact htx _ (stays_lockInTx _ _ _ _)
  | claimRequest caller => exact htx _ (stays_lockInTx _ _ _ _)
  | cancelRequest => exact htx _ (stays_lockInTx _ _ _ _)
  | _ => exact htx _ (stays_moveInTx _ _ _ _)

theorem commitsOnce_code (req : Request) : CommitsOnce tellsNoError (code req) false := by
  refine stays_resolveRequest req.name _ fun res => ?_
  cases res with
  | ok r => exact commitsOnce_handle _ _ _
  | error e => exact fun _ => trivial

/-! Runs -/

variable {db : Db store} {st st' st'' : State store Request} {l : Label store Request}

abbrev AnyRuns : State store Request → State store Request → Prop :=
  Runs (step code) fun _ _ => True

def stateOf (st : State store Request) (id : Id) : Option RequestState :=
  (st.db.lookup id).map (·.state)

/-- The sessions that have changed the request in a run, in the order of their commits. -/
inductive Commits (id : Id) : State store Request → List ℕ → State store Request → Prop where
  | refl (st : State store Request) : Commits id st [] st
  | other {st st' st'' : State store Request} {ps : List ℕ} {l : Label store Request} :
      Commits id st ps st' → step code st' l = some st'' → st''.db.lookup id = st'.db.lookup id →
      Commits id st ps st''
  | commit {st st' st'' : State store Request} {ps : List ℕ} {p : ℕ} {a : Act store} :
      Commits id st ps st' → step code st' (.act p a) = some st'' →
      st''.db.lookup id ≠ st'.db.lookup id → Commits id st (ps ++ [p]) st''

/-- The calls take a request from state to state, each along one of its edges. -/
inductive Path : RequestState → List Call → RequestState → Prop where
  | nil (state : RequestState) : Path state [] state
  | snoc {a b c : RequestState} {calls : List Call} {call : Call} : Path a calls b → Edge call b c →
      Path a (calls ++ [call]) c

/- What the sessions are about. -/
def callOf (st : State store Request) (p : ℕ) : Option Call :=
  st.sessions[p]?.map (·.log.op.call)

theorem meets_any (st : State store Request) (l : Label store Request) (_ : True) :
    requestContract.Meets st l :=
  ⟨fun _ _ _ _ _ _ _ _ _ _ => trivial, fun _ _ _ _ => trivial⟩

theorem good_any (db : Db store) : requestContract.Good db := fun _ => trivial

theorem edge_of_step (h : AnyRuns (.rest db) st) (hstep : step code st l = some st') (id : Id) :
    st'.db.lookup id = st.db.lookup id ∨ ∃ p a s r r', l = .act p a ∧ st.sessions[p]? = some s ∧
      st.db.lookup id = some r ∧ st'.db.lookup id = some r' ∧
      Edge s.log.op.call r.state r'.state := by
  obtain heq | ⟨p, s, a, hl, hp, hmoved⟩ :=
    Rowwise.change_of_step (good_any db) keeps_code meets_any h trivial hstep id
  · exact .inl heq
  · change Moved s.log.op.call (st.db.lookup id) (st'.db.lookup id) at hmoved
    generalize hold : st.db.lookup id = old at hmoved ⊢
    generalize hnew : st'.db.lookup id = new at hmoved ⊢
    cases hmoved with
    | still => exact .inl rfl
    | edge hsame hedge => exact .inr ⟨p, a, s, _, _, hl, hp, rfl, rfl, hedge⟩

theorem stateOf_eq {r : AssetRequest} (h : st.db.lookup id = some r) :
    stateOf st id = some r.state := by
  rw [stateOf, h]
  rfl

theorem AnyRuns.step (h : AnyRuns st st') (hstep : ReadCommitted.step code st' l = some st'') :
    AnyRuns st st'' :=
  h.tail trivial hstep

theorem Commits.runs {ps : List ℕ} (h : Commits id st ps st') : AnyRuns st st' := by
  induction h with
  | refl => exact .refl _
  | other _ hstep _ ih => exact ih.tail trivial hstep
  | commit _ hstep _ ih => exact ih.tail trivial hstep

theorem single_of_runs (h : AnyRuns (.rest db) st) : st.Single tellsNoError :=
  (State.single_rest db).runs commitsOnce_code h

theorem callOf_of_runs {p : ℕ} {call : Call} (h : AnyRuns (.rest db) st) (hruns : AnyRuns st st')
    (hcall : callOf st p = some call) : callOf st' p = some call := by
  obtain ⟨s, hs, rfl⟩ := Option.map_eq_some_iff.mp hcall
  obtain ⟨s', hs', hop⟩ := (single_of_runs h).op_of_runs commitsOnce_code hruns hs
  rw [callOf, hs', Option.map_some, hop]

theorem callsOf_of_runs {ps : List ℕ} {calls : List Call} (h : AnyRuns (.rest db) st)
    (hruns : AnyRuns st st') (hcalls : ps.map (callOf st) = calls.map some) :
    ps.map (callOf st') = calls.map some := by
  rw [← hcalls]
  refine List.map_congr_left fun p hp => ?_
  have hmem : callOf st p ∈ calls.map some := hcalls ▸ List.mem_map_of_mem hp
  obtain ⟨call, -, hcall⟩ := List.mem_map.mp hmem
  rw [← hcall]
  exact callOf_of_runs h hruns hcall.symm

/-- The calls that change a request in a run are different ones, and take it along their edges. -/
theorem Commits.path {ps : List ℕ} {r : AssetRequest} (h : AnyRuns (.rest db) st)
    (hrow : st.db.lookup id = some r) (hcommits : Commits id st ps st') :
    ps.Nodup ∧ (∀ p ∈ ps, st'.SettledAt (fun _ => True) p) ∧ ∃ calls r',
      ps.map (callOf st') = calls.map some ∧ st'.db.lookup id = some r' ∧
      Path r.state calls r'.state := by
  induction hcommits with
  | refl =>
    exact ⟨List.nodup_nil, fun _ hp => absurd hp List.not_mem_nil, [], r, rfl, hrow, .nil _⟩
  | @other st' st'' ps l hcommits hstep hsame ih =>
    obtain ⟨hnodup, hsettled, calls, r', hcalls, hrow', hpath⟩ := ih
    have hlater : AnyRuns st' st'' := (Runs.refl _).tail trivial hstep
    exact ⟨hnodup, fun p hp => (hsettled p hp).step hstep, calls, r',
      callsOf_of_runs (h.trans hcommits.runs) hlater hcalls, hsame.trans hrow', hpath⟩
  | @commit st' st'' ps p a hcommits hstep hchange ih =>
    obtain ⟨hnodup, hsettled, calls, r', hcalls, hrow', hpath⟩ := ih
    have hreached := h.trans hcommits.runs
    have hdb : st''.db ≠ st'.db := fun heq => hchange (by rw [heq])
    obtain heq | ⟨q, b, s, r₁, r₂, hl, hp, hr₁, hr₂, hedge⟩ := edge_of_step hreached hstep id
    · exact absurd heq hchange
    · cases hl
      rw [hrow'] at hr₁
      cases hr₁
      have hnew : p ∉ ps := fun hmem => hdb ((hsettled p hmem).act hstep).1
      have hlater : AnyRuns st' st'' := (Runs.refl _).tail trivial hstep
      have hcall : callOf st' p = some s.log.op.call := by rw [callOf, hp, Option.map_some]
      refine ⟨?_, fun q hq => ?_, calls ++ [s.log.op.call], r₂, ?_, hr₂, hpath.snoc hedge⟩
      · refine List.Nodup.append hnodup (List.nodup_singleton p) fun q hq hq' => hnew ?_
        rwa [← List.mem_singleton.mp hq']
      · obtain hmem | hmem := List.mem_append.mp hq
        · exact (hsettled q hmem).step hstep
        · rw [List.mem_singleton.mp hmem]
          exact (settled_of_change (single_of_runs hreached) hstep hdb).1
      · rw [List.map_append, List.map_append, List.map_singleton, List.map_singleton,
          callsOf_of_runs hreached hlater hcalls, callOf_of_runs hreached hlater hcall]

/-- What the calls keep of the requests, from any rows on and in any order: a step changes a request
only along an edge of the call that takes it; a final state is never left; the calls that change a
request do so once each, one after the other along their edges; and a call that has changed
something tells its caller no error, unless the reply to its COMMIT was lost. -/
structure StateMachine (st : State store Request) : Prop where
  edges : ∀ l st' id, step code st l = some st' → st'.db.lookup id = st.db.lookup id ∨
    ∃ p a s r r', l = .act p a ∧ st.sessions[p]? = some s ∧ st.db.lookup id = some r ∧
      st'.db.lookup id = some r' ∧ Edge s.log.op.call r.state r'.state
  final : ∀ st' id state, AnyRuns st st' → stateOf st id = some state → Final state →
    stateOf st' id = some state
  competing : ∀ st' id ps state, Commits id st ps st' → stateOf st id = some state → ps.Nodup ∧
    ∃ calls state', ps.map (callOf st') = calls.map some ∧ stateOf st' id = some state' ∧
      Path state calls state'
  errors : ∀ p a st' st'' st₁ response, a ≠ .lose → step code st (.act p a) = some st' →
    st'.db ≠ st.db → AnyRuns st' st'' →
    step code st'' (.told p (Ask.respond response) ()) = some st₁ → response.isOk = true

theorem request_state_machine (h : AnyRuns (.rest db) st) : StateMachine st where
  edges l st' id hstep := edge_of_step h hstep id
  final st' id state hruns hstate hfinal := by
    obtain ⟨r, hr, rfl⟩ := Option.map_eq_some_iff.mp hstate
    obtain ⟨r', hr', -, hkeeps⟩ :=
      Rowwise.stays_of_runs (good_any db) keeps_code meets_any h hruns id r hr
    rw [stateOf_eq hr', hkeeps hfinal]
  competing st' id ps state hcommits hstate := by
    obtain ⟨r, hr, rfl⟩ := Option.map_eq_some_iff.mp hstate
    obtain ⟨hnodup, -, calls, r', hcalls, hr', hpath⟩ := hcommits.path h hr
    exact ⟨hnodup, calls, r'.state, hcalls, stateOf_eq hr', hpath⟩
  errors p a st' st'' st₁ response ha hstep hdb hruns htold := by
    have hsettled := (settled_of_change (single_of_runs h) hstep hdb).2 ha
    exact ((hsettled.runs hruns).act htold).2 (Ask.respond response) () rfl

def deliveredRequest : AssetRequest := ⟨5, "titles", .delivered, "ann", 4, none, 100⟩

def requestRows : Db store := (∅ : Db store).insert 1 deliveredRequest

def approval : Request :=
  ⟨["organizations", "acme", "spaces", "news", "requests", "titles"], .approveRequest⟩

/- An approval up to its COMMIT. -/
def approvalTrace : List (Label store Request) :=
  [.spawn approval, .told 0 (.resolveSpace "acme" "news") (.ok 5), .run 0, .run 0,
   .told 0 .now 200, .run 0]

def approvalState : State store Request :=
  (exec (step code) (.rest requestRows) approvalTrace).get rfl

theorem runs_approvalState : AnyRuns (.rest requestRows) approvalState :=
  Runs.of_exec approvalTrace (Option.some_get _).symm rfl

theorem request_state_machine_approval : StateMachine approvalState :=
  request_state_machine runs_approvalState

def lostState : State store Request := (step code approvalState (.act 0 .lose)).get rfl

theorem error_after_change : ¬ ∀ (db : Db store) (st st' st'' st₁ : State store Request) (p : ℕ)
    (a : Act store) (response : Response), AnyRuns (.rest db) st →
    step code st (.act p a) = some st' → st'.db ≠ st.db → AnyRuns st' st'' →
    step code st'' (.told p (Ask.respond response) ()) = some st₁ → response.isOk = true := by
  intro h
  have hchange : lostState.db ≠ approvalState.db := by
    intro heq
    have hrow := congrArg (fun db => db.lookup 1) heq
    exact absurd hrow (by decide)
  have hok := h requestRows approvalState lostState lostState _ 0 .lose (.error .database)
    runs_approvalState (Option.some_get _).symm hchange (.refl _) rfl
  cases hok

end Pivox.Requests
