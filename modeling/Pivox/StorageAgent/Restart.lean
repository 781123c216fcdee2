import Pivox.StorageAgent.Sessions

/-!
Restarts of a storage agent: what it has loaded from its store answers every later request as the
memory that it lost would have.
-/

namespace Pivox.StorageAgent
open Path

/- What happens to an agent. A call comes with whether SQLite carries it out, a restart with the
   rows in the order in which they are returned. -/
inductive Event where
  | grant (token : Token) (patterns : Option (List Text)) (expiry : Time) (ok : Bool)
  | revoke (token : Token) (ok : Bool)
  | flushExpired (ok : Bool)
  | update (patterns : List Text) (ok : Bool)
  | authorize (token requestPath : Text)
  | isDenied (path : Text)
  | restart (rows : List (Sigma fun _ : Token => SessionRow)) (patterns : List Text)

def Event.isRestart : Event → Bool
  | .restart _ _ => true
  | _ => false

/- The answer, if there is one, and the state after. -/
def respond (now : Time) (st : AgentState) : Event → Option (Option Bool × AgentState)
  | .grant token patterns expiry ok =>
    some (some (grant st ok token patterns expiry).1, (grant st ok token patterns expiry).2)
  | .revoke token ok => some (some (revoke st ok token).1, (revoke st ok token).2)
  | .flushExpired ok => some (some (flushExpired st ok now).1, (flushExpired st ok now).2)
  | .update patterns ok =>
    some (some (updateDenied st ok patterns).1, (updateDenied st ok patterns).2)
  | .authorize token requestPath => some (some (authorize st now token requestPath), st)
  | .isDenied path => some (some (isDenied st path), st)
  | .restart rows patterns =>
    st.store.bind fun store => (loadFromStore store now rows patterns).map (none, ·)

/-- The answers that an agent gives, in their order. -/
def answers : AgentState → List (Time × Event) → Option (List Bool)
  | _, [] => some []
  | st, (now, e) :: rest => (respond now st e).bind fun r => (answers r.2 rest).map (r.1.toList ++ ·)

/- A new agent with a store. -/
def opened : AgentState := ⟨∅, [], some ⟨∅, []⟩⟩

/-! What counts of a session is whether it is still live -/

def Session.isLive (now : Time) (s : Session) : Bool := !decide (now > s.expiry)

def live (now : Time) (s : Option Session) : Option Session := s.filter (·.isLive now)

def SessionRow.isCoded (row : SessionRow) : Prop := ∃ ps, row.patternsJson = Json.marshal ps

/- The sessions that the rows of a store are loaded to. -/
def SessionRows.session (rows : SessionRows) (token : Token) : Option Session :=
  (rows.lookup token).bind (·.session)

/-- The restarted agent `st` and one that was not: both know the same live sessions and the same
denied patterns, and so does the store of the first. -/
structure Agree (now : Time) (st st' : AgentState) : Prop where
  sessions : ∀ token, live now (st.sessions.lookup token) = live now (st'.sessions.lookup token)
  denied : ∀ p, p ∈ st.denied ↔ p ∈ st'.denied
  stored : st'.store.isSome = true
  store : ∃ store, st.store = some store ∧
    (∀ token, live now (store.sessions.session token) = live now (st.sessions.lookup token)) ∧
    (∀ token row, store.sessions.lookup token = some row → row.isCoded) ∧
    ∀ p, p ∈ store.denied ↔ p ∈ st.denied

theorem isLive_of_le {now later : Time} (h : now ≤ later) {s : Session} (hs : s.isLive later = true) :
    s.isLive now = true := by
  simp only [Session.isLive, Bool.not_eq_true', decide_eq_false_iff_not, not_lt] at hs ⊢
  exact h.trans hs

theorem live_live {now later : Time} (h : now ≤ later) (s : Option Session) :
    live later (live now s) = live later s := by
  cases s with
  | none => rfl
  | some s =>
    cases hl : s.isLive later with
    | true => simp [live, Option.filter, hl, isLive_of_le h hl]
    | false =>
      cases hn : s.isLive now with
      | true => simp [live, Option.filter, hl, hn]
      | false => simp [live, Option.filter, hl, hn]

theorem live_congr {now later : Time} (h : now ≤ later) {s s' : Option Session}
    (hs : live now s = live now s') : live later s = live later s' := by
  rw [← live_live h s, ← live_live h s', hs]

theorem Agree.later {now later : Time} {st st' : AgentState} (h : Agree now st st')
    (hle : now ≤ later) : Agree later st st' where
  sessions token := live_congr hle (h.sessions token)
  denied := h.denied
  stored := h.stored
  store := by
    obtain ⟨store, hstore, hrows, hcoded, hdenied⟩ := h.store
    exact ⟨store, hstore, fun token => live_congr hle (hrows token), hcoded, hdenied⟩

theorem agree_opened (now : Time) : Agree now opened opened where
  sessions _ := rfl
  denied _ := Iff.rfl
  stored := rfl
  store := ⟨⟨∅, []⟩, rfl, fun _ => rfl, fun _ _ h => by simp at h, fun _ => Iff.rfl⟩

/-! Each request and each call, on both agents -/

variable {now : Time} {st st' : AgentState}

theorem any_live (o : Option Session) (requestPath : Text) :
    o.any (·.authorizes now requestPath) = (live now o).any (·.authorizes now requestPath) := by
  cases o with
  | none => rfl
  | some s =>
    cases hl : s.isLive now with
    | true => simp [live, Option.filter, hl]
    | false =>
      have hexp : now > s.expiry := by simpa [Session.isLive] using hl
      simp [live, Option.filter, hl, Session.authorizes, hexp]

theorem Agree.authorize_eq (h : Agree now st st') (token requestPath : Text) :
    authorize st now token requestPath = authorize st' now token requestPath := by
  rw [authorize, authorize, any_live, h.sessions, ← any_live]

theorem Agree.isDenied_eq (h : Agree now st st') (path : Text) :
    isDenied st path = isDenied st' path := by
  rw [Bool.eq_iff_iff, isDenied, isDenied, List.any_eq_true, List.any_eq_true]
  constructor
  · rintro ⟨p, hp, hm⟩
    exact ⟨p, (h.denied p).mp hp, hm⟩
  · rintro ⟨p, hp, hm⟩
    exact ⟨p, (h.denied p).mpr hp, hm⟩

/-- A write keeps the two in agreement when its statement fails on both or on none, and does to
memory and store the same. -/
theorem Agree.writeThrough {persist : Store → Option Store} {memory : AgentState → AgentState}
    (h : Agree now st st') (hboth : ∀ s s', (persist s).isSome = (persist s').isSome)
    (hsessions : ∀ token, live now ((memory st).sessions.lookup token) =
      live now ((memory st').sessions.lookup token))
    (hdenied : ∀ p, p ∈ (memory st).denied ↔ p ∈ (memory st').denied)
    (hstore : ∀ store new, st.store = some store → persist store = some new →
      (∀ token, live now (new.sessions.session token) =
        live now ((memory st).sessions.lookup token)) ∧
      (∀ token row, new.sessions.lookup token = some row → row.isCoded) ∧
      ∀ p, p ∈ new.denied ↔ p ∈ (memory st).denied) :
    (StorageAgent.writeThrough st persist memory).1 =
        (StorageAgent.writeThrough st' persist memory).1 ∧
      Agree now (StorageAgent.writeThrough st persist memory).2
        (StorageAgent.writeThrough st' persist memory).2 := by
  obtain ⟨store, hst, -⟩ := h.store
  obtain ⟨store', hst'⟩ := Option.isSome_iff_exists.mp h.stored
  have hboth := hboth store store'
  cases hp : persist store with
  | none =>
    have hp' : persist store' = none := by simpa [hp] using hboth.symm
    simpa [StorageAgent.writeThrough, hst, hst', hp, hp'] using h
  | some new =>
    obtain ⟨new', hp'⟩ : ∃ new', persist store' = some new' :=
      Option.isSome_iff_exists.mp (by simpa [hp] using hboth.symm)
    simp only [StorageAgent.writeThrough, hst, hst', hp, hp', true_and]
    exact ⟨hsessions, hdenied, rfl, new, rfl, hstore store new hst hp⟩

theorem truncate_eq (t : Time) : unix (truncate t) * second = truncate t := by
  simp only [unix, truncate, second]
  omega

theorem session_marshal (ps : Option (List Text)) (t : Time) :
    SessionRow.session ⟨Json.marshal ps, unix (truncate t)⟩ = some ⟨ps, truncate t⟩ := by
  simp [SessionRow.session, Json.unmarshal_marshal, truncate_eq]

theorem Agree.grant (h : Agree now st st') (ok : Bool) (token : Token) (ps : Option (List Text))
    (t : Time) : (grant st ok token ps t).1 = (grant st' ok token ps t).1 ∧
      Agree now (grant st ok token ps t).2 (grant st' ok token ps t).2 := by
  refine h.writeThrough ?_ ?_ h.denied ?_
  · intro s s'
    simp only [saveSession]
    split
    · rfl
    · split <;> rfl
  · intro token'
    by_cases heq : token' = token
    · subst heq
      simp only [AList.lookup_insert]
    · simpa only [AList.lookup_insert_ne heq] using h.sessions token'
  · intro store new hst hnew
    obtain ⟨store', hst', hrows, hcoded, hdenied⟩ := h.store
    obtain rfl : store' = store := Option.some.inj (hst'.symm.trans hst)
    simp only [saveSession, Option.ite_none_left_eq_some, Option.ite_none_right_eq_some,
      Option.some.injEq] at hnew
    obtain ⟨-, -, rfl⟩ := hnew
    refine ⟨fun token' => ?_, fun token' row hrow => ?_, hdenied⟩
    · by_cases heq : token' = token
      · subst heq
        simp [SessionRows.session, session_marshal]
      · simpa [SessionRows.session, AList.lookup_insert_ne heq] using hrows token'
    · by_cases heq : token' = token
      · subst heq
        rw [AList.lookup_insert, Option.some.injEq] at hrow
        exact ⟨ps, by rw [← hrow]⟩
      · rw [AList.lookup_insert_ne heq] at hrow
        exact hcoded token' row hrow

theorem Agree.revoke (h : Agree now st st') (ok : Bool) (token : Token) :
    (revoke st ok token).1 = (revoke st' ok token).1 ∧
      Agree now (revoke st ok token).2 (revoke st' ok token).2 := by
  refine h.writeThrough ?_ ?_ h.denied ?_
  · intro s s'
    simp only [deleteSession]
    split <;> rfl
  · intro token'
    by_cases heq : token' = token
    · subst heq
      simp only [AList.lookup_erase]
    · simpa only [AList.lookup_erase_ne heq] using h.sessions token'
  · intro store new hst hnew
    obtain ⟨store', hst', hrows, hcoded, hdenied⟩ := h.store
    obtain rfl : store' = store := Option.some.inj (hst'.symm.trans hst)
    simp only [deleteSession, Option.ite_none_right_eq_some, Option.some.injEq] at hnew
    obtain ⟨-, rfl⟩ := hnew
    refine ⟨fun token' => ?_, fun token' row hrow => ?_, hdenied⟩
    · by_cases heq : token' = token
      · subst heq
        simp [SessionRows.session]
      · simpa [SessionRows.session, AList.lookup_erase_ne heq] using hrows token'
    · by_cases heq : token' = token
      · subst heq
        simp at hrow
      · rw [AList.lookup_erase_ne heq] at hrow
        exact hcoded token' row hrow

theorem live_filter (s : Option Session) :
    live now (s.filter fun s => !decide (now > s.expiry)) = live now s :=
  live_live (le_refl now) s

/-- A row whose second is over is no live session: to flush it changes nothing that counts. -/
theorem live_session_filter (row : Option SessionRow) :
    live now ((row.filter fun row => !decide (row.expiryUnix < unix now)).bind (·.session)) =
      live now (row.bind (·.session)) := by
  cases row with
  | none => rfl
  | some row =>
    by_cases hexp : row.expiryUnix < unix now
    · have hover : row.expiryUnix * second < now := by
        simp only [unix, second] at hexp ⊢
        omega
      cases hs : row.session with
      | none => simp [Option.filter, hexp, hs]
      | some s =>
        obtain ⟨ps, -, rfl⟩ := Option.map_eq_some_iff.mp hs
        simp [Option.filter, hexp, hs, live, Session.isLive, hover]
    · simp [Option.filter, hexp]

theorem Agree.flushExpired (h : Agree now st st') (ok : Bool) :
    (flushExpired st ok now).1 = (flushExpired st' ok now).1 ∧
      Agree now (flushExpired st ok now).2 (flushExpired st' ok now).2 := by
  refine h.writeThrough ?_ ?_ h.denied ?_
  · intro s s'
    simp only [deleteExpiredSessions]
    split <;> rfl
  · intro token
    simp only [lookup_keep, live_filter]
    exact h.sessions token
  · intro store new hst hnew
    obtain ⟨store', hst', hrows, hcoded, hdenied⟩ := h.store
    obtain rfl : store' = store := Option.some.inj (hst'.symm.trans hst)
    simp only [deleteExpiredSessions, Option.ite_none_right_eq_some, Option.some.injEq] at hnew
    obtain ⟨-, rfl⟩ := hnew
    refine ⟨fun token => ?_, fun token row hrow => ?_, hdenied⟩
    · simp only [SessionRows.session, lookup_keep, live_session_filter, live_filter]
      exact hrows token
    · rw [lookup_keep] at hrow
      exact hcoded token row (Option.filter_eq_some_iff.mp hrow).1

theorem mem_foldl_insert {ps rows : List Text} {p : Text} :
    p ∈ ps.foldl (fun rows p => rows.insert p) rows ↔ p ∈ ps ∨ p ∈ rows := by
  induction ps generalizing rows with
  | nil => simp
  | cons q ps ih =>
    rw [List.foldl_cons, ih, List.mem_insert_iff, List.mem_cons]
    tauto

theorem Agree.updateDenied (h : Agree now st st') (ok : Bool) (ps : List Text) :
    (updateDenied st ok ps).1 = (updateDenied st' ok ps).1 ∧
      Agree now (updateDenied st ok ps).2 (updateDenied st' ok ps).2 := by
  refine h.writeThrough ?_ h.sessions (fun _ => Iff.rfl) ?_
  · intro s s'
    simp only [replaceDeniedPatterns]
    split <;> rfl
  · intro store new hst hnew
    obtain ⟨store', hst', hrows, hcoded, -⟩ := h.store
    obtain rfl : store' = store := Option.some.inj (hst'.symm.trans hst)
    simp only [replaceDeniedPatterns, Option.ite_none_right_eq_some, Option.some.injEq] at hnew
    obtain ⟨-, rfl⟩ := hnew
    exact ⟨hrows, hcoded, fun p => by simp [mem_foldl_insert]⟩

/-! The restart -/

theorem loadSessions_of_coded {rows : List (Sigma fun _ : Token => SessionRow)}
    (h : ∀ r ∈ rows, r.2.isCoded) : ∃ l, loadSessions rows = some l ∧
      l.map Prod.fst = rows.map Sigma.fst ∧
      ∀ token s, (token, s) ∈ l ↔ ∃ row, ⟨token, row⟩ ∈ rows ∧ row.session = some s := by
  induction rows with
  | nil => exact ⟨[], rfl, rfl, by simp⟩
  | cons r rows ih =>
    obtain ⟨token, row⟩ := r
    obtain ⟨l, hl, hkeys, hmem⟩ := ih fun r hr => h r (List.mem_cons_of_mem _ hr)
    obtain ⟨ps, hps⟩ := h ⟨token, row⟩ List.mem_cons_self
    have hrow : row.session = some ⟨ps, row.expiryUnix * second⟩ := by
      simp only at hps
      simp [SessionRow.session, hps, Json.unmarshal_marshal]
    have hload : loadSessions (⟨token, row⟩ :: rows) =
        some ((token, ⟨ps, row.expiryUnix * second⟩) :: l) := by
      simp only [loadSessions] at hl
      simp [loadSessions, hrow, hl]
    refine ⟨_, hload, by simp [hkeys], fun token' s => ?_⟩
    simp only [List.mem_cons, hmem, Prod.mk.injEq, Sigma.mk.injEq]
    constructor
    · rintro (⟨rfl, rfl⟩ | ⟨row', hrow', hs⟩)
      · exact ⟨row, .inl ⟨rfl, heq_of_eq rfl⟩, hrow⟩
      · exact ⟨row', .inr hrow', hs⟩
    · rintro ⟨row', ⟨rfl, heq⟩ | hrow', hs⟩
      · obtain rfl := eq_of_heq heq
        exact .inl ⟨rfl, (Option.some.inj (hs.symm.trans hrow))⟩
      · exact .inr ⟨row', hrow', hs⟩

/-- In whatever order the rows come, they load to the sessions that they stand for. -/
theorem lookup_loadSessions {m : SessionRows} {rows : List (Sigma fun _ : Token => SessionRow)}
    (hrows : rows.Perm m.entries) (hcoded : ∀ token row, m.lookup token = some row → row.isCoded)
    (token : Token) :
    (insertAll Prod.fst Prod.snd ((loadSessions rows).getD []) ∅).lookup token = m.session token := by
  have hentry : ∀ token row, ⟨token, row⟩ ∈ rows ↔ m.lookup token = some row := fun token row =>
    hrows.mem_iff.trans AList.mem_lookup_iff.symm
  obtain ⟨l, hl, hkeys, hmem⟩ :=
    loadSessions_of_coded fun r hr => hcoded r.1 r.2 ((hentry r.1 r.2).mp hr)
  have hnodup : (l.map Prod.fst).Nodup := by
    rw [hkeys]
    exact (hrows.map Sigma.fst).nodup_iff.mpr m.nodupKeys
  rw [hl, Option.getD_some]
  ext s
  rw [lookup_insertAll_empty hnodup]
  constructor
  · rintro ⟨⟨token', s'⟩, hx, rfl, rfl⟩
    obtain ⟨row, hrow, hs⟩ := (hmem token' s').mp hx
    rw [SessionRows.session, (hentry token' row).mp hrow]
    exact hs
  · intro hs
    obtain ⟨row, hrow, hs⟩ := Option.bind_eq_some_iff.mp hs
    exact ⟨(token, s), (hmem token s).mpr ⟨row, (hentry token row).mpr hrow, hs⟩, rfl, rfl⟩

theorem Agree.restart (h : Agree now st st') {store : Store} (hstore : st.store = some store)
    {rows : List (Sigma fun _ : Token => SessionRow)} {ps : List Text} {new : AgentState}
    (hload : loadFromStore store now rows ps = some new) : Agree now new st' := by
  obtain ⟨store', hst, hrows, hcoded, hdenied⟩ := h.store
  obtain rfl : store' = store := Option.some.inj (hst.symm.trans hstore)
  simp only [loadFromStore, Option.ite_none_right_eq_some, Option.some.injEq] at hload
  obtain ⟨⟨hperm, hpatterns⟩, rfl⟩ := hload
  have hflushed : ∀ token row,
      (keep (fun row => !decide (row.expiryUnix < unix now)) store'.sessions).lookup token = some row →
      row.isCoded := by
    intro token row hrow
    rw [lookup_keep] at hrow
    exact hcoded token row (Option.filter_eq_some_iff.mp hrow).1
  have hlookup := lookup_loadSessions hperm hflushed
  refine ⟨fun token => ?_, fun p => ?_, h.stored, _, rfl, fun token => ?_, hflushed, fun p => ?_⟩
  · rw [hlookup, SessionRows.session, lookup_keep, live_session_filter]
    exact (hrows token).trans (h.sessions token)
  · exact hpatterns.mem_iff.trans ((hdenied p).trans (h.denied p))
  · rw [hlookup]
  · exact hpatterns.mem_iff.symm

/-- Step lemma: what is no restart is answered by both in the same way, and a restart leaves the
agents in agreement. -/
theorem Agree.step (h : Agree now st st') {e : Event} {a : Option Bool} {new : AgentState}
    (hs : respond now st e = some (a, new)) :
    if e.isRestart then a = none ∧ Agree now new st'
    else ∃ new', respond now st' e = some (a, new') ∧ Agree now new new' := by
  cases e with
  | grant token ps t ok =>
    obtain ⟨rfl, rfl⟩ := by simpa [respond] using hs
    exact ⟨_, by simp [respond, (h.grant ok token ps t).1], (h.grant ok token ps t).2⟩
  | revoke token ok =>
    obtain ⟨rfl, rfl⟩ := by simpa [respond] using hs
    exact ⟨_, by simp [respond, (h.revoke ok token).1], (h.revoke ok token).2⟩
  | flushExpired ok =>
    obtain ⟨rfl, rfl⟩ := by simpa [respond] using hs
    exact ⟨_, by simp [respond, (h.flushExpired ok).1], (h.flushExpired ok).2⟩
  | update ps ok =>
    obtain ⟨rfl, rfl⟩ := by simpa [respond] using hs
    exact ⟨_, by simp [respond, (h.updateDenied ok ps).1], (h.updateDenied ok ps).2⟩
  | authorize token requestPath =>
    obtain ⟨rfl, rfl⟩ := by simpa [respond] using hs
    exact ⟨st', by simp [respond, h.authorize_eq], h⟩
  | isDenied path =>
    obtain ⟨rfl, rfl⟩ := by simpa [respond] using hs
    exact ⟨st', by simp [respond, h.isDenied_eq], h⟩
  | restart rows ps =>
    simp only [respond] at hs
    obtain ⟨store, hstore, hload⟩ := Option.bind_eq_some_iff.mp hs
    obtain ⟨new', hnew, heq⟩ := Option.map_eq_some_iff.mp hload
    obtain ⟨rfl, rfl⟩ := Prod.mk.inj heq
    exact ⟨rfl, h.restart hstore hnew⟩

/-- Run lemma of `Agree.step`, over times that do not go back. -/
theorem Agree.answers {evs : List (Time × Event)} (h : Agree now st st')
    (hlater : ∀ e ∈ evs, now ≤ e.1) (hmono : evs.Pairwise fun a b => a.1 ≤ b.1) {as : List Bool}
    (hrun : answers st evs = some as) :
    StorageAgent.answers st' (evs.filter fun e => !e.2.isRestart) = some as := by
  induction evs generalizing now st st' as with
  | nil => exact hrun
  | cons e evs ih =>
    obtain ⟨t, e⟩ := e
    obtain ⟨⟨a, new⟩, hs, hmap⟩ := Option.bind_eq_some_iff.mp hrun
    obtain ⟨as', hrest, rfl⟩ := Option.map_eq_some_iff.mp hmap
    obtain ⟨hfirst, hmono⟩ := List.pairwise_cons.mp hmono
    have hstep := (h.later (hlater (t, e) List.mem_cons_self)).step hs
    cases hr : e.isRestart with
    | true =>
      obtain ⟨rfl, hnew⟩ := by simpa [hr] using hstep
      simpa [hr] using ih hnew hfirst hmono hrest
    | false =>
      obtain ⟨new', hs', hnew⟩ := by simpa [hr] using hstep
      have hsame := ih hnew hfirst hmono hrest
      simp [hr, StorageAgent.answers, hs', hsame]

/-- Restarts are transparent: with them and without, an agent gives the same answers. -/
theorem restart_transparent {evs : List (Time × Event)}
    (hmono : evs.Pairwise fun a b => a.1 ≤ b.1) {as : List Bool}
    (hrun : answers opened evs = some as) :
    answers opened (evs.filter fun e => !e.2.isRestart) = some as := by
  cases evs with
  | nil => exact hrun
  | cons e evs =>
    have hlater : ∀ e' ∈ e :: evs, e.1 ≤ e'.1 := by
      intro e' he'
      obtain rfl | he' := List.mem_cons.mp he'
      · exact le_refl _
      · exact (List.pairwise_cons.mp hmono).1 e' he'
    exact (agree_opened e.1).answers hlater hmono hrun

/-! A restart is always possible -/

theorem store_writeThrough {persist : Store → Option Store} {memory : AgentState → AgentState}
    (h : st.store.isSome = true) :
    (writeThrough st persist memory).2.store.isSome = true := by
  obtain ⟨store, hstore⟩ := Option.isSome_iff_exists.mp h
  cases hp : persist store with
  | none => simp [writeThrough, hstore, hp]
  | some new => simp [writeThrough, hstore, hp]

/-- No event takes the store from an agent. -/
theorem store_respond {e : Event} {a : Option Bool} {new : AgentState} (h : st.store.isSome = true)
    (hs : respond now st e = some (a, new)) : new.store.isSome = true := by
  cases e with
  | grant token ps t ok =>
    obtain ⟨-, rfl⟩ := by simpa [respond] using hs
    exact store_writeThrough h
  | revoke token ok =>
    obtain ⟨-, rfl⟩ := by simpa [respond] using hs
    exact store_writeThrough h
  | flushExpired ok =>
    obtain ⟨-, rfl⟩ := by simpa [respond] using hs
    exact store_writeThrough h
  | update ps ok =>
    obtain ⟨-, rfl⟩ := by simpa [respond] using hs
    exact store_writeThrough h
  | authorize token requestPath =>
    obtain ⟨-, rfl⟩ := by simpa [respond] using hs
    exact h
  | isDenied path =>
    obtain ⟨-, rfl⟩ := by simpa [respond] using hs
    exact h
  | restart rows ps =>
    simp only [respond] at hs
    obtain ⟨store, -, hload⟩ := Option.bind_eq_some_iff.mp hs
    obtain ⟨new', hnew, heq⟩ := Option.map_eq_some_iff.mp hload
    obtain ⟨-, rfl⟩ := Prod.mk.inj heq
    simp only [loadFromStore, Option.ite_none_right_eq_some, Option.some.injEq] at hnew
    obtain ⟨-, rfl⟩ := hnew
    rfl

/-- After any run the agent can be restarted, with the rows of its store in any order. -/
theorem restart_possible (h : st.store.isSome = true) {evs : List (Time × Event)} {as : List Bool}
    (hrun : answers st evs = some as) (now : Time) :
    ∃ store : Store, ∀ (rows : List (Sigma fun _ : Token => SessionRow)) (ps : List Text),
      rows.Perm (keep (fun row => !decide (row.expiryUnix < unix now)) store.sessions).entries →
      ps.Perm store.denied → answers st (evs ++ [(now, Event.restart rows ps)]) = some as := by
  induction evs generalizing st as with
  | nil =>
    obtain ⟨store, hstore⟩ := Option.isSome_iff_exists.mp h
    obtain rfl := Option.some.inj hrun
    exact ⟨store, fun rows ps hrows hps => by
      simp [answers, respond, hstore, loadFromStore, hrows, hps]⟩
  | cons e evs ih =>
    obtain ⟨t, e⟩ := e
    obtain ⟨⟨a, new⟩, hs, hmap⟩ := Option.bind_eq_some_iff.mp hrun
    obtain ⟨as', hrest, rfl⟩ := Option.map_eq_some_iff.mp hmap
    obtain ⟨store, hpossible⟩ := ih (store_respond h hs) hrest
    exact ⟨store, fun rows ps hrows hps => by
      simp [answers, hs, hpossible rows ps hrows hps]⟩

/- A grant to the end of the second, a restart within it, and a request before and after its end. -/
def granted : List (Time × Event) :=
  [(0, .grant ['t'] (some [['/', 'a', '/', '*']]) 1500000000 true),
    (1, .update [['/', 'a', '/', 'x'], ['/', 'a', '/', 'x']] true),
    (2, .restart [⟨['t'], ⟨Json.marshal (some [['/', 'a', '/', '*']]), 1⟩⟩] [['/', 'a', '/', 'x']]),
    (1000000000, .authorize ['t'] ['/', 'a', '/', 'b']),
    (1000000000, .isDenied ['/', 'a', '/', 'x']),
    (1000000001, .authorize ['t'] ['/', 'a', '/', 'b'])]

theorem restart_transparent_granted :
    answers opened granted = some [true, true, true, true, false] ∧
      answers opened (granted.filter fun e => !e.2.isRestart) =
        some [true, true, true, true, false] :=
  ⟨by decide, restart_transparent (by decide) (by decide)⟩

end Pivox.StorageAgent
