import Pivox.StorageAgent.Restart

/-!
The session store of an agent and its table on disk: the calls after which the two hold the same
sessions.
-/

namespace Pivox.StorageAgent
open Path

/- A call on the session store, with whether SQLite carries it out; a flush with the time at which
   it reads the clock. -/
inductive SessionCall where
  | grant (token : Token) (patterns : Option (List Text)) (expiry : Time) (ok : Bool)
  | revoke (token : Token) (ok : Bool)
  | flushExpired (now : Time) (ok : Bool)

def AgentState.call (st : AgentState) : SessionCall → AgentState
  | .grant token patterns expiry ok => (grant st ok token patterns expiry).2
  | .revoke token ok => (revoke st ok token).2
  | .flushExpired now ok => (flushExpired st ok now).2

/- The states that a sequence of calls leaves, one after each. -/
def AgentState.calls (st : AgentState) : List SessionCall → List AgentState
  | [] => []
  | c :: cs => st.call c :: (st.call c).calls cs

/-- Memory holds what the rows on disk decode to, token by token. -/
def Mirrored (st : AgentState) : Prop :=
  ∃ store, st.store = some store ∧ ∀ token,
    (store.sessions.lookup token).map SessionRow.session = (st.sessions.lookup token).map some

/-- A flush that SQLite carries out comes at the very start of a second, or finds no session that
ended with the start of it. -/
def FlushesAlike (st : AgentState) : SessionCall → Prop
  | .flushExpired now ok =>
    ok = true → ∀ token s, st.sessions.lookup token = some s → unix s.expiry = unix now →
      now ≤ truncate now
  | _ => True

/- Each call of the sequence, in the state in which it is made. -/
def AllFlushAlike (st : AgentState) : List SessionCall → Prop
  | [] => True
  | c :: cs => FlushesAlike st c ∧ AllFlushAlike (st.call c) cs

theorem mirrored_opened : Mirrored opened := ⟨⟨∅, []⟩, rfl, fun _ => rfl⟩

/-- What a boot loads is what is on disk, where the rows are ones that a grant wrote. -/
theorem mirrored_loadFromStore {store : Store} {now : Time}
    {rows : List (Sigma fun _ : Token => SessionRow)} {patterns : List Text} {st : AgentState}
    (hcoded : ∀ token row, store.sessions.lookup token = some row → row.isCoded)
    (hload : loadFromStore store now rows patterns = some st) : Mirrored st := by
  simp only [loadFromStore, Option.ite_none_right_eq_some, Option.some.injEq] at hload
  obtain ⟨⟨hperm, -⟩, rfl⟩ := hload
  have hflushed : ∀ token row,
      (keep (fun row => !decide (row.expiryUnix < unix now)) store.sessions).lookup token = some row →
      row.isCoded := by
    intro token row hrow
    rw [lookup_keep] at hrow
    exact hcoded token row (Option.filter_eq_some_iff.mp hrow).1
  refine ⟨_, rfl, fun token => ?_⟩
  simp only [lookup_loadSessions hperm hflushed, SessionRows.session]
  cases hrow : (keep (fun row => !decide (row.expiryUnix < unix now)) store.sessions).lookup token with
  | none => rfl
  | some row =>
    obtain ⟨ps, hps⟩ := hflushed token row hrow
    simp [SessionRow.session, hps, Json.unmarshal_marshal]

variable {st : AgentState}

/-- A write keeps the mirror when memory and disk change alike. -/
theorem Mirrored.writeThrough {persist : Store → Option Store} {memory : AgentState → AgentState}
    (h : Mirrored st)
    (halike : ∀ store new, st.store = some store → persist store = some new → ∀ token,
      (new.sessions.lookup token).map SessionRow.session =
        ((memory st).sessions.lookup token).map some) :
    Mirrored (StorageAgent.writeThrough st persist memory).2 := by
  obtain ⟨store, hstore, hsame⟩ := h
  cases hp : persist store with
  | none => simpa only [StorageAgent.writeThrough, hstore, hp] using ⟨store, hstore, hsame⟩
  | some new =>
    simp only [StorageAgent.writeThrough, hstore, hp]
    exact ⟨new, rfl, halike store new hstore hp⟩

theorem Mirrored.grant (h : Mirrored st) (ok : Bool) (token : Token) (ps : Option (List Text))
    (t : Time) : Mirrored (grant st ok token ps t).2 := by
  apply h.writeThrough
  intro store new hst hnew token'
  obtain ⟨store', hst', hsame⟩ := h
  obtain rfl : store' = store := Option.some.inj (hst'.symm.trans hst)
  simp only [saveSession, Option.ite_none_left_eq_some, Option.ite_none_right_eq_some,
    Option.some.injEq] at hnew
  obtain ⟨-, -, rfl⟩ := hnew
  by_cases heq : token' = token
  · subst heq
    simp [session_marshal]
  · simpa [AList.lookup_insert_ne heq] using hsame token'

theorem Mirrored.revoke (h : Mirrored st) (ok : Bool) (token : Token) :
    Mirrored (revoke st ok token).2 := by
  apply h.writeThrough
  intro store new hst hnew token'
  obtain ⟨store', hst', hsame⟩ := h
  obtain rfl : store' = store := Option.some.inj (hst'.symm.trans hst)
  simp only [deleteSession, Option.ite_none_right_eq_some, Option.some.injEq] at hnew
  obtain ⟨-, rfl⟩ := hnew
  by_cases heq : token' = token
  · subst heq
    simp
  · simpa [AList.lookup_erase_ne heq] using hsame token'

/-- A row and the session in memory go together, but for the rest of the second in which the
session ends. -/
theorem flushed_alike_iff {row : SessionRow} {s : Session} {now : Time}
    (hs : row.session = some s) :
    ((some row).filter fun row => !decide (row.expiryUnix < unix now)).map SessionRow.session =
        ((some s).filter fun s => !decide (now > s.expiry)).map some ↔
      (unix s.expiry = unix now → now ≤ truncate now) := by
  obtain ⟨ps, -, rfl⟩ := Option.map_eq_some_iff.mp hs
  have hkept : ((some row).filter fun row => !decide (row.expiryUnix < unix now)).map
      SessionRow.session = if row.expiryUnix < unix now then none else
        some (some ⟨ps, row.expiryUnix * second⟩) := by
    by_cases hrow : row.expiryUnix < unix now
    · simp [Option.filter, hrow]
    · simp [Option.filter, hrow, hs]
  have hmemory : ((some (⟨ps, row.expiryUnix * second⟩ : Session)).filter
      fun s => !decide (now > s.expiry)).map some = if row.expiryUnix * second < now then none else
        some (some ⟨ps, row.expiryUnix * second⟩) := by
    by_cases hnow : row.expiryUnix * second < now
    · simp [Option.filter, hnow]
    · simp [Option.filter, hnow]
  rw [hkept, hmemory]
  have hover : row.expiryUnix < unix now → row.expiryUnix * second < now := by
    simp only [unix, second]
    omega
  have hwithin : unix (row.expiryUnix * second) = unix now ↔ row.expiryUnix = unix now := by
    rw [unix, Int.mul_ediv_cancel _ (by decide)]
  have hstart : row.expiryUnix = unix now → row.expiryUnix * second = truncate now := by
    intro h
    rw [h, unix, truncate]
  have hlate : ¬ row.expiryUnix < unix now → row.expiryUnix * second < now →
      row.expiryUnix = unix now := by
    simp only [unix, second]
    omega
  split <;> split <;> grind -linarith

/-- Step lemma of a flush: it is the one call after which the two may differ. -/
theorem Mirrored.flushExpired_iff (h : Mirrored st) (ok : Bool) (now : Time) :
    Mirrored (flushExpired st ok now).2 ↔ FlushesAlike st (.flushExpired now ok) := by
  obtain ⟨store, hstore, hsame⟩ := h
  cases ok with
  | false =>
    have hfailed : (flushExpired st false now).2 = st := by
      simp [flushExpired, StorageAgent.writeThrough, hstore, deleteExpiredSessions]
    rw [hfailed]
    exact iff_of_true ⟨store, hstore, hsame⟩ (fun h => absurd h (by decide))
  | true =>
    have hrows : ∀ token s, st.sessions.lookup token = some s →
        ∃ row, store.sessions.lookup token = some row ∧ row.session = some s := by
      intro token s hs
      have hsame := hsame token
      rw [hs] at hsame
      exact Option.map_eq_some_iff.mp hsame
    have hnone : ∀ token, st.sessions.lookup token = none →
        store.sessions.lookup token = none := by
      intro token hs
      have hsame := hsame token
      rw [hs] at hsame
      exact Option.map_eq_none_iff.mp hsame
    have hflushed : Mirrored (flushExpired st true now).2 ↔ ∀ token,
        ((store.sessions.lookup token).filter fun row => !decide (row.expiryUnix < unix now)).map
            SessionRow.session =
          ((st.sessions.lookup token).filter fun s => !decide (now > s.expiry)).map some := by
      simp [Mirrored, flushExpired, StorageAgent.writeThrough, hstore, deleteExpiredSessions, lookup_keep]
    rw [hflushed]
    constructor
    · intro halike _ token s hs
      obtain ⟨row, hrow, hsession⟩ := hrows token s hs
      have halike := halike token
      rw [hrow, hs] at halike
      exact (flushed_alike_iff hsession).mp halike
    · intro halike token
      cases hs : st.sessions.lookup token with
      | none => rw [hnone token hs, Option.filter_none, Option.filter_none]; rfl
      | some s =>
        obtain ⟨row, hrow, hsession⟩ := hrows token s hs
        rw [hrow]
        exact (flushed_alike_iff hsession).mpr (halike rfl token s hs)

theorem Mirrored.call_iff (h : Mirrored st) (c : SessionCall) :
    Mirrored (st.call c) ↔ FlushesAlike st c := by
  cases c with
  | grant token ps t ok => exact iff_of_true (h.grant ok token ps t) trivial
  | revoke token ok => exact iff_of_true (h.revoke ok token) trivial
  | flushExpired now ok => exact h.flushExpired_iff ok now

/-- Run lemma of `Mirrored.call_iff`: memory and disk hold the same sessions after each call if
and only if no flush comes within the second that ended a session. -/
theorem sessions_mirrored_iff (h : Mirrored st) (cs : List SessionCall) :
    (∀ st' ∈ st.calls cs, Mirrored st') ↔ AllFlushAlike st cs := by
  induction cs generalizing st with
  | nil => simp [AgentState.calls, AllFlushAlike]
  | cons c cs ih =>
    rw [AgentState.calls, List.forall_mem_cons, AllFlushAlike, h.call_iff]
    constructor
    · intro hall
      exact ⟨hall.1, (ih ((h.call_iff c).mpr hall.1)).mp hall.2⟩
    · intro hall
      exact ⟨hall.1, (ih ((h.call_iff c).mpr hall.1)).mpr hall.2⟩

/- A session that ends with the first second, and a flush at a time of that second. -/
def grantFlush (now : Time) : List SessionCall :=
  [.grant ['t'] (some [['/', 'a']]) 1000000000 true, .flushExpired now true]

theorem sessions_mirrored_two :
    (∀ st' ∈ opened.calls (grantFlush 2000000000), Mirrored st') ∧
      AllFlushAlike opened (grantFlush 2000000000) := by
  have halike : AllFlushAlike opened (grantFlush 2000000000) :=
    ⟨trivial, fun _ _ _ _ _ => by decide, trivial⟩
  exact ⟨(sessions_mirrored_iff mirrored_opened _).mpr halike, halike⟩

/-- Half a second on, the session is gone from memory and still on disk. -/
theorem sessions_not_mirrored :
    ¬ ∀ st' ∈ opened.calls (grantFlush 1500000000), Mirrored st' := by
  intro h
  obtain ⟨store, hstore, hsame⟩ :=
    h ((opened.call (.grant ['t'] (some [['/', 'a']]) 1000000000 true)).call
      (.flushExpired 1500000000 true)) (by simp [AgentState.calls, grantFlush])
  have hsame := hsame ['t']
  obtain rfl := Option.some.inj hstore
  revert hsame
  decide

end Pivox.StorageAgent
