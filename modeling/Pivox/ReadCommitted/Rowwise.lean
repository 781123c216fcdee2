import Pivox.ReadCommitted.Rely

/-!
Contracts that speak of one row at a time. A program keeps one as soon as each of its writes does,
whatever the committed rows are: a row it wrote is locked, and of the others it assumes nothing.
-/

namespace ReadCommitted
open Transition
variable {S : Schema} {Op : Type}

/-- `good` holds of every row, present or not; `change` is how a session with a given log may
change one, and `stays` what any number of changes by any sessions leave of it. -/
structure Rowwise (S : Schema) (Op : Type) where
  good : (k : S.Key) → Option (S.Row k) → Prop
  change : Log S Op → (k : S.Key) → Option (S.Row k) → Option (S.Row k) → Prop
  stays : (k : S.Key) → Option (S.Row k) → Option (S.Row k) → Prop
  allow : (k : S.Key) → S.Stmt k → Option (S.Row k) → Prop
  accept : Db S → (q : S.Ask) → S.Answer q → Prop
  change_refl : ∀ log k r, change log k r r
  change_trans : ∀ log k r₁ r₂ r₃, change log k r₁ r₂ → change log k r₂ r₃ → change log k r₁ r₃
  change_mono : ∀ (log log' : Log S Op) k r r', log'.Extends log → change log k r r' →
    change log' k r r'
  stays_refl : ∀ k r, stays k r r
  stays_trans : ∀ k r₁ r₂ r₃, stays k r₁ r₂ → stays k r₂ r₃ → stays k r₁ r₃
  stays_of_change : ∀ log k r r', change log k r r' → stays k r r'

namespace Rowwise

def Good (R : Rowwise S Op) (db : Db S) : Prop := ∀ k, R.good k (db.lookup k)

def contract (R : Rowwise S Op) : Contract S Op where
  Inv := R.Good
  rely _ db db' := ∀ k, R.stays k (db.lookup k) (db'.lookup k)
  guar log db db' := R.Good db' ∧ ∀ k, R.change log k (db.lookup k) (db'.lookup k)
  allow := R.allow
  accept := R.accept
  fit _ _ _ := True
  spared _ _ _ := True
  rely_refl _ _ _ := R.stays_refl _ _
  rely_trans _ _ _ _ h h' k := R.stays_trans _ _ _ _ (h k) (h' k)
  rely_mono _ _ _ _ h := h
  inv_guar _ _ _ _ h := h.1
  rely_guar _ _ _ _ _ h _ k := R.stays_of_change _ _ _ _ (h.2 k)

def Safe (R : Rowwise S Op) : Prog S → Mode → Pending S → Log S Op → Prop
  | .done, _, _, _ => True
  | .beginTx next, _, _, log =>
    R.Safe (next false) .idle ∅ log ∧ R.Safe (next true) .active ∅ log
  | .commit next, mode, _, log =>
    R.Safe (next false) .idle ∅ log ∧ (mode = .active → R.Safe (next true) .idle ∅ log)
  | .rollback next, _, _, log => R.Safe next .idle ∅ log
  | .read q next, mode, own, log =>
    R.Safe (next none) mode.failed ∅ log ∧ (mode ≠ .aborted → ∀ db, R.Good db →
      R.Safe (next (some (S.answer q (overlay own db)))) mode own
        (log.add (.read q (S.answer q (overlay own db)))))
  | .write k stmt next, mode, own, log =>
    R.Safe (next .failed) mode.failed ∅ log ∧ (mode ≠ .aborted → ∀ cur, R.good k cur →
      (∀ r, own.lookup k = some r → cur = r) →
      (S.exec k stmt cur = none → R.Safe (next .noRows) mode own log) ∧
      ∀ new, S.exec k stmt cur = some new → R.allow k stmt cur →
        R.good k new ∧ R.change log k cur new ∧
        (mode = .active → R.Safe (next (.row new)) .active (own.insert k new) log) ∧
        (mode = .idle → R.Safe (next (.row new)) .idle ∅ log))
  | .ask q next, mode, own, log =>
    ∀ db, R.Good db → ∀ a, R.accept db q a → R.Safe (next a) mode own (log.add (.answered q a))

variable {R : Rowwise S Op}

theorem Safe.log_subset {code : Prog S} {mode : Mode} {own : Pending S} {log log' : Log S Op}
    (h : R.Safe code mode own log) (hlog : log'.Extends log) : R.Safe code mode own log' := by
  induction code generalizing mode own log log' with
  | done => trivial
  | beginTx next ih => exact ⟨ih _ h.1 hlog, ih _ h.2 hlog⟩
  | commit next ih => exact ⟨ih _ h.1 hlog, fun hm => ih _ (h.2 hm) hlog⟩
  | rollback next ih => exact ih h hlog
  | read q next ih =>
    exact ⟨ih _ h.1 hlog, fun hm db hdb => ih _ (h.2 hm db hdb) (hlog.add _)⟩
  | ask q next ih => exact fun db hdb a ha => ih _ (h db hdb a ha) (hlog.add _)
  | write k stmt next ih =>
    refine ⟨ih _ h.1 hlog, fun hm cur hgood hcur => ?_⟩
    obtain ⟨hmiss, hhit⟩ := h.2 hm cur hgood hcur
    refine ⟨fun hx => ih _ (hmiss hx) hlog, fun new hx hallow => ?_⟩
    obtain ⟨hnew, hchange, hactive, hidle⟩ := hhit new hx hallow
    exact ⟨hnew, R.change_mono _ _ _ _ _ hlog hchange, fun hm => ih _ (hactive hm) hlog,
      fun hm => ih _ (hidle hm) hlog⟩

/- The pending rows of a transaction, against the committed ones they will replace. -/
def Fits (R : Rowwise S Op) (own : Pending S) (log : Log S Op) (db : Db S) : Prop :=
  ∀ k r, own.lookup k = some r → R.good k r ∧ R.change log k (db.lookup k) r

theorem fits_empty (log : Log S Op) (db : Db S) : R.Fits ∅ log db := by
  intro k r h
  simp at h

theorem Fits.overlay {own : Pending S} {log : Log S Op} {db : Db S} (h : R.Fits own log db)
    (hdb : R.Good db) : R.contract.guar log db (overlay own db) := by
  have hrow : ∀ k, R.good k ((ReadCommitted.overlay own db).lookup k) ∧
      R.change log k (db.lookup k) ((ReadCommitted.overlay own db).lookup k) := by
    intro k
    rw [lookup_overlay]
    cases hk : own.lookup k with
    | none => exact ⟨hdb k, R.change_refl _ _ _⟩
    | some r => exact h k r hk
  exact ⟨fun k => (hrow k).1, fun k => (hrow k).2⟩

theorem Fits.later {own : Pending S} {log : Log S Op} {db db' : Db S} (h : R.Fits own log db)
    (hl : Later R.contract own log db db') : R.Fits own log db' := by
  intro k r hk
  have hmem : k ∈ own := AList.lookup_isSome.mp (by simp [hk])
  rw [hl.own k hmem]
  exact h k r hk

theorem Fits.cons {own : Pending S} {log : Log S Op} {db : Db S} (h : R.Fits own log db)
    (e : Event S) : R.Fits own (log.add e) db :=
  fun k r hk => ⟨(h k r hk).1, R.change_mono _ _ _ _ _ (log.extends_add e) (h k r hk).2⟩

theorem Fits.insert {own : Pending S} {log : Log S Op} {db : Db S} (h : R.Fits own log db)
    {k : S.Key} {new : Option (S.Row k)} (hgood : R.good k new)
    (hchange : R.change log k ((ReadCommitted.overlay own db).lookup k) new) :
    R.Fits (own.insert k new) log db := by
  intro k' r hk'
  by_cases heq : k' = k
  · subst heq
    rw [AList.lookup_insert, Option.some.injEq] at hk'
    subst hk'
    refine ⟨hgood, ?_⟩
    rw [lookup_overlay] at hchange
    cases hk : own.lookup k' with
    | none => simpa [hk] using hchange
    | some r => exact R.change_trans _ _ _ _ _ (h k' r hk).2 (by simpa [hk] using hchange)
  · rw [AList.lookup_insert_ne heq] at hk'
    exact h k' r hk'

theorem guar_put {log : Log S Op} {db : Db S} (hdb : R.Good db) {k : S.Key}
    {new : Option (S.Row k)} (hgood : R.good k new) (hchange : R.change log k (db.lookup k) new) :
    R.contract.guar log db (put db k new) := by
  have hrow : ∀ k', R.good k' ((put db k new).lookup k') ∧
      R.change log k' (db.lookup k') ((put db k new).lookup k') := by
    intro k'
    by_cases heq : k' = k
    · subst heq
      rw [lookup_put]
      exact ⟨hgood, hchange⟩
    · rw [lookup_put_ne _ _ heq]
      exact ⟨hdb k', R.change_refl _ _ _⟩
  exact ⟨fun k => (hrow k).1, fun k => (hrow k).2⟩

/-- A program whose every write keeps the rowwise contract keeps the contract of the store. -/
theorem Safe.contract {code : Prog S} {mode : Mode} {own : Pending S} {log : Log S Op} {db : Db S}
    (h : R.Safe code mode own log) (hfit : R.Fits own log db) (hown : mode = .idle → own = ∅) :
    ReadCommitted.Safe R.contract code mode own log db := by
  induction code generalizing mode own log db with
  | done => trivial
  | beginTx next ih =>
    intro db' hl
    exact ⟨ih _ h.1 (fits_empty _ _) fun _ => rfl, ih _ h.2 (fits_empty _ _) nofun⟩
  | commit next ih =>
    intro db' hl
    exact ⟨ih _ h.1 (fits_empty _ _) fun _ => rfl, fun hm => ⟨fun _ => (hfit.later hl).overlay hl.inv,
      ih _ (h.2 hm) (fits_empty _ _) fun _ => rfl, ih _ h.1 (fits_empty _ _) fun _ => rfl⟩⟩
  | rollback next ih =>
    intro db' hl
    exact ih h (fits_empty _ _) fun _ => rfl
  | read q next ih =>
    intro db' hl
    exact ⟨ih _ h.1 (fits_empty _ _) fun _ => rfl,
      fun hm _ => ih _ (h.2 hm db' hl.inv) ((hfit.later hl).cons _) hown⟩
  | ask q next ih =>
    intro db' hl a ha
    exact ih _ (h db' hl.inv a ha) ((hfit.later hl).cons _) hown
  | write k stmt next ih =>
    intro db' hl
    have hfit' := hfit.later hl
    have hgood : R.good k ((overlay own db').lookup k) := (hfit'.overlay hl.inv).1 k
    have hcur : ∀ r, own.lookup k = some r → (overlay own db').lookup k = r := by
      intro r hr
      rw [lookup_overlay, hr]
      rfl
    refine ⟨ih _ h.1 (fits_empty _ _) fun _ => rfl, fun hm hx => ?_, fun new hx hallow => ⟨?_, ?_⟩⟩
    · exact ih _ ((h.2 hm _ hgood hcur).1 hx) hfit' hown
    · intro hm
      obtain ⟨hnew, hchange, hsafe, -⟩ := (h.2 (by simp [hm]) _ hgood hcur).2 new hx hallow
      exact ih _ (hsafe hm) (hfit'.insert hnew hchange) nofun
    · intro hm
      obtain ⟨hnew, hchange, -, hsafe⟩ := (h.2 (by simp [hm]) _ hgood hcur).2 new hx hallow
      rw [hown hm, overlay_empty] at hchange
      have hfail := h.1
      rw [hm] at hfail
      exact ⟨fun _ => guar_put hl.inv hnew hchange, ih _ (hsafe hm) (fits_empty _ _) fun _ => rfl,
        ih _ hfail (fits_empty _ _) fun _ => rfl⟩

/-- The condition on a step under which a rowwise contract is kept. -/
structure Meets (R : Rowwise S Op) (st : State S Op) (l : Label S Op) : Prop where
  allows : ∀ (p : Nat) (s : Session S Op) (a : Act S) (k : S.Key) (stmt : S.Stmt k)
    (next : Reply S k → Prog S), l = .act p a → a.executes = true → st.sessions[p]? = some s →
    s.code = .write k stmt next → R.allow k stmt ((overlay s.own st.db).lookup k)
  accepts : ∀ (p : Nat) (q : S.Ask) (a : S.Answer q), l = .act p (.answer q a) → R.accept st.db q a

theorem Meets.contract {code : Op → Prog S} {st : State S Op} {l : Label S Op} (h : R.Meets st l) :
    R.contract.Meets code st l :=
  { allows := h.allows
    accepts := h.accepts
    fits := fun _ _ _ _ _ _ _ _ => trivial
    spares := fun _ _ _ _ _ _ _ _ _ _ => trivial }

/-- Every operation keeps the contract from any good rows on. -/
def Keeps (R : Rowwise S Op) (code : Op → Prog S) : Prop :=
  ∀ op db, R.Good db → ReadCommitted.Safe R.contract (code op) .idle ∅ (.start op) db

section runs
variable {code : Op → Prog S} {C : State S Op → Label S Op → Prop} {db : Db S}
  {st st' : State S Op} {l : Label S Op}

theorem ok_of_runs (hdb : R.Good db) (hcode : R.Keeps code)
    (hmeets : ∀ st l, C st l → R.Meets st l) (h : Runs (step code) C (.rest db) st) :
    st.Ok R.contract :=
  State.Ok.runs (State.ok_rest hdb) hcode (fun st l hc => (hmeets st l hc).contract) h

theorem good_of_runs (hdb : R.Good db) (hcode : R.Keeps code)
    (hmeets : ∀ st l, C st l → R.Meets st l) (h : Runs (step code) C (.rest db) st) : R.Good st.db :=
  (ok_of_runs hdb hcode hmeets h).inv

/-- In a run from a store at rest, a step that changes a row changes it as the contract allows the
session that took the step. -/
theorem change_of_step (hdb : R.Good db) (hcode : R.Keeps code)
    (hmeets : ∀ st l, C st l → R.Meets st l) (h : Runs (step code) C (.rest db) st) (hc : C st l)
    (hs : step code st l = some st') (k : S.Key) :
    st'.db.lookup k = st.db.lookup k ∨ ∃ p s a, l = .act p a ∧ st.sessions[p]? = some s ∧
      R.change s.log k (st.db.lookup k) (st'.db.lookup k) := by
  obtain ⟨-, heq | ⟨p, s, a, hl, hp, hguar⟩⟩ :=
    (ok_of_runs hdb hcode hmeets h).step hcode (hmeets st l hc).contract hs
  · exact .inl (by rw [heq])
  · exact .inr ⟨p, s, a, hl, hp, hguar.2 k⟩

/-- Between any two states of a run, every row stays what the contract says. -/
theorem stays_of_runs (hdb : R.Good db) (hcode : R.Keeps code)
    (hmeets : ∀ st l, C st l → R.Meets st l) (h : Runs (step code) C (.rest db) st)
    (h' : Runs (step code) C st st') (k : S.Key) : R.stays k (st.db.lookup k) (st'.db.lookup k) :=
  (ok_of_runs hdb hcode hmeets h).runs_rel hcode (fun st l hc => (hmeets st l hc).contract)
    (fun _ _ => R.stays_refl _ _) (fun _ _ _ h h' k => R.stays_trans _ _ _ _ (h k) (h' k))
    (fun _ _ _ hg k => R.stays_of_change _ _ _ _ (hg.2 k)) h' k

end runs

end Rowwise

end ReadCommitted
