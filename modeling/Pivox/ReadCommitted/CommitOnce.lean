import Pivox.ReadCommitted.Script

/-!
Programs that commit at most once: they write within one transaction, and after its COMMIT they
only read and ask. `fine` tells the questions that may follow a COMMIT that has been answered.
-/

namespace ReadCommitted
open Transition
variable {S : Schema} {Op : Type} {fine : S.Ask → Prop}

/-- What is left commits nothing, and asks only what is fine. -/
def Spent (fine : S.Ask → Prop) : Prog S → Prop
  | .done => True
  | .read _ next => ∀ r, Spent fine (next r)
  | .ask q next => fine q ∧ ∀ a, Spent fine (next a)
  | _ => False

/-- `tx` is whether the program is between BEGIN and COMMIT. -/
def CommitsOnce (fine : S.Ask → Prop) : Prog S → Bool → Prop
  | .done, _ => True
  | .beginTx next, _ => CommitsOnce fine (next false) false ∧ CommitsOnce fine (next true) true
  | .commit next, _ => Spent (fun _ => True) (next false) ∧ Spent fine (next true)
  | .rollback next, _ => CommitsOnce fine next false
  | .read _ next, tx => ∀ r, CommitsOnce fine (next r) tx
  | .write _ _ next, tx => tx = true ∧ ∀ r, CommitsOnce fine (next r) tx
  | .ask _ next, tx => ∀ a, CommitsOnce fine (next a) tx

theorem Spent.commitsOnce {code : Prog S} {fine' : S.Ask → Prop} (h : Spent fine' code)
    (tx : Bool) : CommitsOnce fine code tx := by
  induction code with
  | done => trivial
  | read q next ih => exact fun r => ih r (h r)
  | ask q next ih => exact fun a => ih a (h.2 a)
  | _ => exact h.elim

theorem Spent.mono {code : Prog S} {fine' : S.Ask → Prop} (h : Spent fine code)
    (hfine : ∀ q, fine q → fine' q) : Spent fine' code := by
  induction code with
  | done => trivial
  | read q next ih => exact fun r => ih r (h r)
  | ask q next ih => exact ⟨hfine q h.1, fun a => ih a (h.2 a)⟩
  | _ => exact h.elim

/-- Outside of transactions, with nothing left to commit. -/
structure Session.Settled (fine : S.Ask → Prop) (s : Session S Op) : Prop where
  mode : s.mode = .idle
  code : Spent fine s.code

structure Session.Single (fine : S.Ask → Prop) (s : Session S Op) : Prop where
  code : CommitsOnce fine s.code (s.mode ≠ .idle)
  saved : s.mode ≠ .idle → CommitsOnce fine s.saved.1 false
  op : s.saved.2.op = s.log.op

/-- A step of a session keeps it single, and leaves it settled if it changes the rows: with what is
fine to ask, unless a reply was lost. -/
structure Session.Moves (fine : S.Ask → Prop) (s s' : Session S Op) (a : Act S)
    (db db' : Db S) : Prop where
  single : s'.Single fine
  op : s'.log.op = s.log.op
  settled : db' ≠ db → s'.Settled (fun _ => True)
  answered : db' ≠ db → a ≠ .lose → s'.Settled fine

section act
variable {s s' : Session S Op} {locked : S.Key → Bool} {db db' : Db S} {a : Act S}

theorem Session.Moves.still (h : s'.Single fine) (hop : s'.log.op = s.log.op) :
    s.Moves fine s' a db db :=
  ⟨h, hop, fun hne => absurd rfl hne, fun hne => absurd rfl hne⟩

theorem Session.Single.write {k : S.Key} {stmt : S.Stmt k} {next : Reply S k → Prog S}
    (h : s.Single fine) (hcode : s.code = .write k stmt next)
    (hwrite : s.write locked db k stmt next = some (s', db')) :
    s'.Single fine ∧ s'.log.op = s.log.op ∧ db' = db := by
  have hnext := h.code
  rw [hcode] at hnext
  obtain ⟨htx, hnext⟩ := hnext
  have hmode : s.mode ≠ .idle := by simpa using htx
  unfold Session.write at hwrite
  split at hwrite
  · obtain ⟨rfl, rfl⟩ := by simpa using hwrite
    exact ⟨⟨hnext _, h.saved, h.op⟩, rfl, rfl⟩
  · split at hwrite
    · obtain ⟨rfl, rfl⟩ := by simpa using hwrite
      exact ⟨⟨hnext _, h.saved, h.op⟩, rfl, rfl⟩
    · split at hwrite
      · cases hwrite
      · obtain ⟨rfl, rfl⟩ := by simpa using hwrite
        exact ⟨⟨hnext _, h.saved, h.op⟩, rfl, rfl⟩
  · rename_i hidle
    exact absurd hidle hmode

theorem Session.Single.run (h : s.Single fine) (hrun : s.run locked db = some (s', db')) :
    s.Moves fine s' .run db db' := by
  have hnext := h.code
  unfold Session.run at hrun
  split at hrun
  · cases hrun
  · cases hrun
  · rename_i next hcode
    rw [hcode] at hnext
    split at hrun
    · rename_i hmode
      obtain ⟨rfl, rfl⟩ := by simpa using hrun
      refine .still ⟨hnext.2, fun _ => ?_, rfl⟩ rfl
      have hsaved := h.code
      rw [hmode] at hsaved
      exact hsaved
    · cases hrun
  · rename_i next hcode
    rw [hcode] at hnext
    obtain ⟨hfailed, hdone⟩ := hnext
    have hrun := Option.some.inj hrun
    unfold Session.commit at hrun
    split at hrun
    · obtain ⟨rfl, rfl⟩ := Prod.mk.inj hrun
      exact ⟨⟨hdone.commitsOnce _, fun hne => absurd rfl hne, h.op⟩, rfl,
        fun _ => ⟨rfl, hdone.mono fun _ _ => trivial⟩, fun _ _ => ⟨rfl, hdone⟩⟩
    · obtain ⟨rfl, rfl⟩ := Prod.mk.inj hrun
      exact .still ⟨hfailed.commitsOnce _, fun hne => absurd rfl hne, h.op⟩ rfl
  · rename_i next hcode
    rw [hcode] at hnext
    obtain ⟨rfl, rfl⟩ := by simpa using hrun
    exact .still ⟨hnext, fun hne => absurd rfl hne, h.op⟩ rfl
  · rename_i q next hcode
    rw [hcode] at hnext
    obtain ⟨rfl, rfl⟩ := by simpa using hrun
    unfold Session.read
    split
    · exact .still ⟨hnext _, h.saved, h.op⟩ rfl
    · exact .still ⟨hnext _, h.saved, h.op⟩ rfl
  · rename_i k stmt next hcode
    obtain ⟨hsingle, hop, rfl⟩ := h.write hcode hrun
    exact .still hsingle hop

theorem Session.Single.fail (h : s.Single fine) (hfail : s.fail = some s') :
    s'.Single fine ∧ s'.log.op = s.log.op := by
  have hnext := h.code
  have hmode : (s.mode.failed ≠ .idle) = (s.mode ≠ .idle) := by cases s.mode <;> simp
  unfold Session.fail at hfail
  split at hfail
  · rename_i next hcode
    rw [hcode] at hnext
    cases hfail
    exact ⟨⟨hnext.1, fun hne => absurd rfl hne, h.op⟩, rfl⟩
  · rename_i next hcode
    rw [hcode] at hnext
    cases hfail
    exact ⟨⟨hnext.1.commitsOnce _, fun hne => absurd rfl hne, h.op⟩, rfl⟩
  · rename_i q next hcode
    rw [hcode] at hnext
    cases hfail
    refine ⟨⟨?_, fun hne => h.saved (hmode ▸ hne), h.op⟩, rfl⟩
    simp only [hmode]
    exact hnext _
  · rename_i k stmt next hcode
    rw [hcode] at hnext
    cases hfail
    refine ⟨⟨?_, fun hne => h.saved (hmode ▸ hne), h.op⟩, rfl⟩
    simp only [hmode]
    exact hnext.2 _
  · cases hfail

theorem Session.Single.lose (h : s.Single fine) (hlose : s.lose locked db = some (s', db')) :
    s.Moves fine s' .lose db db' := by
  have hnext := h.code
  unfold Session.lose at hlose
  split at hlose
  · rename_i next hcode hmode
    rw [hcode] at hnext
    obtain ⟨rfl, rfl⟩ := by simpa using hlose
    exact ⟨⟨hnext.1.commitsOnce _, fun hne => absurd rfl hne, h.op⟩, rfl, fun _ => ⟨rfl, hnext.1⟩,
      fun _ hne => absurd rfl hne⟩
  · rename_i k stmt next hcode hmode
    rw [hcode, hmode] at hnext
    cases hnext.1
  · cases hlose

theorem Session.Single.act (h : s.Single fine) (hact : s.act locked db a = some (s', db')) :
    s.Moves fine s' a db db' := by
  cases a with
  | run => exact h.run hact
  | lose => exact h.lose hact
  | fail =>
    obtain ⟨t, ht, heq⟩ := Option.map_eq_some_iff.mp hact
    obtain ⟨rfl, rfl⟩ := Prod.mk.inj heq
    exact .still (h.fail ht).1 (h.fail ht).2
  | answer q x =>
    obtain ⟨t, ht, heq⟩ := Option.map_eq_some_iff.mp hact
    obtain ⟨rfl, rfl⟩ := Prod.mk.inj heq
    have hnext := h.code
    unfold Session.answer at ht
    split at ht
    · rename_i next hcode
      rw [hcode] at hnext
      split at ht
      · cases ht
        exact .still ⟨hnext _, h.saved, h.op⟩ rfl
      · cases ht
    · cases ht
  | retry =>
    obtain ⟨t, ht, heq⟩ := Option.map_eq_some_iff.mp hact
    obtain ⟨rfl, rfl⟩ := Prod.mk.inj heq
    unfold Session.retry at ht
    split at ht
    · cases ht
    · rename_i hne
      simp only [Bool.or_eq_true, decide_eq_true_eq, not_or] at hne
      cases ht
      exact .still ⟨h.saved hne.2, fun hne => absurd rfl hne, rfl⟩ h.op
  | crash =>
    obtain ⟨rfl, rfl⟩ := by simpa [Session.act] using hact
    exact .still ⟨trivial, fun hne => absurd rfl hne, h.op⟩ rfl

/-- A settled session changes no row, and asks only what is fine. -/
theorem Session.Settled.act (h : s.Settled fine) (hact : s.act locked db a = some (s', db')) :
    s'.Settled fine ∧ db' = db ∧ ∀ q x, a = .answer q x → fine q := by
  have hnext := h.code
  cases a with
  | run =>
    refine (?_ : s'.Settled fine ∧ db' = db).imp_right fun hdb => ⟨hdb, fun _ _ h => by cases h⟩
    simp only [Session.act, Session.run] at hact
    split at hact
    · cases hact
    · cases hact
    · rename_i next hcode
      rw [hcode] at hnext
      exact hnext.elim
    · rename_i next hcode
      rw [hcode] at hnext
      exact hnext.elim
    · rename_i next hcode
      rw [hcode] at hnext
      exact hnext.elim
    · rename_i q next hcode
      rw [hcode] at hnext
      obtain ⟨rfl, rfl⟩ := by simpa using hact
      refine ⟨?_, rfl⟩
      simp only [Session.read, h.mode]
      exact ⟨rfl, hnext _⟩
    · rename_i k stmt next hcode
      rw [hcode] at hnext
      exact hnext.elim
  | lose =>
    simp only [Session.act, Session.lose] at hact
    split at hact
    · rename_i next hcode hmode
      rw [h.mode] at hmode
      cases hmode
    · rename_i k stmt next hcode hmode
      rw [hcode] at hnext
      exact hnext.elim
    · cases hact
  | fail =>
    obtain ⟨t, ht, heq⟩ := Option.map_eq_some_iff.mp hact
    obtain ⟨rfl, rfl⟩ := Prod.mk.inj heq
    refine ⟨?_, rfl, fun _ _ h => by cases h⟩
    unfold Session.fail at ht
    split at ht
    · rename_i next hcode
      rw [hcode] at hnext
      exact hnext.elim
    · rename_i next hcode
      rw [hcode] at hnext
      exact hnext.elim
    · rename_i q next hcode
      rw [hcode] at hnext
      cases ht
      exact ⟨by rw [h.mode]; rfl, hnext _⟩
    · rename_i k stmt next hcode
      rw [hcode] at hnext
      exact hnext.elim
    · cases ht
  | answer q x =>
    obtain ⟨t, ht, heq⟩ := Option.map_eq_some_iff.mp hact
    obtain ⟨rfl, rfl⟩ := Prod.mk.inj heq
    unfold Session.answer at ht
    split at ht
    · rename_i q' next hcode
      rw [hcode] at hnext
      split at ht
      · rename_i hq
        subst hq
        cases ht
        refine ⟨⟨h.mode, hnext.2 _⟩, rfl, fun q' x' heq => ?_⟩
        cases heq
        exact hnext.1
      · cases ht
    · cases ht
  | retry =>
    obtain ⟨t, ht, -⟩ := Option.map_eq_some_iff.mp hact
    simp [Session.retry, h.mode] at ht
  | crash =>
    obtain ⟨rfl, rfl⟩ := by simpa [Session.act] using hact
    exact ⟨⟨rfl, trivial⟩, rfl, fun _ _ h => by cases h⟩

end act

section runs
variable {code : Op → Prog S} {C : State S Op → Label S Op → Prop} {st st' : State S Op}
  {l : Label S Op} {p : ℕ} {a : Act S}

def State.Single (fine : S.Ask → Prop) (st : State S Op) : Prop :=
  ∀ (p : ℕ) (s : Session S Op), st.sessions[p]? = some s → s.Single fine

theorem State.Single.step (h : st.Single fine) (hcode : ∀ op, CommitsOnce fine (code op) false)
    (hstep : ReadCommitted.step code st l = some st') : st'.Single fine := by
  intro q t ht
  cases l with
  | spawn op =>
    cases hstep
    rw [List.getElem?_append] at ht
    split at ht
    · exact h q t ht
    · obtain rfl : t = Session.start code op := by simpa using List.mem_of_getElem? ht
      exact ⟨hcode op, fun hne => absurd rfl hne, rfl⟩
  | act p a =>
    obtain ⟨s, s', hs, hact, hset⟩ := step_act hstep
    rw [hset, List.getElem?_set] at ht
    split at ht
    · split at ht
      · cases ht
        exact ((h p s hs).act hact).single
      · cases ht
    · exact h q t ht

theorem State.Single.runs (h : st.Single fine) (hcode : ∀ op, CommitsOnce fine (code op) false)
    (hruns : Runs (ReadCommitted.step code) C st st') : st'.Single fine :=
  hruns.invariant h fun _ _ _ h _ hstep => h.step hcode hstep

theorem State.single_rest (db : Db S) : (State.rest db : State S Op).Single fine :=
  fun p s hs => by simp [State.rest] at hs

/-- What a session is about does not change. -/
theorem State.Single.op_of_runs (h : st.Single fine)
    (hcode : ∀ op, CommitsOnce fine (code op) false)
    (hruns : Runs (ReadCommitted.step code) C st st') {s : Session S Op}
    (hp : st.sessions[p]? = some s) :
    ∃ s', st'.sessions[p]? = some s' ∧ s'.log.op = s.log.op := by
  induction hruns with
  | refl => exact ⟨s, hp, rfl⟩
  | @tail t t' l hruns _ hstep ih =>
    obtain ⟨s₁, hs₁, hop⟩ := ih
    cases l with
    | spawn op =>
      cases hstep
      exact ⟨s₁, List.getElem?_append_left (List.getElem?_eq_some_iff.mp hs₁).1 ▸ hs₁, hop⟩
    | act q a =>
      obtain ⟨s₂, s₃, hs₂, hact, hset⟩ := step_act hstep
      by_cases hq : q = p
      · subst hq
        rw [hs₁] at hs₂
        cases hs₂
        refine ⟨s₃, ?_, (((h.runs hcode hruns) q s₁ hs₁).act hact).op.trans hop⟩
        rw [hset, List.getElem?_set_self (List.getElem?_eq_some_iff.mp hs₁).1]
      · refine ⟨s₁, ?_, hop⟩
        rw [hset, List.getElem?_set_ne hq]
        exact hs₁

/-- Session `p` is settled. -/
def State.SettledAt (fine : S.Ask → Prop) (p : ℕ) (st : State S Op) : Prop :=
  ∃ s, st.sessions[p]? = some s ∧ s.Settled fine

/-- A session that has changed the rows is settled, in the run from then on. -/
theorem settled_of_change (h : st.Single fine)
    (hstep : ReadCommitted.step code st (.act p a) = some st') (hdb : st'.db ≠ st.db) :
    st'.SettledAt (fun _ => True) p ∧ (a ≠ .lose → st'.SettledAt fine p) := by
  obtain ⟨s, s', hs, hact, hset⟩ := step_act hstep
  have hmoves := (h p s hs).act hact
  have hp : st'.sessions[p]? = some s' := by
    rw [hset, List.getElem?_set_self (List.getElem?_eq_some_iff.mp hs).1]
  exact ⟨⟨s', hp, hmoves.settled hdb⟩, fun ha => ⟨s', hp, hmoves.answered hdb ha⟩⟩

theorem State.SettledAt.step (h : st.SettledAt fine p)
    (hstep : ReadCommitted.step code st l = some st') : st'.SettledAt fine p := by
  obtain ⟨t, ht, hsettled⟩ := h
  cases l with
  | spawn op =>
    cases hstep
    exact ⟨t, List.getElem?_append_left (List.getElem?_eq_some_iff.mp ht).1 ▸ ht, hsettled⟩
  | act q a =>
    obtain ⟨s, s', hs, hact, hset⟩ := step_act hstep
    by_cases hq : q = p
    · subst hq
      rw [ht] at hs
      cases hs
      refine ⟨s', ?_, (hsettled.act hact).1⟩
      rw [hset, List.getElem?_set_self (List.getElem?_eq_some_iff.mp ht).1]
    · refine ⟨t, ?_, hsettled⟩
      rw [hset, List.getElem?_set_ne hq]
      exact ht

theorem State.SettledAt.runs (h : st.SettledAt fine p)
    (hruns : Runs (ReadCommitted.step code) C st st') : st'.SettledAt fine p :=
  hruns.invariant h fun _ _ _ h _ hstep => h.step hstep

/-- What a settled session does: it changes nothing, and asks only what is fine. -/
theorem State.SettledAt.act (h : st.SettledAt fine p)
    (hstep : ReadCommitted.step code st (.act p a) = some st') :
    st'.db = st.db ∧ ∀ q x, a = .answer q x → fine q := by
  obtain ⟨t, ht, hsettled⟩ := h
  obtain ⟨s, s', hs, hact, -⟩ := step_act hstep
  rw [ht] at hs
  cases hs
  exact (hsettled.act hact).2

end runs

/-! Scripts -/

namespace Script
variable {E α β : Type} {failed missing : E} {tx : Bool}

/-- A script that neither begins nor ends a transaction. -/
def Stays (fine : S.Ask → Prop) (tx : Bool) (m : Script S E α) : Prop :=
  ∀ k : Except E α → Prog S, (∀ r, CommitsOnce fine (k r) tx) → CommitsOnce fine (m k) tx

theorem stays_pure (a : α) : Stays fine tx (pure a : Script S E α) := fun _ hk => hk _

theorem stays_throw (e : E) : Stays fine tx (throw e : Script S E α) := fun _ hk => hk _

theorem Stays.bind {m : Script S E α} {f : α → Script S E β} (hm : Stays fine tx m)
    (hf : ∀ a, Stays fine tx (f a)) : Stays fine tx (m >>= f) := by
  refine fun k hk => hm _ fun r => ?_
  cases r with
  | ok a => exact hf a k hk
  | error e => exact hk _

theorem Stays.tryCatch {m : Script S E α} {h : E → Script S E α} (hm : Stays fine tx m)
    (hh : ∀ e, Stays fine tx (h e)) : Stays fine tx (tryCatch m h) := by
  refine fun k hk => hm _ fun r => ?_
  cases r with
  | ok a => exact hk _
  | error e => exact hh e k hk

theorem Stays.attempt {m : Script S E α} (hm : Stays fine tx m) : Stays fine tx m.attempt :=
  fun _ hk => hm _ fun _ => hk _

theorem stays_ask (q : S.Ask) : Stays fine tx (ask q : Script S E (S.Answer q)) :=
  fun _ hk a => hk (.ok a)

theorem stays_read (q : S.Query) : Stays fine tx (read failed q) := by
  intro k hk r
  cases r with
  | none => exact hk _
  | some a => exact hk _

theorem stays_write (key : S.Key) (stmt : S.Stmt key) :
    Stays fine true (write failed missing key stmt) := by
  refine fun k hk => ⟨rfl, fun r => ?_⟩
  cases r with
  | failed => exact hk _
  | noRows => exact hk _
  | row new => exact hk _

/-- A transaction whose caller only asks after it. -/
theorem commitsOnce_transaction {body : Script S E α} (hbody : Stays fine true body)
    {k : Except E α → Prog S} (herror : ∀ e, Spent (fun _ => True) (k (.error e)))
    (hok : ∀ a, Spent fine (k (.ok a))) :
    CommitsOnce fine (transaction failed false body k) tx := by
  refine ⟨(herror failed).commitsOnce _, hbody _ fun r => ?_⟩
  cases r with
  | ok a => exact ⟨herror failed, hok a⟩
  | error e => exact (herror e).commitsOnce _

end Script

end ReadCommitted
