import Pivox.ReadCommitted.Session

/-!
Rely-guarantee reasoning about the sessions of a READ COMMITTED store: what a program may assume
of the commits of the others between its statements, and what it promises of its own.
-/

namespace ReadCommitted
open Transition
variable {S : Schema} {Op : Type}

/-- `allow`, `accept`, `see` and `fit` are conditions that a run is asked to meet (on the row a write
lands on, on an answer from outside, on the rows a query sees, on what a session commits); `spared` is
one on the commits that the others make while a session is under way. -/
structure Contract (S : Schema) (Op : Type) where
  Inv : Db S → Prop
  rely : Log S Op → Db S → Db S → Prop
  guar : Log S Op → Db S → Db S → Prop
  allow : (k : S.Key) → S.Stmt k → Option (S.Row k) → Prop
  accept : Db S → (q : S.Ask) → S.Answer q → Prop
  see : Log S Op → Db S → S.Query → Prop := fun _ _ _ => True
  fit : Log S Op → Db S → Db S → Prop
  spared : Log S Op → Db S → Db S → Prop
  rely_refl : ∀ (log : Log S Op) db, rely log db db
  rely_trans : ∀ (log : Log S Op) db₁ db₂ db₃, rely log db₁ db₂ → rely log db₂ db₃ → rely log db₁ db₃
  rely_mono : ∀ (e : Event S) (log : Log S Op) db db', rely (log.add e) db db' → rely log db db'
  inv_guar : ∀ (log : Log S Op) db db', Inv db → guar log db db' → Inv db'
  rely_guar : ∀ (log log' : Log S Op) db db', Inv db → guar log db db' → spared log' db db' →
    rely log' db db'

variable (Γ : Contract S Op)

/-- What may have happened to the committed rows since a session last looked. -/
structure Later (own : Pending S) (log : Log S Op) (db db' : Db S) : Prop where
  inv : Γ.Inv db'
  rely : Γ.rely log db db'
  own : ∀ k ∈ own, db'.lookup k = db.lookup k

def Safe : Prog S → Mode → Pending S → Log S Op → Db S → Prop
  | .done, _, _, _, _ => True
  | .beginTx next, _, own, log, db => ∀ db', Later Γ own log db db' →
    Safe (next false) .idle ∅ log db' ∧ Safe (next true) .active ∅ log db'
  | .commit next, mode, own, log, db => ∀ db', Later Γ own log db db' →
    Safe (next false) .idle ∅ log db' ∧
    (mode = .active → (Γ.fit log db' (overlay own db') → Γ.guar log db' (overlay own db')) ∧
      Safe (next true) .idle ∅ log (overlay own db') ∧
      Safe (next false) .idle ∅ log (overlay own db'))
  | .rollback next, _, own, log, db => ∀ db', Later Γ own log db db' →
    Safe next .idle ∅ log db'
  | .read q next, mode, own, log, db => ∀ db', Later Γ own log db db' →
    Safe (next none) mode.failed ∅ log db' ∧
    (mode ≠ .aborted → Γ.see log (overlay own db') q →
      Safe (next (some (S.answer q (overlay own db')))) mode own
        (log.add (.read q (S.answer q (overlay own db')))) db')
  | .write k stmt next, mode, own, log, db => ∀ db', Later Γ own log db db' →
    Safe (next .failed) mode.failed ∅ log db' ∧
    (mode ≠ .aborted → S.exec k stmt ((overlay own db').lookup k) = none →
      Safe (next .noRows) mode own log db') ∧
    (∀ new, S.exec k stmt ((overlay own db').lookup k) = some new →
      Γ.allow k stmt ((overlay own db').lookup k) →
      (mode = .active → Safe (next (.row new)) .active (own.insert k new) log db') ∧
      (mode = .idle → (Γ.fit log db' (put db' k new) → Γ.guar log db' (put db' k new)) ∧
        Safe (next (.row new)) .idle ∅ log (put db' k new) ∧
        Safe (next .failed) .idle ∅ log (put db' k new)))
  | .ask q next, mode, own, log, db => ∀ db', Later Γ own log db db' →
    ∀ a, Γ.accept db' q a → Safe (next a) mode own (log.add (.answered q a)) db'

variable {Γ}

theorem Later.refl {db : Db S} (h : Γ.Inv db) (own : Pending S) (log : Log S Op) :
    Later Γ own log db db :=
  ⟨h, Γ.rely_refl log db, fun _ _ => rfl⟩

theorem Later.trans {own : Pending S} {log : Log S Op} {db₁ db₂ db₃ : Db S}
    (h : Later Γ own log db₁ db₂) (h' : Later Γ own log db₂ db₃) :
    Later Γ own log db₁ db₃ :=
  ⟨h'.inv, Γ.rely_trans _ _ _ _ h.rely h'.rely, fun k hk => (h'.own k hk).trans (h.own k hk)⟩

theorem Safe.later {code : Prog S} {mode : Mode} {own : Pending S} {log : Log S Op} {db db' : Db S}
    (h : Safe Γ code mode own log db) (hl : Later Γ own log db db') :
    Safe Γ code mode own log db' := by
  cases code with
  | done => trivial
  | beginTx next => exact fun d hd => h d (hl.trans hd)
  | commit next => exact fun d hd => h d (hl.trans hd)
  | rollback next => exact fun d hd => h d (hl.trans hd)
  | read q next => exact fun d hd => h d (hl.trans hd)
  | write k stmt next => exact fun d hd => h d (hl.trans hd)
  | ask q next => exact fun d hd => h d (hl.trans hd)

/-- Whatever an operation does is safe under a contract that asks nothing of its commits. -/
theorem safe_of_guar {code : Prog S} {mode : Mode} {own : Pending S} {log : Log S Op} {db : Db S}
    (h : ∀ log' : Log S Op, log'.op = log.op → ∀ db db', Γ.guar log' db db') :
    Safe Γ code mode own log db := by
  induction code generalizing mode own log db with
  | done => trivial
  | beginTx next ih => exact fun _ _ => ⟨ih _ h, ih _ h⟩
  | commit next ih => exact fun _ _ => ⟨ih _ h, fun _ => ⟨fun _ => h _ rfl _ _, ih _ h, ih _ h⟩⟩
  | rollback next ih => exact fun _ _ => ih h
  | read q next ih => exact fun _ _ => ⟨ih _ h, fun _ _ => ih _ h⟩
  | write k stmt next ih =>
    exact fun _ _ => ⟨ih _ h, fun _ _ => ih _ h, fun _ _ _ =>
      ⟨fun _ => ih _ h, fun _ => ⟨fun _ => h _ rfl _ _, ih _ h, ih _ h⟩⟩⟩
  | ask q next ih => exact fun _ _ _ _ => ih _ h

/- `log'` is an earlier log of the session that now has `log`. -/
inductive Log.Before (log' : Log S Op) : Log S Op → Prop where
  | refl : Before log' log'
  | add {log : Log S Op} (e : Event S) : Before log' log → Before log' (log.add e)

theorem rely_before {log log' : Log S Op} (h : log'.Before log) {db db' : Db S}
    (hr : Γ.rely log db db') : Γ.rely log' db db' := by
  induction h with
  | refl => exact hr
  | add e _ ih => exact ih (Γ.rely_mono _ _ _ _ hr)

variable (Γ)

/- A session under way keeps two promises: the code it is at is safe, and so is the one a retry
   would go back to. -/
structure Session.Ok (db : Db S) (s : Session S Op) : Prop where
  own : s.mode ≠ .active → s.own = ∅
  safe : Safe Γ s.code s.mode s.own s.log db
  saved : s.mode ≠ .idle → s.code.isDone = false →
    Safe Γ s.saved.1 .idle ∅ s.saved.2 db ∧ s.saved.2.Before s.log

structure State.Ok (st : State S Op) : Prop where
  inv : Γ.Inv st.db
  sessions : ∀ (p : Nat) (s : Session S Op), st.sessions[p]? = some s → s.Ok Γ st.db
  locks : ∀ (p q : Nat) (s t : Session S Op), p ≠ q → st.sessions[p]? = some s →
    st.sessions[q]? = some t → ∀ k ∈ s.own, k ∉ t.own

/-- The condition on a step under which the contract is kept. -/
structure Contract.Meets (code : Op → Prog S) (st : State S Op) (l : Label S Op) : Prop where
  allows : ∀ (p : Nat) (s : Session S Op) (a : Act S) (k : S.Key) (stmt : S.Stmt k)
    (next : Reply S k → Prog S), l = .act p a → a.executes = true → st.sessions[p]? = some s →
    s.code = .write k stmt next → Γ.allow k stmt ((overlay s.own st.db).lookup k)
  accepts : ∀ (p : Nat) (q : S.Ask) (a : S.Answer q), l = .act p (.answer q a) →
    Γ.accept st.db q a
  sees : ∀ (p : Nat) (s : Session S Op) (q : S.Query) (next : Option (S.Result q) → Prog S),
    l = .run p → st.sessions[p]? = some s → s.code = .read q next → s.mode ≠ .aborted →
    Γ.see s.log (overlay s.own st.db) q := by intros; trivial
  fits : ∀ (st' : State S Op) (p : Nat) (a : Act S) (s : Session S Op), l = .act p a →
    step code st l = some st' → st.sessions[p]? = some s → st'.db ≠ st.db →
    Γ.fit s.log st.db st'.db
  spares : ∀ (st' : State S Op) (p q : Nat) (a : Act S) (t : Session S Op), l = .act p a →
    step code st l = some st' → p ≠ q → st.sessions[q]? = some t → t.code.isDone = false →
    Γ.spared t.log st.db st'.db

variable {Γ}

/- What one act of a session does to the committed rows and to its own locks. -/
structure Kept (Γ : Contract S Op) (s s' : Session S Op) (locked : S.Key → Bool)
    (db db' : Db S) : Prop where
  ok : s'.Ok Γ db'
  guar : db' = db ∨ (Γ.fit s.log db db' → Γ.guar s.log db db')
  frame : ∀ k, locked k = true → db'.lookup k = db.lookup k
  locks : ∀ k ∈ s'.own, k ∈ s.own ∨ locked k = false

theorem Kept.still {s s' : Session S Op} {locked : S.Key → Bool} {db : Db S} (hok : s'.Ok Γ db)
    (hown : ∀ k ∈ s'.own, k ∈ s.own) : Kept Γ s s' locked db db :=
  ⟨hok, .inl rfl, fun _ _ => rfl, fun k hk => .inl (hown k hk)⟩

section act
variable {s s' : Session S Op} {locked : S.Key → Bool} {db db' : Db S}

theorem lookup_overlay_of_unlocked {own : Pending S} (hlock : ∀ k ∈ own, locked k = false)
    {k : S.Key} (hk : locked k = true) (db : Db S) : (overlay own db).lookup k = db.lookup k := by
  refine lookup_overlay_of_notMem (fun hmem => ?_) db
  simp [hlock k hmem] at hk

theorem Session.Ok.commit (hok : s.Ok Γ db) (hinv : Γ.Inv db)
    (hlock : ∀ k ∈ s.own, locked k = false) {next : Bool → Prog S}
    (hcode : s.code = .commit next) :
    Kept Γ s (s.commit db next).1 locked db (s.commit db next).2 := by
  obtain ⟨hfail, hdone⟩ := (hcode ▸ hok.safe) db (.refl hinv _ _)
  by_cases hm : s.mode = .active
  · obtain ⟨hguar, hsafe, -⟩ := hdone hm
    simp only [Session.commit, hm]
    refine ⟨⟨fun _ => rfl, hsafe, fun h => absurd rfl h⟩, .inr hguar, fun k hk => ?_,
      fun k hk => absurd hk (AList.notMem_empty k)⟩
    exact lookup_overlay_of_unlocked hlock hk db
  · have heq : s.commit db next = ({ s with code := next false, mode := .idle, own := ∅ }, db) := by
      unfold Session.commit
      split
      · contradiction
      · rfl
    rw [heq]
    exact .still ⟨fun _ => rfl, hfail, fun h => absurd rfl h⟩
      fun k hk => absurd hk (AList.notMem_empty k)

theorem Session.Ok.read (hok : s.Ok Γ db) (hinv : Γ.Inv db) {q : S.Query}
    {next : Option (S.Result q) → Prog S} (hcode : s.code = .read q next)
    (hsee : s.mode ≠ .aborted → Γ.see s.log (overlay s.own db) q) :
    Kept Γ s (s.read db q next) locked db db := by
  obtain ⟨hfail, hrow⟩ := (hcode ▸ hok.safe) db (.refl hinv _ _)
  have hsaved := fun h => hok.saved h (by rw [hcode]; rfl)
  by_cases hm : s.mode = .aborted
  · have hown : s.own = ∅ := hok.own (by simp [hm])
    simp only [Session.read, hm]
    rw [hm] at hfail
    exact .still ⟨fun _ => hown, by simpa [hown] using hfail,
      fun h _ => hsaved (by simp [hm])⟩ fun k hk => hk
  · have heq : s.read db q next = { s with
        code := next (some (S.answer q (overlay s.own db))), 
        log := s.log.add (.read q (S.answer q (overlay s.own db))) } := by
      unfold Session.read
      split
      · contradiction
      · rfl
    rw [heq]
    refine .still ⟨hok.own, hrow hm (hsee hm), fun h _ => ?_⟩ fun k hk => hk
    obtain ⟨hs, hlog⟩ := hsaved h
    exact ⟨hs, hlog.add _⟩

theorem Session.Ok.write (hok : s.Ok Γ db) (hinv : Γ.Inv db) {k : S.Key} {stmt : S.Stmt k}
    {next : Reply S k → Prog S} (hcode : s.code = .write k stmt next)
    (hallow : Γ.allow k stmt ((overlay s.own db).lookup k))
    (h : s.write locked db k stmt next = some (s', db')) : Kept Γ s s' locked db db' := by
  obtain ⟨hfail, hmiss, hhit⟩ := (hcode ▸ hok.safe) db (.refl hinv _ _)
  have hsaved := fun h => hok.saved h (by rw [hcode]; rfl)
  cases hm : s.mode with
  | aborted =>
    have hown : s.own = ∅ := hok.own (by simp [hm])
    simp only [Session.write, hm, Option.some.injEq, Prod.mk.injEq] at h
    obtain ⟨rfl, rfl⟩ := h
    exact .still ⟨fun _ => hown, by simpa [hm, hown] using hfail,
      fun _ _ => hsaved (by simp [hm])⟩ fun k hk => hk
  | active =>
    cases hx : S.exec k stmt ((overlay s.own db).lookup k) with
    | none =>
      simp only [Session.write, hm, hx, Option.some.injEq, Prod.mk.injEq] at h
      obtain ⟨rfl, rfl⟩ := h
      exact .still ⟨fun hne => absurd rfl hne, hm ▸ hmiss (by simp [hm]) hx,
        fun _ _ => hsaved (by simp [hm])⟩ fun k hk => hk
    | some new =>
      have hsafe := (hhit new hx hallow).1 hm
      simp only [Session.write, hm, hx] at h
      split at h
      · cases h
      · rename_i hfree
        obtain ⟨rfl, rfl⟩ := by simpa using h
        refine ⟨⟨fun hne => absurd rfl hne, hsafe, fun _ _ => hsaved (by simp [hm])⟩,
          .inl rfl, fun _ _ => rfl, fun k' hk' => ?_⟩
        obtain rfl | hk' := (AList.mem_insert s.own).mp hk'
        · exact .inr (by simpa using hfree)
        · exact .inl hk'
  | idle =>
    have hown : s.own = ∅ := hok.own (by simp [hm])
    rw [hown, overlay_empty] at hallow hhit hmiss
    cases hx : S.exec k stmt (db.lookup k) with
    | none =>
      simp only [Session.write, hm, hx, Option.some.injEq, Prod.mk.injEq] at h
      obtain ⟨rfl, rfl⟩ := h
      exact .still ⟨fun _ => hown, by simpa [hm, hown] using hmiss (by simp [hm]) hx,
        fun hne => absurd rfl hne⟩ fun k hk => hk
    | some new =>
      obtain ⟨hguar, hsafe, -⟩ := (hhit new hx hallow).2 hm
      simp only [Session.write, hm, hx] at h
      split at h
      · cases h
      · rename_i hfree
        obtain ⟨rfl, rfl⟩ := by simpa using h
        refine ⟨⟨fun _ => hown, by simpa [hown] using hsafe, fun hne => absurd rfl hne⟩,
          .inr hguar, fun k' hk' => ?_, fun k' hk' => .inl hk'⟩
        refine lookup_put_ne db new ?_
        rintro rfl
        exact hfree hk'

theorem Session.Ok.run (hok : s.Ok Γ db) (hinv : Γ.Inv db)
    (hlock : ∀ k ∈ s.own, locked k = false)
    (hallow : ∀ (k : S.Key) (stmt : S.Stmt k) (next : Reply S k → Prog S),
      s.code = .write k stmt next → Γ.allow k stmt ((overlay s.own db).lookup k))
    (hsee : ∀ (q : S.Query) (next : Option (S.Result q) → Prog S), s.code = .read q next →
      s.mode ≠ .aborted → Γ.see s.log (overlay s.own db) q)
    (h : s.run locked db = some (s', db')) : Kept Γ s s' locked db db' := by
  cases hcode : s.code with
  | done => simp [Session.run, hcode] at h
  | ask q next => simp [Session.run, hcode] at h
  | beginTx next =>
    obtain ⟨-, hsafe⟩ := (hcode ▸ hok.safe) db (.refl hinv _ _)
    cases hm : s.mode with
    | active => simp [Session.run, hcode, hm] at h
    | aborted => simp [Session.run, hcode, hm] at h
    | idle =>
      have hown : s.own = ∅ := hok.own (by simp [hm])
      have hsaved : Safe Γ s.code .idle ∅ s.log db := by simpa [hm, hown] using hok.safe
      simp only [Session.run, hcode, hm, Option.some.injEq, Prod.mk.injEq] at h
      obtain ⟨rfl, rfl⟩ := h
      exact .still ⟨fun hne => absurd rfl hne, hsafe,
        fun _ _ => ⟨hcode ▸ hsaved, Log.Before.refl⟩⟩ fun k hk => absurd hk (AList.notMem_empty k)
  | commit next =>
    have hkept := hok.commit hinv hlock hcode
    simp only [Session.run, hcode, Option.some.injEq] at h
    rwa [h] at hkept
  | rollback next =>
    have hsafe := (hcode ▸ hok.safe) db (.refl hinv _ _)
    simp only [Session.run, hcode, Option.some.injEq, Prod.mk.injEq] at h
    obtain ⟨rfl, rfl⟩ := h
    exact .still ⟨fun _ => rfl, hsafe, fun hne => absurd rfl hne⟩
      fun k hk => absurd hk (AList.notMem_empty k)
  | read q next =>
    simp only [Session.run, hcode, Option.some.injEq, Prod.mk.injEq] at h
    obtain ⟨rfl, rfl⟩ := h
    exact hok.read hinv hcode (hsee q next hcode)
  | write k stmt next =>
    simp only [Session.run, hcode] at h
    exact hok.write hinv hcode (hallow k stmt next hcode) h

theorem Session.Ok.fail (hok : s.Ok Γ db) (hinv : Γ.Inv db) (h : s.fail = some s') :
    s'.Ok Γ db ∧ ∀ k ∈ s'.own, k ∈ s.own := by
  have hfree : ∀ k : S.Key, k ∈ (∅ : Pending S) → k ∈ s.own :=
    fun k hk => absurd hk (AList.notMem_empty k)
  have hsaved : s.mode.failed ≠ .idle → s.mode ≠ .idle := by
    cases s.mode <;> simp
  cases hcode : s.code with
  | done => simp [Session.fail, hcode] at h
  | ask q next => simp [Session.fail, hcode] at h
  | rollback next => simp [Session.fail, hcode] at h
  | beginTx next =>
    obtain ⟨hsafe, -⟩ := (hcode ▸ hok.safe) db (.refl hinv _ _)
    simp only [Session.fail, hcode, Option.some.injEq] at h
    subst h
    exact ⟨⟨fun _ => rfl, hsafe, fun hne => absurd rfl hne⟩, hfree⟩
  | commit next =>
    obtain ⟨hsafe, -⟩ := (hcode ▸ hok.safe) db (.refl hinv _ _)
    simp only [Session.fail, hcode, Option.some.injEq] at h
    subst h
    exact ⟨⟨fun _ => rfl, hsafe, fun hne => absurd rfl hne⟩, hfree⟩
  | read q next =>
    obtain ⟨hsafe, -⟩ := (hcode ▸ hok.safe) db (.refl hinv _ _)
    simp only [Session.fail, hcode, Option.some.injEq] at h
    subst h
    exact ⟨⟨fun _ => rfl, hsafe,
      fun hne _ => hok.saved (hsaved hne) (by rw [hcode]; rfl)⟩, hfree⟩
  | write k stmt next =>
    obtain ⟨hsafe, -⟩ := (hcode ▸ hok.safe) db (.refl hinv _ _)
    simp only [Session.fail, hcode, Option.some.injEq] at h
    subst h
    exact ⟨⟨fun _ => rfl, hsafe,
      fun hne _ => hok.saved (hsaved hne) (by rw [hcode]; rfl)⟩, hfree⟩

theorem Session.Ok.lose (hok : s.Ok Γ db) (hinv : Γ.Inv db)
    (hlock : ∀ k ∈ s.own, locked k = false)
    (hallow : ∀ (k : S.Key) (stmt : S.Stmt k) (next : Reply S k → Prog S),
      s.code = .write k stmt next → Γ.allow k stmt ((overlay s.own db).lookup k))
    (h : s.lose locked db = some (s', db')) : Kept Γ s s' locked db db' := by
  unfold Session.lose at h
  split at h
  · rename_i next hcode hm
    obtain ⟨-, hdone⟩ := (hcode ▸ hok.safe) db (.refl hinv _ _)
    obtain ⟨hguar, -, hsafe⟩ := hdone hm
    obtain ⟨rfl, rfl⟩ := by simpa using h
    refine ⟨⟨fun _ => rfl, hsafe, fun h => absurd rfl h⟩, .inr hguar, fun k hk => ?_,
      fun k hk => absurd hk (AList.notMem_empty k)⟩
    exact lookup_overlay_of_unlocked hlock hk db
  · rename_i k stmt next hcode hm
    have hown : s.own = ∅ := hok.own (by simp [hm])
    have hallow := hallow k stmt next hcode
    obtain ⟨-, -, hhit⟩ := (hcode ▸ hok.safe) db (.refl hinv _ _)
    rw [hown, overlay_empty] at hallow hhit
    split at h
    · cases h
    · rename_i new hx
      obtain ⟨hguar, -, hsafe⟩ := (hhit new hx hallow).2 hm
      split at h
      · cases h
      · rename_i hfree
        obtain ⟨rfl, rfl⟩ := by simpa using h
        refine ⟨⟨fun _ => hown, by simpa [hm, hown] using hsafe, fun hne => absurd hm hne⟩,
          .inr hguar, fun k' hk' => ?_, fun k' hk' => .inl hk'⟩
        refine lookup_put_ne db new ?_
        rintro rfl
        exact hfree hk'
  · cases h

theorem Session.Ok.answer (hok : s.Ok Γ db) (hinv : Γ.Inv db) {q : S.Ask} {a : S.Answer q}
    (haccept : Γ.accept db q a) (h : s.answer q a = some s') :
    s'.Ok Γ db ∧ ∀ k ∈ s'.own, k ∈ s.own := by
  cases hcode : s.code with
  | ask q' next =>
    have hsafe := (hcode ▸ hok.safe) db (.refl hinv _ _)
    simp only [Session.answer, hcode] at h
    split at h
    · rename_i hq
      subst hq
      simp only [Option.some.injEq] at h
      subst h
      refine ⟨⟨hok.own, hsafe a haccept, fun hne _ => ?_⟩, fun k hk => hk⟩
      obtain ⟨hs, hlog⟩ := hok.saved hne (by rw [hcode]; rfl)
      exact ⟨hs, hlog.add _⟩
    · cases h
  | _ => simp [Session.answer, hcode] at h

theorem Session.Ok.retry (hok : s.Ok Γ db) (h : s.retry = some s') :
    s'.Ok Γ db ∧ ∀ k ∈ s'.own, k ∈ s.own := by
  unfold Session.retry at h
  split at h
  · cases h
  · rename_i hne
    simp only [Bool.or_eq_true, decide_eq_true_eq, not_or, Bool.not_eq_true] at hne
    simp only [Option.some.injEq] at h
    subst h
    exact ⟨⟨fun _ => rfl, (hok.saved hne.2 hne.1).1, fun h => absurd rfl h⟩,
      fun k hk => absurd hk (AList.notMem_empty k)⟩

theorem Session.ok_crash : s.crash.Ok Γ db :=
  ⟨fun _ => rfl, trivial, fun h => absurd rfl h⟩

/-- What others commit leaves a session that relies on it in order. -/
theorem Session.Ok.later (hok : s.Ok Γ db)
    (hl : s.code.isDone = false → Later Γ s.own s.log db db') : s.Ok Γ db' := by
  cases hd : s.code.isDone with
  | true =>
    refine ⟨hok.own, ?_, fun _ h => by simp [hd] at h⟩
    cases hcode : s.code with
    | done => trivial
    | _ => simp [hcode, Prog.isDone] at hd
  | false =>
    refine ⟨hok.own, hok.safe.later (hl hd), fun hne _ => ?_⟩
    obtain ⟨hs, hlog⟩ := hok.saved hne hd
    refine ⟨hs.later ⟨(hl hd).inv, rely_before hlog (hl hd).rely, fun k hk => ?_⟩, hlog⟩
    exact absurd hk (AList.notMem_empty k)

theorem Session.Ok.act {a : Act S} (hok : s.Ok Γ db) (hinv : Γ.Inv db)
    (hlock : ∀ k ∈ s.own, locked k = false)
    (hallow : a.executes = true → ∀ (k : S.Key) (stmt : S.Stmt k) (next : Reply S k → Prog S),
      s.code = .write k stmt next → Γ.allow k stmt ((overlay s.own db).lookup k))
    (haccept : ∀ (q : S.Ask) (x : S.Answer q), a = .answer q x → Γ.accept db q x)
    (hsee : a = .run → ∀ (q : S.Query) (next : Option (S.Result q) → Prog S), s.code = .read q next →
      s.mode ≠ .aborted → Γ.see s.log (overlay s.own db) q)
    (h : s.act locked db a = some (s', db')) : Kept Γ s s' locked db db' := by
  cases a with
  | run => exact hok.run hinv hlock (hallow rfl) (hsee rfl) h
  | lose => exact hok.lose hinv hlock (hallow rfl) h
  | fail =>
    obtain ⟨t, ht, heq⟩ := Option.map_eq_some_iff.mp h
    obtain ⟨rfl, rfl⟩ := Prod.mk.inj heq
    obtain ⟨hok', hown⟩ := hok.fail hinv ht
    exact .still hok' hown
  | answer q x =>
    obtain ⟨t, ht, heq⟩ := Option.map_eq_some_iff.mp h
    obtain ⟨rfl, rfl⟩ := Prod.mk.inj heq
    obtain ⟨hok', hown⟩ := hok.answer hinv (haccept q x rfl) ht
    exact .still hok' hown
  | retry =>
    obtain ⟨t, ht, heq⟩ := Option.map_eq_some_iff.mp h
    obtain ⟨rfl, rfl⟩ := Prod.mk.inj heq
    obtain ⟨hok', hown⟩ := hok.retry ht
    exact .still hok' hown
  | crash =>
    obtain ⟨rfl, rfl⟩ := by simpa [Session.act] using h
    exact .still Session.ok_crash fun k hk => absurd hk (AList.notMem_empty k)

end act

theorem lockedBy_eraseIdx {sessions : List (Session S Op)} {p : Nat} {k : S.Key} :
    lockedBy (sessions.eraseIdx p) k = true ↔
      ∃ q t, q ≠ p ∧ sessions[q]? = some t ∧ k ∈ t.own := by
  simp only [lockedBy, List.any_eq_true, decide_eq_true_eq, List.mem_eraseIdx_iff_getElem?]
  constructor
  · rintro ⟨t, ⟨q, hq, ht⟩, hk⟩
    exact ⟨q, t, hq, ht, hk⟩
  · rintro ⟨q, t, hq, ht, hk⟩
    exact ⟨t, ⟨q, hq, ht⟩, hk⟩

section state
variable {code : Op → Prog S} {st st' : State S Op} {l : Label S Op}

theorem State.Ok.spawn (hok : st.Ok Γ) {op : Op} (hsafe : Safe Γ (code op) .idle ∅ (.start op) st.db) :
    State.Ok Γ ⟨st.db, st.sessions ++ [Session.start code op]⟩ := by
  have hcases : ∀ (p : Nat) (s : Session S Op),
      (st.sessions ++ [Session.start code op])[p]? = some s →
      st.sessions[p]? = some s ∨ s = .start code op := by
    intro p s hs
    rw [List.getElem?_append] at hs
    split at hs
    · exact .inl hs
    · exact .inr (by simpa using List.mem_of_getElem? hs)
  refine ⟨hok.inv, fun p s hs => ?_, fun p q s t hpq hs ht k hk => ?_⟩
  · obtain hs | rfl := hcases p s hs
    · exact hok.sessions p s hs
    · exact ⟨fun _ => rfl, hsafe, fun hne => absurd rfl hne⟩
  · obtain hs | rfl := hcases p s hs
    · obtain ht | rfl := hcases q t ht
      · exact hok.locks p q s t hpq hs ht k hk
      · exact AList.notMem_empty k
    · exact absurd hk (AList.notMem_empty k)

/-- Step lemma: a step that meets its condition keeps every session in order, and changes the
committed rows only as the contract of the session that moved guarantees. -/
theorem State.Ok.step (hok : st.Ok Γ)
    (hsafe : ∀ op db, Γ.Inv db → Safe Γ (code op) .idle ∅ (.start op) db)
    (hmeets : Γ.Meets code st l) (h : step code st l = some st') :
    st'.Ok Γ ∧ (st'.db = st.db ∨ ∃ p s a, l = .act p a ∧ st.sessions[p]? = some s ∧
      Γ.guar s.log st.db st'.db) := by
  cases l with
  | spawn op =>
    obtain rfl := Option.some.inj h
    exact ⟨hok.spawn (hsafe op st.db hok.inv), .inl rfl⟩
  | act p a =>
    obtain ⟨s, s', hs, hact, hset⟩ := step_act h
    have hkept : Kept Γ s s' (lockedBy (st.sessions.eraseIdx p)) st.db st'.db := by
      refine (hok.sessions p s hs).act hok.inv (fun k hk => ?_)
        (fun ha k stmt next hcode => hmeets.allows p s a k stmt next rfl ha hs hcode)
        (fun q x ha => hmeets.accepts p q x (by rw [ha]))
        (fun ha q next hcode hm => hmeets.sees p s q next (by rw [ha]) hs hcode hm) hact
      rw [Bool.eq_false_iff, ne_eq, lockedBy_eraseIdx]
      rintro ⟨q, t, hqp, ht, hkt⟩
      exact hok.locks p q s t (Ne.symm hqp) hs ht k hk hkt
    have hguar : st'.db = st.db ∨ Γ.guar s.log st.db st'.db := by
      by_cases heq : st'.db = st.db
      · exact .inl heq
      · exact .inr ((hkept.guar.resolve_left heq) (hmeets.fits st' p a s rfl h hs heq))
    have hinv : Γ.Inv st'.db := by
      obtain heq | hguar := hguar
      · rw [heq]
        exact hok.inv
      · exact Γ.inv_guar _ _ _ hok.inv hguar
    have hcases : ∀ (q : Nat) (t : Session S Op), st'.sessions[q]? = some t →
        (q = p ∧ t = s') ∨ (q ≠ p ∧ st.sessions[q]? = some t) := by
      intro q t ht
      rw [hset, List.getElem?_set] at ht
      split at ht
      · rename_i hpq
        split at ht
        · exact .inl ⟨hpq.symm, by simpa using ht.symm⟩
        · cases ht
      · rename_i hpq
        exact .inr ⟨Ne.symm hpq, ht⟩
    refine ⟨⟨hinv, fun q t ht => ?_, fun q r t u hqr ht hu k hkt hku => ?_⟩, ?_⟩
    · obtain ⟨rfl, rfl⟩ | ⟨hqp, ht⟩ := hcases q t ht
      · exact hkept.ok
      · refine (hok.sessions q t ht).later fun hd => ⟨hinv, ?_, fun k hk => ?_⟩
        · obtain heq | hguar := hguar
          · rw [heq]
            exact Γ.rely_refl _ _
          · exact Γ.rely_guar _ _ _ _ hok.inv hguar
              (hmeets.spares st' p q a t rfl h (Ne.symm hqp) ht hd)
        · exact hkept.frame k (lockedBy_eraseIdx.mpr ⟨q, t, hqp, ht, hk⟩)
    · have hnew : ∀ (r : Nat) (u : Session S Op), r ≠ p → st.sessions[r]? = some u →
          k ∈ s'.own → k ∉ u.own := by
        intro r u hrp hu hk hku
        obtain hk | hk := hkept.locks k hk
        · exact hok.locks p r s u (Ne.symm hrp) hs hu k hk hku
        · rw [Bool.eq_false_iff, ne_eq, lockedBy_eraseIdx] at hk
          exact hk ⟨r, u, hrp, hu, hku⟩
      obtain ⟨rfl, rfl⟩ | ⟨hqp, ht⟩ := hcases q t ht
      · obtain ⟨rfl, rfl⟩ | ⟨hrp, hu⟩ := hcases r u hu
        · exact hqr rfl
        · exact hnew r u hrp hu hkt hku
      · obtain ⟨rfl, rfl⟩ | ⟨hrp, hu⟩ := hcases r u hu
        · exact hnew q t hqp ht hku hkt
        · exact hok.locks q r t u hqr ht hu k hkt hku
    · exact hguar.imp id fun hguar => ⟨p, s, a, rfl, hs, hguar⟩

/-- Run lemma of `State.Ok.step`. -/
theorem State.Ok.runs {C : State S Op → Label S Op → Prop} (hok : st.Ok Γ)
    (hsafe : ∀ op db, Γ.Inv db → Safe Γ (code op) .idle ∅ (.start op) db)
    (hmeets : ∀ st l, C st l → Γ.Meets code st l)
    (h : Runs (ReadCommitted.step code) C st st') : st'.Ok Γ :=
  h.invariant hok fun _ _ _ hok hc hs => (hok.step hsafe (hmeets _ _ hc) hs).1

/-- Whatever every guarantee implies, and is reflexive and transitive, holds between the committed
rows of any two states of a run. -/
theorem State.Ok.runs_rel {C : State S Op → Label S Op → Prop} (hok : st.Ok Γ)
    (hsafe : ∀ op db, Γ.Inv db → Safe Γ (code op) .idle ∅ (.start op) db)
    (hmeets : ∀ st l, C st l → Γ.Meets code st l) {T : Db S → Db S → Prop}
    (hrefl : ∀ db, T db db) (htrans : ∀ a b c, T a b → T b c → T a c)
    (hguar : ∀ log db db', Γ.guar log db db' → T db db')
    (h : Runs (ReadCommitted.step code) C st st') : T st.db st'.db := by
  induction h with
  | refl => exact hrefl _
  | tail hr hc hs ih =>
    obtain ⟨-, heq | ⟨p, s, a, -, -, hg⟩⟩ :=
      (hok.runs hsafe hmeets hr).step hsafe (hmeets _ _ hc) hs
    · rwa [heq]
    · exact htrans _ _ _ ih (hguar _ _ _ hg)

/- A store at rest: no transaction open, so only its rows matter. -/
def State.rest (db : Db S) : State S Op := ⟨db, []⟩

theorem State.ok_rest {db : Db S} (h : Γ.Inv db) : (State.rest db).Ok Γ :=
  ⟨h, fun p s hs => by simp [State.rest] at hs, fun p q s t _ hs => by simp [State.rest] at hs⟩

end state

end ReadCommitted
