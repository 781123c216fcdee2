import Pivox.ReadCommitted.Script

/-!
Proof outlines of transactions under a contract that speaks of several rows at once: what holds
between the statements, against the commits of the others, and what the COMMIT needs of it.
-/

namespace ReadCommitted
variable {S : Schema} {Op E α β : Type}

/-- What a session may know of its writes, its log and the rows around it, safe from the commits of
the others. -/
structure Assertion (Γ : Contract S Op) where
  holds : Pending S → Log S Op → Db S → Prop
  later : ∀ own log db db', holds own log db → Later Γ own log db db' → holds own log db'
  add : ∀ own log db (e : Event S), holds own log db → holds own (log.add e) db

namespace Assertion
variable {Γ : Contract S Op}

def top : Assertion Γ := ⟨fun _ _ _ => True, fun _ _ _ _ _ _ => trivial, fun _ _ _ _ _ => trivial⟩

def and (P Q : Assertion Γ) : Assertion Γ where
  holds own log db := P.holds own log db ∧ Q.holds own log db
  later own log db db' h hl := ⟨P.later own log db db' h.1 hl, Q.later own log db db' h.2 hl⟩
  add own log db e h := ⟨P.add own log db e h.1, Q.add own log db e h.2⟩

/- What does not depend on the session, once known. -/
def always (p : Prop) : Assertion Γ := ⟨fun _ _ _ => p, fun _ _ _ _ h _ => h, fun _ _ _ _ h => h⟩

def or (P Q : Assertion Γ) : Assertion Γ where
  holds own log db := P.holds own log db ∨ Q.holds own log db
  later own log db db' h hl := h.imp (P.later own log db db' · hl) (Q.later own log db db' · hl)
  add own log db e h := h.imp (P.add own log db e) (Q.add own log db e)

def about (op : Op) : Assertion Γ :=
  ⟨fun _ log _ => log.op = op, fun _ _ _ _ h _ => h, fun _ _ _ _ h => h⟩

/- What is known should `p` hold. -/
def given (p : Prop) (P : Assertion Γ) : Assertion Γ where
  holds own log db := p → P.holds own log db
  later own log db db' h hl hp := P.later own log db db' (h hp) hl
  add own log db e h hp := P.add own log db e (h hp)

/- Nothing written so far. -/
def unwritten : Assertion Γ :=
  ⟨fun own _ _ => own = ∅, fun _ _ _ _ h _ => h, fun _ _ _ _ h => h⟩

/- What is known of the pending writes alone. -/
def wrote (p : Pending S → Prop) : Assertion Γ :=
  ⟨fun own _ _ => p own, fun _ _ _ _ h _ => h, fun _ _ _ _ h => h⟩

end Assertion

variable {Γ : Contract S Op} {J P : Assertion Γ} {Q : α → Assertion Γ} {log : Log S Op} {db : Db S}

/- What an outline may count on for what follows the script. -/
structure Continues (J : Assertion Γ) (Q : α → Assertion Γ) (k : Except E α → Prog S) : Prop where
  ok : ∀ a own log db, Γ.Inv db → J.holds own log db → (Q a).holds own log db →
    Safe Γ (k (.ok a)) .active own log db
  error : ∀ e own log db, Γ.Inv db → J.holds own log db → Safe Γ (k (.error e)) .active own log db
  aborted : ∀ r log db, Γ.Inv db → Safe Γ (k r) .aborted ∅ log db

/-- Within a transaction the script keeps `J` wherever it leaves, and when it succeeds it leads from
`P` to `Q`; in an aborted transaction it does nothing. -/
structure Outline (J P : Assertion Γ) (m : Script S E α) (Q : α → Assertion Γ) : Prop where
  active : ∀ own log db (k : Except E α → Prog S), Γ.Inv db → J.holds own log db →
    P.holds own log db → Continues J Q k → Safe Γ (m k) .active own log db
  aborted : ∀ log db (k : Except E α → Prog S), Γ.Inv db →
    (∀ r log db, Γ.Inv db → Safe Γ (k r) .aborted ∅ log db) → Safe Γ (m k) .aborted ∅ log db

namespace Outline

theorem pure {a : α} : Outline J (Q a) (Pure.pure a : Script S E α) Q where
  active own log db _ hinv hJ hQ hk := hk.ok a own log db hinv hJ hQ
  aborted log db _ hinv hk := hk _ log db hinv

theorem ret (a : α) : Outline J P (Pure.pure a : Script S E α) fun _ => P :=
  @pure S Op E α Γ J (fun _ => P) a

theorem throw (e : E) : Outline J P (MonadExcept.throw e : Script S E α) Q where
  active own log db _ hinv hJ _ hk := hk.error e own log db hinv hJ
  aborted log db _ hinv hk := hk _ log db hinv

theorem bind {m : Script S E α} {f : α → Script S E β} {R : α → Assertion Γ} {Q : β → Assertion Γ}
    (hm : Outline J P m R) (hf : ∀ a, Outline J (R a) (f a) Q) : Outline J P (m >>= f) Q where
  active own log db k hinv hJ hP hk := by
    refine hm.active own log db _ hinv hJ hP ⟨?_, ?_, ?_⟩
    · exact fun a own log db hinv hJ hR => (hf a).active own log db k hinv hJ hR hk
    · exact fun e own log db hinv hJ => hk.error e own log db hinv hJ
    · intro r log db hinv
      cases r with
      | ok a => exact (hf a).aborted log db k hinv hk.aborted
      | error e => exact hk.aborted _ log db hinv
  aborted log db k hinv hk := by
    refine hm.aborted log db _ hinv fun r log db hinv => ?_
    cases r with
    | ok a => exact (hf a).aborted log db k hinv hk
    | error e => exact hk _ log db hinv

theorem conseq {m : Script S E α} {P' : Assertion Γ} {Q' : α → Assertion Γ}
    (hm : Outline J P' m Q')
    (hP : ∀ own log db, Γ.Inv db → J.holds own log db → P.holds own log db → P'.holds own log db)
    (hQ : ∀ a own log db, Γ.Inv db → J.holds own log db → (Q' a).holds own log db →
      (Q a).holds own log db) : Outline J P m Q where
  active own log db k hinv hJ hp hk := by
    refine hm.active own log db k hinv hJ (hP own log db hinv hJ hp) ⟨?_, hk.error, hk.aborted⟩
    exact fun a own log db hinv hJ hQ' => hk.ok a own log db hinv hJ (hQ a own log db hinv hJ hQ')
  aborted := hm.aborted

/-- What the whole script keeps, with its errors caught or not, is known again after it. -/
theorem also {m : Script S E α} {R : Assertion Γ} (hm : Outline (J.and R) P m Q) :
    Outline J (P.and R) m fun a => (Q a).and R where
  active own log db k hinv hJ hP hk := by
    refine hm.active own log db k hinv ⟨hJ, hP.2⟩ hP.1 ⟨?_, ?_, hk.aborted⟩
    · exact fun a own log db hinv hJR hQ => hk.ok a own log db hinv hJR.1 ⟨hQ, hJR.2⟩
    · exact fun e own log db hinv hJR => hk.error e own log db hinv hJR.1
  aborted := hm.aborted

theorem frame {m : Script S E α} (hm : Outline (J.and P) .top m fun _ => .top) :
    Outline J P m fun _ => P :=
  hm.also.conseq (fun _ _ _ _ _ hP => ⟨trivial, hP⟩) fun _ _ _ _ _ _ hQ => hQ.2

/- After a caught error the invariant is what is left. -/
def onOk (Q : α → Assertion Γ) : Except E α → Assertion Γ
  | .ok a => Q a
  | .error _ => .top

theorem attempt {m : Script S E α} (hm : Outline J P m Q) :
    Outline J P m.attempt (@onOk S Op E α Γ Q) where
  active own log db k hinv hJ hP hk := by
    refine hm.active own log db _ hinv hJ hP ⟨?_, ?_, ?_⟩
    · exact fun a own log db hinv hJ hQ => hk.ok (.ok a) own log db hinv hJ hQ
    · exact fun e own log db hinv hJ => hk.ok (.error e) own log db hinv hJ trivial
    · exact fun r log db hinv => hk.aborted (.ok r) log db hinv
  aborted log db _ hinv hk := hm.aborted log db _ hinv fun r log db hinv => hk _ log db hinv

theorem tryCatch {m : Script S E α} {h : E → Script S E α} (hm : Outline J P m Q)
    (hh : ∀ e, Outline J .top (h e) Q) : Outline J P (MonadExcept.tryCatch m h) Q where
  active own log db k hinv hJ hP hk := by
    refine hm.active own log db _ hinv hJ hP ⟨hk.ok, ?_, ?_⟩
    · exact fun e own log db hinv hJ => (hh e).active own log db k hinv hJ trivial hk
    · intro r log db hinv
      cases r with
      | ok a => exact hk.aborted _ log db hinv
      | error e => exact (hh e).aborted log db k hinv hk.aborted
  aborted log db k hinv hk := by
    refine hm.aborted log db _ hinv fun r log db hinv => ?_
    cases r with
    | ok a => exact hk _ log db hinv
    | error e => exact (hh e).aborted log db k hinv hk

theorem ask (q : S.Ask) : Outline J P (Script.ask q : Script S E (S.Answer q)) fun _ => P where
  active _ _ _ _ _ hJ hP hk db' hl _ _ :=
    hk.ok _ _ _ db' hl.inv (J.add _ _ _ _ (J.later _ _ _ _ hJ hl))
      (P.add _ _ _ _ (P.later _ _ _ _ hP hl))
  aborted _ _ _ _ hk db' hl _ _ := hk _ _ db' hl.inv

section statements
variable {failed noRows : E} {key : S.Key} {stmt : S.Stmt key}

/-- A query: what it answers, put together with what was known. -/
theorem read_seen {q : S.Query} {Q : S.Result q → Assertion Γ}
    (h : ∀ own log db, Γ.Inv db → Γ.see log (overlay own db) q → J.holds own log db →
      P.holds own log db → (Q (S.answer q (overlay own db))).holds own
        (log.add (.read q (S.answer q (overlay own db)))) db) :
    Outline J P (Script.read failed q) Q where
  active own log _ _ _ hJ hP hk db' hl :=
    ⟨hk.aborted _ _ db' hl.inv, fun _ hsee => hk.ok _ own _ db' hl.inv
      (J.add _ _ _ _ (J.later _ _ _ _ hJ hl))
      (h own log db' hl.inv hsee (J.later _ _ _ _ hJ hl) (P.later _ _ _ _ hP hl))⟩
  aborted _ _ _ _ hk db' hl := ⟨hk _ _ db' hl.inv, fun hne => absurd rfl hne⟩

theorem read {q : S.Query} {Q : S.Result q → Assertion Γ}
    (h : ∀ own log db, Γ.Inv db → J.holds own log db → P.holds own log db →
      (Q (S.answer q (overlay own db))).holds own
        (log.add (.read q (S.answer q (overlay own db)))) db) :
    Outline J P (Script.read failed q) Q :=
  read_seen fun own log db hinv _ hJ hP => h own log db hinv hJ hP

/- What a statement that hits its row leads to. -/
def Hits (J P : Assertion Γ) (key : S.Key) (stmt : S.Stmt key)
    (Q : Option (S.Row key) → Assertion Γ) : Prop :=
  ∀ own log db new, Γ.Inv db → J.holds own log db → P.holds own log db →
    S.exec key stmt ((overlay own db).lookup key) = some new →
    J.holds (own.insert key new) log db ∧ (Q new).holds (own.insert key new) log db

theorem write {Q : Option (S.Row key) → Assertion Γ} (h : Hits J P key stmt Q) :
    Outline J P (Script.write failed noRows key stmt) Q where
  active own log _ _ _ hJ hP hk db' hl := by
    have hJ' := J.later _ _ _ _ hJ hl
    have hP' := P.later _ _ _ _ hP hl
    refine ⟨hk.aborted _ _ db' hl.inv, fun _ _ => hk.error _ own log db' hl.inv hJ',
      fun new hx _ => ⟨fun _ => ?_, nofun⟩⟩
    obtain ⟨hnew, hQ⟩ := h own log db' new hl.inv hJ' hP' hx
    exact hk.ok new _ log db' hl.inv hnew hQ
  aborted _ _ _ _ hk db' hl :=
    ⟨hk _ _ db' hl.inv, fun hne => absurd rfl hne, fun _ _ _ => ⟨nofun, nofun⟩⟩

/-- A statement of which a miss is no error leads on from either. -/
theorem exec_cases {Q : Assertion Γ} (h : Hits J P key stmt fun _ => Q)
    (hmiss : ∀ own log db, J.holds own log db → P.holds own log db →
      S.exec key stmt ((overlay own db).lookup key) = none → Q.holds own log db) :
    Outline J P (Script.exec failed key stmt) fun _ => Q where
  active own log _ _ _ hJ hP hk db' hl := by
    have hJ' := J.later _ _ _ _ hJ hl
    have hP' := P.later _ _ _ _ hP hl
    refine ⟨hk.aborted _ _ db' hl.inv, fun _ hx => ?_, fun new hx _ => ⟨fun _ => ?_, nofun⟩⟩
    · exact hk.ok () own log db' hl.inv hJ' (hmiss own log db' hJ' hP' hx)
    · obtain ⟨hnew, hQ⟩ := h own log db' new hl.inv hJ' hP' hx
      exact hk.ok () _ log db' hl.inv hnew hQ
  aborted _ _ _ _ hk db' hl :=
    ⟨hk _ _ db' hl.inv, fun hne => absurd rfl hne, fun _ _ _ => ⟨nofun, nofun⟩⟩

theorem exec (h : Hits J P key stmt fun _ => P) :
    Outline J P (Script.exec failed key stmt) fun _ => P :=
  exec_cases h fun _ _ _ _ hP _ => hP

end statements

theorem forEach {f : α → Script S E Unit} {as : List α}
    (hf : ∀ a ∈ as, Outline J P (f a) fun _ => P) : Outline J P (Script.forEach f as) fun _ => P := by
  induction as with
  | nil => exact .ret ()
  | cons a as ih =>
    exact (hf a List.mem_cons_self).bind fun _ => ih fun b hb => hf b (List.mem_cons_of_mem a hb)

/-- The same where what is known depends on what is left of the list. -/
theorem forEach_rest {f : α → Script S E Unit} {P : List α → Assertion Γ} {as : List α}
    (hf : ∀ a as, Outline J (P (a :: as)) (f a) fun _ => P as) :
    Outline J (P as) (Script.forEach f as) fun _ => P [] := by
  induction as with
  | nil => exact .ret ()
  | cons a as ih => exact (hf a as).bind fun _ => ih

end Outline

/-- Outside of transactions the script leads from `P` to `Q` when it succeeds; of an error nothing
is known. -/
def Between (P : Assertion Γ) (m : Script S E α) (Q : α → Assertion Γ) : Prop :=
  ∀ log db (k : Except E α → Prog S), P.holds ∅ log db →
    (∀ a log db, (Q a).holds ∅ log db → Safe Γ (k (.ok a)) .idle ∅ log db) →
    (∀ e log db, Safe Γ (k (.error e)) .idle ∅ log db) → Safe Γ (m k) .idle ∅ log db

namespace Between

theorem run {m : Script S E α} (hm : Between P m Q) (hP : P.holds ∅ log db) :
    Safe Γ m.run .idle ∅ log db :=
  hm log db _ hP (fun _ _ _ _ => trivial) fun _ _ _ => trivial

theorem pure {a : α} : Between (Q a) (Pure.pure a : Script S E α) Q :=
  fun log db _ hQ hk _ => hk a log db hQ

theorem ret (a : α) : Between P (Pure.pure a : Script S E α) fun _ => P :=
  @pure S Op E α Γ (fun _ => P) a

theorem throw (e : E) : Between P (MonadExcept.throw e : Script S E α) Q :=
  fun log db _ _ _ hfail => hfail e log db

theorem bind {m : Script S E α} {f : α → Script S E β} {R : α → Assertion Γ} {Q : β → Assertion Γ}
    (hm : Between P m R) (hf : ∀ a, Between (R a) (f a) Q) : Between P (m >>= f) Q :=
  fun log db k hP hk hfail =>
    hm log db _ hP (fun a log db hR => hf a log db k hR hk hfail) fun e log db => hfail e log db

theorem conseq {m : Script S E α} {P' : Assertion Γ} {Q' : α → Assertion Γ} (hm : Between P' m Q')
    (hP : ∀ log db, P.holds ∅ log db → P'.holds ∅ log db)
    (hQ : ∀ a log db, (Q' a).holds ∅ log db → (Q a).holds ∅ log db) : Between P m Q :=
  fun log db k hp hk hfail =>
    hm log db k (hP log db hp) (fun a log db hQ' => hk a log db (hQ a log db hQ')) hfail

/-- What is known whatever the session does may be taken out of an assertion. -/
theorem of_always {m : Script S E α} {p : Prop} (h : p → Between P m Q) :
    Between (P.and (.always p)) m Q :=
  fun log db k hP => h hP.2 log db k hP.1

theorem attempt {m : Script S E α} (hm : Between P m Q) :
    Between P m.attempt (@Outline.onOk S Op E α Γ Q) :=
  fun log db _ hP hk _ =>
    hm log db _ hP (fun a log db hQ => hk (.ok a) log db hQ) fun e log db => hk (.error e) log db trivial

theorem tryCatch {m : Script S E α} {h : E → Script S E α} (hm : Between P m Q)
    (hh : ∀ e, Between .top (h e) Q) : Between P (MonadExcept.tryCatch m h) Q :=
  fun log db k hP hk hfail =>
    hm log db _ hP (fun a log db hQ => hk a log db hQ) fun e log db => hh e log db k trivial hk hfail

theorem ask (q : S.Ask) : Between P (Script.ask q : Script S E (S.Answer q)) fun _ => P :=
  fun _ _ _ hP hk _ db' hl a _ => hk a _ db' (P.add _ _ _ _ (P.later _ _ _ _ hP hl))

theorem read {failed : E} {q : S.Query} {Q : S.Result q → Assertion Γ}
    (h : ∀ log db, Γ.Inv db → P.holds ∅ log db → (Q (S.answer q db)).holds ∅
      (log.add (.read q (S.answer q db))) db) :
    Between P (Script.read failed q) Q :=
  fun _ _ _ hP hk hfail db' hl =>
    ⟨hfail _ _ _, fun _ _ => hk _ _ db' (h _ _ hl.inv (P.later _ _ _ _ hP hl))⟩

/- A single statement is its own transaction. -/
def Lands (P : Assertion Γ) (key : S.Key) (stmt : S.Stmt key)
    (Q : Option (S.Row key) → Assertion Γ) : Prop :=
  ∀ log db new, Γ.Inv db → P.holds ∅ log db → S.exec key stmt (db.lookup key) = some new →
    (Γ.fit log db (put db key new) → Γ.guar log db (put db key new)) ∧
      (Q new).holds ∅ log (put db key new)

theorem write {failed noRows : E} {key : S.Key} {stmt : S.Stmt key}
    {Q : Option (S.Row key) → Assertion Γ} (h : Lands P key stmt Q) :
    Between P (Script.write failed noRows key stmt) Q := by
  intro log db k hP hk hfail db' hl
  refine ⟨hfail _ _ _, fun _ _ => hfail _ _ _, fun new hx _ => ⟨nofun, fun _ => ?_⟩⟩
  obtain ⟨hguar, hQ⟩ := h log db' new hl.inv (P.later _ _ _ _ hP hl) hx
  exact ⟨hguar, hk new _ _ hQ, hfail _ _ _⟩

theorem exec {failed : E} {key : S.Key} {stmt : S.Stmt key} (h : Lands P key stmt fun _ => P) :
    Between P (Script.exec failed key stmt) fun _ => P := by
  intro log db k hP hk hfail db' hl
  have hP' := P.later _ _ _ _ hP hl
  refine ⟨hfail _ _ _, fun _ _ => hk () _ db' hP', fun new hx _ => ⟨nofun, fun _ => ?_⟩⟩
  obtain ⟨hguar, hQ⟩ := h log db' new hl.inv hP' hx
  exact ⟨hguar, hk () _ _ hQ, hfail _ _ _⟩

/-- A transaction leads on when its body keeps the invariant and its COMMIT, if it meets its
condition, turns what the body leaves into what the contract guarantees. -/
theorem transaction {J : Assertion Γ} {failed : E} {body : Script S E α} {R : α → Assertion Γ}
    (hbody : Outline J P body R) (hJ : ∀ log db, P.holds ∅ log db → J.holds ∅ log db)
    (hcommit : ∀ a own log db, Γ.Inv db → J.holds own log db → (R a).holds own log db →
      (Γ.fit log db (overlay own db) → Γ.guar log db (overlay own db)) ∧
        (Q a).holds ∅ log (overlay own db)) :
    Between P (Script.transaction failed false body) Q := by
  intro log db k hP hk hfail db₁ hl₁
  have hP₁ := P.later _ _ _ _ hP hl₁
  refine ⟨hfail _ _ _, hbody.active ∅ log db₁ _ hl₁.inv (hJ _ _ hP₁) hP₁ ⟨?_, ?_, ?_⟩⟩
  · intro a own log db hinv hJ hR db' hl
    refine ⟨hfail _ _ _, fun _ => ?_⟩
    obtain ⟨hguar, hQ⟩ := hcommit a own log db' hl.inv (J.later _ _ _ _ hJ hl)
      ((R a).later _ _ _ _ hR hl)
    exact ⟨hguar, hk a _ _ hQ, hfail _ _ _⟩
  · exact fun _ _ _ _ _ _ _ _ => hfail _ _ _
  · intro r log db hinv
    cases r with
    | error e => exact fun _ _ => hfail _ _ _
    | ok a => exact fun _ _ => ⟨hfail _ _ _, nofun⟩

/-- The same for a transaction that may be a dry run, of which nothing is known afterwards. -/
theorem validated {J : Assertion Γ} {failed : E} {validateOnly : Bool} {body : Script S E α}
    {R : α → Assertion Γ} (hbody : Outline J P body R)
    (hJ : ∀ log db, P.holds ∅ log db → J.holds ∅ log db)
    (hcommit : ∀ a own log db, Γ.Inv db → J.holds own log db → (R a).holds own log db →
      Γ.fit log db (overlay own db) → Γ.guar log db (overlay own db)) :
    Between P (Script.transaction failed validateOnly body) fun _ => .top := by
  cases validateOnly with
  | false =>
    exact Between.transaction hbody hJ fun a own log db hinv hJ hR =>
      ⟨hcommit a own log db hinv hJ hR, trivial⟩
  | true =>
    intro log db k hP hk hfail db₁ hl₁
    have hP₁ := P.later _ _ _ _ hP hl₁
    refine ⟨hfail _ _ _, hbody.active ∅ log db₁ _ hl₁.inv (hJ _ _ hP₁) hP₁ ⟨?_, ?_, ?_⟩⟩
    · exact fun a _ _ _ _ _ _ _ _ => hk a _ _ trivial
    · exact fun _ _ _ _ _ _ _ _ => hfail _ _ _
    · intro r log db hinv
      cases r with
      | error e => exact fun _ _ => hfail _ _ _
      | ok a => exact fun _ _ => hk a _ _ trivial

end Between

end ReadCommitted
