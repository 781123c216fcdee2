import Pivox.ReadCommitted.Outline

/-!
Triples of scripts in a transaction, with a postcondition for the value and one for the error, and
scripts that are known by their statements only.
-/

namespace ReadCommitted
variable {S : Schema} {Op E α β : Type} {Γ : Contract S Op}

/-- From `P` the script leads to `Q a` with a value `a`, and to `F e` with an error `e`; of an
aborted transaction nothing is said. -/
structure Triple (P : Assertion Γ) (m : Script S E α) (Q : α → Assertion Γ) (F : E → Assertion Γ) :
    Prop where
  active : ∀ own log db (k : Except E α → Prog S), Γ.Inv db → P.holds own log db →
    (∀ a own log db, Γ.Inv db → (Q a).holds own log db → Safe Γ (k (.ok a)) .active own log db) →
    (∀ e own log db, Γ.Inv db → (F e).holds own log db → Safe Γ (k (.error e)) .active own log db) →
    (∀ r log db, Γ.Inv db → Safe Γ (k r) .aborted ∅ log db) → Safe Γ (m k) .active own log db
  aborted : ∀ log db (k : Except E α → Prog S), Γ.Inv db →
    (∀ r log db, Γ.Inv db → Safe Γ (k r) .aborted ∅ log db) → Safe Γ (m k) .aborted ∅ log db

namespace Triple
variable {P : Assertion Γ} {Q : α → Assertion Γ} {F : E → Assertion Γ}

theorem pure {a : α} : Triple (Q a) (Pure.pure a : Script S E α) Q F where
  active own log db _ hinv hP hok _ _ := hok _ own log db hinv hP
  aborted log db _ hinv hk := hk _ log db hinv

theorem throw {e : E} : Triple (F e) (MonadExcept.throw e : Script S E α) Q F where
  active own log db _ hinv hP _ herror _ := herror _ own log db hinv hP
  aborted log db _ hinv hk := hk _ log db hinv

theorem conseq {m : Script S E α} {P' : Assertion Γ} {Q' : α → Assertion Γ} {F' : E → Assertion Γ}
    (hm : Triple P' m Q' F') (hP : ∀ own log db, P.holds own log db → P'.holds own log db)
    (hQ : ∀ a own log db, (Q' a).holds own log db → (Q a).holds own log db)
    (hF : ∀ e own log db, (F' e).holds own log db → (F e).holds own log db) : Triple P m Q F where
  active own log db k hinv hp hok herror haborted :=
    hm.active own log db k hinv (hP own log db hp)
      (fun a own log db hinv hq => hok a own log db hinv (hQ a own log db hq))
      (fun e own log db hinv hf => herror e own log db hinv (hF e own log db hf)) haborted
  aborted := hm.aborted

theorem bind {m : Script S E α} {f : α → Script S E β} {R : α → Assertion Γ} {Q : β → Assertion Γ}
    (hm : Triple P m R F) (hf : ∀ a, Triple (R a) (f a) Q F) : Triple P (m >>= f) Q F where
  active own log db k hinv hP hok herror haborted := by
    refine hm.active own log db _ hinv hP ?_ herror fun r log db hinv => ?_
    · exact fun a own log db hinv hR => (hf a).active own log db k hinv hR hok herror haborted
    · cases r with
      | ok a => exact (hf a).aborted log db k hinv haborted
      | error e => exact haborted _ log db hinv
  aborted log db k hinv hk := by
    refine hm.aborted log db _ hinv fun r log db hinv => ?_
    cases r with
    | ok a => exact (hf a).aborted log db k hinv hk
    | error e => exact hk _ log db hinv

/- What is known of a value or an error, as of the result that it is. -/
def result (Q : α → Assertion Γ) (F : E → Assertion Γ) : Except E α → Assertion Γ
  | .ok a => Q a
  | .error e => F e

theorem attempt {m : Script S E α} {F' : E → Assertion Γ} (hm : Triple P m Q F) :
    Triple P m.attempt (result Q F) F' where
  active own log db _ hinv hP hok _ haborted :=
    hm.active own log db _ hinv hP (fun a => hok (.ok a)) (fun e => hok (.error e))
      fun r => haborted (.ok r)
  aborted log db _ hinv hk := hm.aborted log db _ hinv fun r => hk (.ok r)

/-- What does not depend on the session is known throughout. -/
theorem always {m : Script S E α} {p : Prop} (hm : Triple P m Q F) :
    Triple (P.and (.always p)) m (fun a => (Q a).and (.always p)) fun e => (F e).and (.always p) where
  active own log db k hinv hP hok herror haborted :=
    hm.active own log db k hinv hP.1
      (fun a own log db hinv hq => hok a own log db hinv ⟨hq, hP.2⟩)
      (fun e own log db hinv hf => herror e own log db hinv ⟨hf, hP.2⟩) haborted
  aborted := hm.aborted

theorem ask {q : S.Ask} {Q : S.Answer q → Assertion Γ}
    (h : ∀ a own log db, P.holds own log db → (Q a).holds own (log.add (.answered q a)) db) :
    Triple P (Script.ask q) Q F where
  active own log _ _ _ hP hok _ _ db' hl a _ :=
    hok _ own _ db' hl.inv (h a own log db' (P.later _ _ _ _ hP hl))
  aborted _ _ _ _ hk db' hl _ _ := hk _ _ db' hl.inv

section statements
variable {failed noRows : E} {key : S.Key} {stmt : S.Stmt key}

theorem read {q : S.Query} {Q : S.Result q → Assertion Γ}
    (h : ∀ own log db a, Γ.Inv db → P.holds own log db → S.answer q (overlay own db) = a →
      (Q a).holds own (log.add (.read q a)) db) : Triple P (Script.read failed q) Q F where
  active own log _ _ _ hP hok _ haborted db' hl :=
    ⟨haborted _ _ db' hl.inv, fun _ _ => hok _ own _ db' hl.inv
      (h own log db' _ hl.inv (P.later _ _ _ _ hP hl) rfl)⟩
  aborted _ _ _ _ hk db' hl := ⟨hk _ _ db' hl.inv, fun hne => absurd rfl hne⟩

/-- What a statement leads to that hits its row. -/
def Hits (P : Assertion Γ) (key : S.Key) (stmt : S.Stmt key)
    (Q : Option (S.Row key) → Assertion Γ) : Prop :=
  ∀ own log db new, Γ.Inv db → P.holds own log db →
    S.exec key stmt ((overlay own db).lookup key) = some new →
    (Q new).holds (own.insert key new) log db

def Misses (P : Assertion Γ) (key : S.Key) (stmt : S.Stmt key) (Q : Assertion Γ) : Prop :=
  ∀ own log db, P.holds own log db → S.exec key stmt ((overlay own db).lookup key) = none →
    Q.holds own log db

theorem write {Q : Option (S.Row key) → Assertion Γ} (hhit : Hits P key stmt Q)
    (hmiss : Misses P key stmt (F noRows)) :
    Triple P (Script.write failed noRows key stmt) Q F where
  active own log _ _ _ hP hok herror haborted db' hl := by
    have hP' := P.later _ _ _ _ hP hl
    refine ⟨haborted _ _ db' hl.inv, fun _ hx => ?_, fun new hx _ => ⟨fun _ => ?_, nofun⟩⟩
    · exact herror _ own log db' hl.inv (hmiss own log db' hP' hx)
    · exact hok _ _ log db' hl.inv (hhit own log db' new hl.inv hP' hx)
  aborted _ _ _ _ hk db' hl :=
    ⟨hk _ _ db' hl.inv, fun hne => absurd rfl hne, fun _ _ _ => ⟨nofun, nofun⟩⟩

theorem exec {Q : Assertion Γ} (hhit : Hits P key stmt fun _ => Q) (hmiss : Misses P key stmt Q) :
    Triple P (Script.exec failed key stmt) (fun _ => Q) F where
  active own log _ _ _ hP hok _ haborted db' hl := by
    have hP' := P.later _ _ _ _ hP hl
    refine ⟨haborted _ _ db' hl.inv, fun _ hx => ?_, fun new hx _ => ⟨fun _ => ?_, nofun⟩⟩
    · exact hok _ own log db' hl.inv (hmiss own log db' hP' hx)
    · exact hok _ _ log db' hl.inv (hhit own log db' new hl.inv hP' hx)
  aborted _ _ _ _ hk db' hl :=
    ⟨hk _ _ db' hl.inv, fun hne => absurd rfl hne, fun _ _ _ => ⟨nofun, nofun⟩⟩

end statements

/-- A loop of which each turn takes the head off what is left of the list. -/
theorem forEach {f : α → Script S E Unit} {P : List α → Assertion Γ}
    (hf : ∀ a as, Triple (P (a :: as)) (f a) (fun _ => P as) F) (as : List α) :
    Triple (P as) (Script.forEach f as) (fun _ => P []) F := by
  induction as with
  | nil => exact @pure S Op E Unit Γ (fun _ => P []) F ()
  | cons a as ih => exact (hf a as).bind fun _ => ih

/-- A transaction whose body leads to what its COMMIT needs. -/
theorem transaction {failed : E} {body : Script S E α} (hbody : Triple P body Q F)
    (hcommit : ∀ a own log db, Γ.Inv db → (Q a).holds own log db →
      Γ.fit log db (overlay own db) → Γ.guar log db (overlay own db)) :
    Between P (Script.transaction failed false body) fun _ => .top := by
  intro log db k hP hk hfail db₁ hl₁
  have hP₁ := P.later _ _ _ _ hP hl₁
  refine ⟨hfail _ _ _, hbody.active ∅ log db₁ _ hl₁.inv hP₁ ?_ ?_ ?_⟩
  · refine fun a own log db hinv hQ db' hl => ⟨hfail _ _ _, fun _ => ⟨?_, hk a _ _ trivial, hfail _ _ _⟩⟩
    exact hcommit a own log db' hl.inv ((Q a).later _ _ _ _ hQ hl)
  · exact fun _ _ _ _ _ _ _ _ => hfail _ _ _
  · intro r log db hinv
    cases r with
    | error e => exact fun _ _ => hfail _ _ _
    | ok a => exact fun _ _ => ⟨hfail _ _ _, nofun⟩

end Triple

/-! Scripts known by their statements -/

/-- Whatever the statements of `A` keep, the script keeps, and it fails only as `throws` says. -/
structure Confined (A : (k : S.Key) → S.Stmt k → Prop) (throws : E → Prop) (m : Script S E α) :
    Prop where
  triple : ∀ {Op : Type} {Γ : Contract S Op} (J : Assertion Γ),
    (∀ k stmt, A k stmt → Triple.Hits J k stmt fun _ => J) →
    Triple J m (fun _ => J) fun e => J.and (.always (throws e))

namespace Confined
variable {A B : (k : S.Key) → S.Stmt k → Prop} {throws : E → Prop}

theorem pure (a : α) : Confined A throws (Pure.pure a : Script S E α) where
  triple J _ := @Triple.pure S _ E α _ (fun _ => J) _ a

theorem throw {e : E} (h : throws e) : Confined A throws (MonadExcept.throw e : Script S E α) where
  triple {Op Γ} J _ := by
    have hthrow : Triple (J.and (.always (throws e))) (MonadExcept.throw e : Script S E α)
        (fun _ => J) fun e => J.and (.always (throws e)) :=
      @Triple.throw S Op E α Γ (fun _ => J) (fun e => J.and (.always (throws e))) e
    exact hthrow.conseq (fun _ _ _ hJ => ⟨hJ, h⟩) (fun _ _ _ _ hJ => hJ) fun _ _ _ _ hJ => hJ

theorem bind {m : Script S E α} {f : α → Script S E β} (hm : Confined A throws m)
    (hf : ∀ a, Confined A throws (f a)) : Confined A throws (m >>= f) where
  triple J hJ := (hm.triple J hJ).bind fun a => (hf a).triple J hJ

theorem mono {m : Script S E α} (hm : Confined A throws m) (h : ∀ k stmt, A k stmt → B k stmt) :
    Confined B throws m where
  triple J hJ := hm.triple J fun k stmt hA => hJ k stmt (h k stmt hA)

theorem read {failed : E} (q : S.Query) : Confined A throws (Script.read failed q) where
  triple J _ := Triple.read fun own log db _ _ hJ _ => J.add own log db _ hJ

theorem exec {failed : E} {key : S.Key} {stmt : S.Stmt key} (h : A key stmt) :
    Confined A throws (Script.exec failed key stmt) where
  triple _ hJ := Triple.exec (hJ key stmt h) fun _ _ _ hP _ => hP

theorem write {failed noRows : E} {key : S.Key} {stmt : S.Stmt key} (h : A key stmt)
    (hmiss : throws noRows) : Confined A throws (Script.write failed noRows key stmt) where
  triple _ hJ := Triple.write (hJ key stmt h) fun _ _ _ hP _ => ⟨hP, hmiss⟩

theorem forEach {f : α → Script S E Unit} (hf : ∀ a, Confined A throws (f a)) (as : List α) :
    Confined A throws (Script.forEach f as) := by
  induction as with
  | nil => exact pure ()
  | cons a as ih => exact bind (hf a) fun _ => ih

/-- What follows a caught error may count on how the script fails. -/
theorem attempt_bind {m : Script S E α} {f : Except E α → Script S E β} {T : E → Prop}
    (hm : Confined A T m) (hok : ∀ a, Confined A throws (f (.ok a)))
    (herror : ∀ e, Confined A (fun e' => T e → throws e') (f (.error e))) :
    Confined A throws (m.attempt >>= f) where
  triple J hJ := by
    have hcaught : Triple J m.attempt
        (Triple.result (fun _ => J) fun e => J.and (.always (T e)))
        fun e => J.and (.always (throws e)) := Triple.attempt (hm.triple J hJ)
    refine hcaught.bind fun r => ?_
    cases r with
    | ok a => exact (hok a).triple J hJ
    | error e =>
      exact ((herror e).triple J hJ).always.conseq (fun _ _ _ h => h) (fun _ _ _ _ h => h.1)
        fun _ _ _ _ h => ⟨h.1.1, h.1.2 h.2⟩

end Confined

end ReadCommitted
