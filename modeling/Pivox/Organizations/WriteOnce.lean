import Pivox.Organizations.Grants

/-!
The outcome of a long-running operation: who writes it, and when it is written once.
-/

namespace Pivox.Organizations
open ReadCommitted Transition

/- A running operation has no outcome yet, a finished one a result or an error. -/
structure Operation.Sound (o : Operation) : Prop where
  running : o.done = false → o.result = none ∧ o.errorCode = none ∧ o.errorMessage = none
  single : o.result = none ∨ o.errorCode = none ∧ o.errorMessage = none

/-- What the writers of an operation leave of a row that is done. -/
structure OperationChange (old new : Option (Slot Operation)) : Prop where
  done : ∀ o, old = some (.live o) → o.done = true → new = some .gone ∨
    ∃ o', new = some (.live o') ∧ o'.done = true ∧ o'.result = o.result ∧
      o'.errorCode = o.errorCode ∧ o'.errorMessage = o.errorMessage
  gone : old = some .gone → new = some .gone

theorem OperationChange.refl (old : Option (Slot Operation)) : OperationChange old old where
  done o h hd := .inr ⟨o, h, hd, rfl, rfl, rfl⟩
  gone h := h

theorem OperationChange.trans {a b c : Option (Slot Operation)} (h : OperationChange a b)
    (h' : OperationChange b c) : OperationChange a c where
  done o ha hd := by
    obtain hb | ⟨o', hb, hd', hresult, hcode, hmessage⟩ := h.done o ha hd
    · exact .inl (h'.gone hb)
    · obtain hc | ⟨o'', hc, hd'', hresult', hcode', hmessage'⟩ := h'.done o' hb hd'
      · exact .inl hc
      · exact .inr ⟨o'', hc, hd'', hresult'.trans hresult, hcode'.trans hcode,
          hmessage'.trans hmessage⟩
  gone ha := h'.gone (h.gone ha)

theorem OperationChange.create (o : Operation) : OperationChange none (some (.live o)) where
  done _ h := by cases h
  gone h := by cases h

theorem OperationChange.delete (o : Operation) : OperationChange (some (.live o)) (some .gone) where
  done _ _ _ := .inl rfl
  gone _ := rfl

theorem OperationChange.finish {o o' : Operation} (h : o.done = false) :
    OperationChange (some (.live o)) (some (.live o')) where
  done _ ho hd := by
    cases ho
    simp [h] at hd
  gone h := by cases h

/- A statement that leaves the outcome as it is. -/
theorem OperationChange.keep {o o' : Operation} (hd : o'.done = o.done)
    (hresult : o'.result = o.result) (hcode : o'.errorCode = o.errorCode)
    (hmessage : o'.errorMessage = o.errorMessage) :
    OperationChange (some (.live o)) (some (.live o')) where
  done _ ho hdone := by
    cases ho
    exact .inr ⟨o', rfl, hd.trans hdone, hresult, hcode, hmessage⟩
  gone h := by cases h

def SoundRow (row : Option (Slot Operation)) : Prop := ∀ o, row = some (.live o) → o.Sound

theorem soundRow_live {o : Operation} : SoundRow (some (.live o)) ↔ o.Sound := by
  simp [SoundRow]

theorem soundRow_gone : SoundRow (some .gone) := by
  simp [SoundRow]

def OperationStmt.finishes : OperationStmt → Bool
  | .completeOperation _ => true
  | .failOperation _ _ => true
  | _ => false

/- The two statements without a guard of their own are asked to find the row running. -/
def AllowedOn (stmt : OperationStmt) (row : Option (Slot Operation)) : Prop :=
  stmt.finishes = true → ∀ o, row = some (.live o) → o.done = false

/-- What may arrive, in any order and any number of times: a redelivered job is one more run of its
worker. -/
inductive Op where
  | newLro (parent : String) (opts : NewLroOpts)
  | cancelOperation (name : Option Id)
  | deleteOperation (name : Option Id)
  | recoverPending
  | reapOperations
  | createDomain (scope : RequestScope) (req : CreateDomainRequest)
  | deleteDomain (scope : RequestScope) (req : DeleteDomainRequest)
  | verifyDomains
  | verifyDomain (args : VerifyDomainArgs)
  | deleteOrg (args : DeleteOrgArgs)
  | undeleteOrg (args : UndeleteOrgArgs)
  | deleteSpace (args : DeleteSpaceArgs)
  | undeleteSpace (args : UndeleteSpaceArgs)
  | deleteAccount (args : DeleteAccountArgs)

def code : Op → Prog store
  | .newLro parent opts => (newLro parent opts).run
  | .cancelOperation name => (cancelOperation name).run
  | .deleteOperation name => (deleteOperation name).run
  | .recoverPending => recoverPending.run
  | .reapOperations => reapOperations.run
  | .createDomain scope req => (createDomain scope req).run
  | .deleteDomain scope req => (deleteDomain scope req).run
  | .verifyDomains => verifyDomains.run
  | .verifyDomain args => (verifyDomain args).run
  | .deleteOrg args => (deleteOrg args).run
  | .undeleteOrg args => (undeleteOrg args).run
  | .deleteSpace args => (deleteSpace args).run
  | .undeleteSpace args => (undeleteSpace args).run
  | .deleteAccount args => (deleteAccount args).run

/-- A contract that grants every statement is kept by every operation. -/
theorem code_keeps {R : Rowwise store Op} (h : ∀ op, Grants R op) (hgone : ∀ op, GrantsRemoval R op)
    (hverified : ∀ op, GrantsVerified R op) : R.Keeps code := by
  intro op db _
  cases op with
  | newLro parent opts => exact (kept_newLro (h _) parent opts).run db
  | cancelOperation name => exact (kept_cancelOperation (h _) name).run db
  | deleteOperation name => exact (kept_deleteOperation (h _) name).run db
  | recoverPending => exact (kept_recoverPending (h _)).run db
  | reapOperations => exact (kept_reapOperations (h _)).run db
  | createDomain scope req => exact (kept_createDomain (h _) scope req).run db
  | deleteDomain scope req => exact (kept_deleteDomain (h _) (hgone _) scope req).run db
  | verifyDomains => exact (kept_verifyDomains (hverified _)).run db
  | verifyDomain args => exact (kept_verifyDomain (h _) args).run db
  | deleteOrg args => exact (kept_deleteOrg (h _) (hgone _) args).run db
  | undeleteOrg args => exact (kept_undeleteOrg (h _) args).run db
  | deleteSpace args => exact (kept_deleteSpace (h _) args).run db
  | undeleteSpace args => exact (kept_undeleteSpace (h _) args).run db
  | deleteAccount args => exact (kept_deleteAccount (h _) args).run db

def operationContract : Rowwise store Op where
  good
    | .operation _, row => SoundRow row
    | _, _ => True
  change
    | _, .operation _, old, new => OperationChange old new
    | _, _, _, _ => True
  stays
    | .operation _, old, new => OperationChange old new
    | _, _, _ => True
  allow
    | .operation _, stmt, row => AllowedOn stmt row
    | _, _, _ => True
  accept _ _ _ := True
  change_refl log k r := by
    cases k with
    | operation id => exact .refl r
    | _ => trivial
  change_trans log k a b c h h' := by
    cases k with
    | operation id => exact OperationChange.trans h h'
    | _ => trivial
  change_mono log log' k a b _ h := by
    cases k with
    | operation id => exact h
    | _ => trivial
  stays_refl k r := by
    cases k with
    | operation id => exact .refl r
    | _ => trivial
  stays_trans k a b c h h' := by
    cases k with
    | operation id => exact OperationChange.trans h h'
    | _ => trivial
  stays_of_change log k a b h := by
    cases k with
    | operation id => exact h
    | _ => trivial

theorem sound_row (p : CreateOperationParams) (now : Time) : (p.row now).Sound where
  running _ := ⟨rfl, rfl, rfl⟩
  single := .inl rfl

theorem Operation.Sound.failed {o : Operation} (h : o.Sound) (hd : o.done = false) (code : Nat)
    (message : String) : (o.failed code message).Sound where
  running h := by cases h
  single := .inl (h.running hd).1

theorem Operation.Sound.completed {o : Operation} (h : o.Sound) (hd : o.done = false)
    (result : Json) : Operation.Sound { o with done := true, result := some result } where
  running h := by cases h
  single := .inr (h.running hd).2

theorem Operation.Sound.keep {o o' : Operation} (h : o.Sound) (hd : o'.done = o.done)
    (hresult : o'.result = o.result) (hcode : o'.errorCode = o.errorCode)
    (hmessage : o'.errorMessage = o.errorMessage) : o'.Sound where
  running hd' := by
    rw [hresult, hcode, hmessage]
    exact h.running (hd ▸ hd')
  single := by
    rw [hresult, hcode, hmessage]
    exact h.single

/-- What a statement on an operation does: it makes, removes, finishes or keeps its row. -/
theorem execOperation_cases {stmt : OperationStmt} {cur new : Option (Slot Operation)}
    (h : execOperation stmt cur = some new) :
    (∃ p now, cur = none ∧ new = some (.live (CreateOperationParams.row p now))) ∨
    ∃ o, cur = some (.live o) ∧
      (new = some .gone ∨
       (stmt.finishes = true ∧ ∃ result,
          new = some (.live { o with done := true, result := some result })) ∨
       ((stmt.finishes = true ∨ o.done = false) ∧ ∃ code message,
          new = some (.live (o.failed code message))) ∨
       ∃ o', new = some (.live o') ∧ o'.done = o.done ∧ o'.result = o.result ∧
          o'.errorCode = o.errorCode ∧ o'.errorMessage = o.errorMessage) := by
  obtain _ | o | _ := cur
  · cases stmt with
    | createOperation p now =>
      cases h
      exact .inl ⟨p, now, rfl, rfl⟩
    | _ => cases h
  · refine .inr ⟨o, rfl, ?_⟩
    cases stmt with
    | createOperation p now => cases h
    | completeOperation result =>
      cases h
      exact .inr (.inl ⟨rfl, result, rfl⟩)
    | failOperation code message =>
      cases h
      exact .inr (.inr (.inl ⟨.inl rfl, code, message, rfl⟩))
    | updateOperationMetadata metadata =>
      cases h
      exact .inr (.inr (.inr ⟨_, rfl, rfl, rfl, rfl, rfl⟩))
    | cancelOperation =>
      simp only [execOperation] at h
      split at h
      · cases h
      · rename_i hrunning
        cases h
        exact .inr (.inr (.inl ⟨.inr (by simpa using hrunning), _, _, rfl⟩))
    | cancelRunningOpsForOrg orgId =>
      simp only [execOperation] at h
      split at h
      · rename_i hrunning
        cases h
        exact .inr (.inr (.inl ⟨.inr hrunning.1, _, _, rfl⟩))
      · cases h
    | cancelDomainOpsForDomain domainResource =>
      simp only [execOperation] at h
      split at h
      · rename_i hrunning
        cases h
        exact .inr (.inr (.inl ⟨.inr hrunning.1, _, _, rfl⟩))
      · cases h
    | deleteOperation =>
      cases h
      exact .inl rfl
    | deleteExpiredOperations now =>
      simp only [execOperation] at h
      split at h
      · cases h
        exact .inl rfl
      · cases h
    | orgPurged orgId =>
      simp only [execOperation] at h
      split at h
      · cases h
        exact .inr (.inr (.inr ⟨_, rfl, rfl, rfl, rfl, rfl⟩))
      · cases h
    | spacePurged spaceId =>
      simp only [execOperation] at h
      split at h
      · cases h
        exact .inr (.inr (.inr ⟨_, rfl, rfl, rfl, rfl, rfl⟩))
      · cases h
  · cases stmt <;> cases h

theorem lawful_operation (op : Op) (id : Id) (stmt : OperationStmt) :
    operationContract.Lawful op (.operation id) stmt := by
  intro cur new hgood hx hallow
  obtain ⟨p, now, rfl, rfl⟩ | ⟨o, rfl, hnew⟩ := execOperation_cases hx
  · exact ⟨soundRow_live.mpr (sound_row p now), fun _ _ => .create _⟩
  · have hsound : o.Sound := hgood o rfl
    obtain rfl | ⟨hf, result, rfl⟩ | ⟨hf, code, message, rfl⟩ | ⟨o', rfl, hd, hr, hc, hm⟩ := hnew
    · exact ⟨soundRow_gone, fun _ _ => .delete o⟩
    · have hd : o.done = false := hallow hf o rfl
      exact ⟨soundRow_live.mpr (hsound.completed hd result), fun _ _ => .finish hd⟩
    · have hd : o.done = false := hf.elim (fun hf => hallow hf o rfl) fun h => h
      exact ⟨soundRow_live.mpr (hsound.failed hd code message), fun _ _ => .finish hd⟩
    · exact ⟨soundRow_live.mpr (hsound.keep hd hr hc hm), fun _ _ => .keep hd hr hc hm⟩

theorem operationContract_lawful (op : Op) (k : Key) (stmt : Stmt k) :
    operationContract.Lawful op k stmt := by
  cases k with
  | operation id => exact lawful_operation op id stmt
  | _ => exact fun _ _ _ _ _ => ⟨trivial, fun _ _ => trivial⟩

theorem operationContract_keeps : operationContract.Keeps code :=
  code_keeps (fun op k stmt _ => operationContract_lawful op k stmt)
    (fun _ _ _ => operationContract_lawful _ _ _) fun _ _ _ => operationContract_lawful _ _ _

def isRunning : Option (Slot Operation) → Bool
  | some (.live o) => !o.done
  | _ => true

/- The program is not at a CompleteOperation or FailOperation of a row that is done. -/
def finishesRunning (db : Db store) : Prog store → Bool
  | .write (.operation id) stmt _ => !stmt.finishes || isRunning (db.lookup (Key.operation id))
  | _ => true

/-- The step executes no CompleteOperation or FailOperation on a row that is done. -/
def FinishesRunning (st : State store Op) : Label store Op → Prop
  | .spawn _ => True
  | .act p a => ∀ s ∈ st.sessions[p]?, a.executes = true →
    finishesRunning (overlay s.own st.db) s.code = true

instance (st : State store Op) : (l : Label store Op) → Decidable (FinishesRunning st l)
  | .spawn _ => inferInstanceAs (Decidable True)
  | .act _ _ => inferInstanceAs (Decidable (∀ s ∈ _, _ → _))

theorem FinishesRunning.meets {st : State store Op} {l : Label store Op}
    (h : FinishesRunning st l) : operationContract.Meets st l where
  allows p s a k stmt next hl ha hs hcode := by
    subst hl
    cases k with
    | operation id =>
      intro hf o ho
      have hrunning := h s hs ha
      rw [hcode] at hrunning
      simpa [finishesRunning, hf, ho, isRunning] using hrunning
    | _ => trivial
  accepts _ _ _ _ := trivial

/-- From `st` to `st'` the operation is written once: done in `st`, it carries there no error beside
a result, and in `st'` the same outcome, or its row is deleted. -/
def WrittenOnce (st st' : State store Op) (id : Id) : Prop :=
  ∀ o, st.db.lookup (Key.operation id) = some (.live o) → o.done = true →
    (o.result = none ∨ o.errorCode = none ∧ o.errorMessage = none) ∧
    (st'.db.lookup (Key.operation id) = some .gone ∨
      ∃ o', st'.db.lookup (Key.operation id) = some (.live o') ∧ o'.done = true ∧
        o'.result = o.result ∧ o'.errorCode = o.errorCode ∧ o'.errorMessage = o.errorMessage)

def SoundOperations (db : Db store) : Prop := ∀ id, SoundRow (db.lookup (Key.operation id))

/-- While the workers finish only operations that they find running, every operation is written
once. -/
theorem operation_written_once {db : Db store} (hdb : SoundOperations db) {st st' : State store Op}
    (h : Runs (step code) FinishesRunning (.rest db) st)
    (h' : Runs (step code) FinishesRunning st st') (id : Id) : WrittenOnce st st' id := by
  intro o ho hd
  have hgood : operationContract.Good db := by
    intro k
    cases k with
    | operation id => exact hdb id
    | _ => trivial
  have hmeets : ∀ st l, FinishesRunning st l → operationContract.Meets st l := fun _ _ h => h.meets
  have hsound : SoundRow (st.db.lookup (Key.operation id)) :=
    Rowwise.good_of_runs hgood operationContract_keeps hmeets h (Key.operation id)
  have hchange : OperationChange (st.db.lookup (Key.operation id))
      (st'.db.lookup (Key.operation id)) :=
    Rowwise.stays_of_runs hgood operationContract_keeps hmeets h h' (Key.operation id)
  exact ⟨(hsound o ho).single, hchange.done o ho hd⟩

/-! DeleteAccount, worked at, cancelled and cancelled too late -/

def identities : Db store :=
  ((∅ : Db store).insert (Key.identity 5) ⟨"a@b", "A", "", false, none⟩).insert (Key.identity 6)
    ⟨"c@d", "C", "", false, none⟩

/- Session `p` starts the operation of an account, session `p` does the work on it. -/
def startTrace (p : Nat) (id identityId : Id) : List (Label store Op) :=
  [.spawn (.newLro "accounts/me" ⟨some id, none, none, some identityId, none, false⟩),
   .told p Ask.shuttingDown false, .run p, .told p Ask.now (100 : Nat), .run p,
   .told p Ask.insertJob true, .run p]

def workTrace (p : Nat) (id identityId : Id) : List (Label store Op) :=
  [.spawn (.deleteAccount ⟨id, identityId⟩), .run p, .run p, .run p, .run p, .run p, .run p, .run p,
   .told p Ask.now (200 : Nat), .run p, .run p,
   .told p (Ask.marshalResult .empty) (some "\x7b\x7d"), .run p]

def cancelTrace (p : Nat) (id : Id) : List (Label store Op) :=
  [.spawn (.cancelOperation (some id)), .run p]

def startedState : State store Op :=
  (exec (step code) (.rest identities) (startTrace 0 7 5)).get (by decide)

def completedState : State store Op :=
  (exec (step code) startedState (workTrace 1 7 5)).get (by decide)

/- It is cancelled too late; another one is abandoned by a restart, a third one completed. -/
def laterTrace : List (Label store Op) :=
  cancelTrace 2 7 ++ [Label.run 2] ++ startTrace 3 8 6 ++
    [Label.spawn Op.recoverPending, .run 4, .run 4] ++ startTrace 5 9 6 ++ workTrace 6 9 6

def laterState : State store Op := (exec (step code) completedState laterTrace).get (by decide)

theorem identities_sound : SoundOperations identities := by
  intro id o ho
  cases ho

def completedOperation : Operation :=
  { parent := "accounts/me", done := true, metadata := none, result := some "\x7b\x7d",
    errorCode := none, errorMessage := none, orgId := none, spaceId := none, createdBy := some 5,
    expireTime := 100 + thirtyDays }

theorem operation_written_once_completed :
    completedState.db.lookup (Key.operation 7) = some (.live completedOperation) ∧
      WrittenOnce completedState laterState 7 := by
  have hstart : Runs (step code) FinishesRunning (.rest identities) startedState :=
    Runs.of_exec (startTrace 0 7 5) (Option.some_get _).symm (by decide)
  have hwork : Runs (step code) FinishesRunning startedState completedState :=
    Runs.of_exec (workTrace 1 7 5) (Option.some_get _).symm (by decide)
  have hlater : Runs (step code) FinishesRunning completedState laterState :=
    Runs.of_exec laterTrace (Option.some_get _).symm (by decide)
  exact ⟨rfl, operation_written_once identities_sound (hstart.trans hwork) hlater 7⟩

/- The worker of a cancelled operation does not look, and completes it after. -/
def cancelledState : State store Op :=
  (exec (step code) startedState (cancelTrace 1 7)).get (by decide)

def overwrittenState : State store Op :=
  (exec (step code) cancelledState (workTrace 2 7 5)).get (by decide)

def cancelledOperation : Operation :=
  { parent := "accounts/me", done := true, metadata := none, result := none,
    errorCode := some codeCancelled, errorMessage := some "cancelled by user", orgId := none,
    spaceId := none, createdBy := some 5, expireTime := 100 + thirtyDays }

theorem operation_not_written_once :
    ¬ ∀ (db : Db store) (st st' : State store Op), SoundOperations db →
      Runs (step code) (fun _ _ => True) (.rest db) st → Runs (step code) (fun _ _ => True) st st' →
      ∀ id, WrittenOnce st st' id := by
  intro h
  have hstart : Runs (step code) (fun _ _ => True) (.rest identities) startedState :=
    Runs.of_exec_free (startTrace 0 7 5) (Option.some_get _).symm
  have hcancel : Runs (step code) (fun _ _ => True) startedState cancelledState :=
    Runs.of_exec_free (cancelTrace 1 7) (Option.some_get _).symm
  have hwork : Runs (step code) (fun _ _ => True) cancelledState overwrittenState :=
    Runs.of_exec_free (workTrace 2 7 5) (Option.some_get _).symm
  obtain ⟨-, hgone | ⟨o, ho, -, hresult, -⟩⟩ := h identities cancelledState overwrittenState
    identities_sound (hstart.trans hcancel) hwork 7 cancelledOperation rfl rfl
  · cases hgone
  · cases ho
    cases hresult

end Pivox.Organizations
