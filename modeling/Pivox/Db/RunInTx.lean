import Pivox.ErrorChain

/-!
The helper that runs a function in a transaction: its attempts, each with whatever begin, the
function, the commit and the context come to.
-/

namespace Pivox.Db
open ErrorChain

/- What an error is, apart from what it wraps. -/
inductive Fault where
  | text (message : String)
  | noRows
  | pgError (code message : String)
  | status (code : ℕ) (message : String)
  deriving DecidableEq

abbrev Err := Error Fault

/- fmt.Errorf with the verb that wraps. -/
def errorf (message : String) (cause : Err) : Err := .wrap (.text message) cause

def pgCode : Fault → Option String
  | .pgError code _ => some code
  | _ => none

def pgSerializationFailed : String := "40001"
def pgDeadlockDetected : String := "40P01"

def isRetryableTxError (err : Err) : Bool :=
  match err.as pgCode with
  | none => false
  | some code => code = pgSerializationFailed || code = pgDeadlockDetected

/-! Errors of the API -/

def codeNotFound : ℕ := 5
def codeAlreadyExists : ℕ := 6
def codeInternal : ℕ := 13

def pgUniqueViolation : String := "23505"
def pgForeignKeyViolation : String := "23503"

def notFound (resourceType resourceName : String) : Err :=
  .leaf (.status codeNotFound (resourceType ++ " " ++ resourceName.quote ++ " not found"))

def alreadyExists (resourceType resourceName : String) : Err :=
  .leaf (.status codeAlreadyExists (resourceType ++ " " ++ resourceName.quote ++ " already exists"))

/- The cause stays under the status. -/
def internal (cause : Option Err) (message : String) : Err :=
  match cause with
  | none => .leaf (.status codeInternal message)
  | some cause => .wrap (.status codeInternal message) cause

def handleResourceError (err : Err) (resourceType resourceName : String) : Err :=
  if err.is .noRows then notFound resourceType resourceName
  else if err.as pgCode = some pgUniqueViolation then alreadyExists resourceType resourceName
  else if err.as pgCode = some pgForeignKeyViolation then notFound resourceType resourceName
  else internal (some err) "database error"

/-! Attempts -/

inductive FnOutcome (T : Type) where
  | returned (result : T) (err : Option Err)
  | panicked (value : String)

/- What the steps of an attempt come to when they are reached; a rollback is only logged. -/
structure Attempt (T : Type) where
  begin : Option Err
  fn : FnOutcome T
  commit : Option Err

/- What an attempt leaves: `ran` is its function, unless it did not begin. -/
structure Outcome (T : Type) where
  result : T
  err : Option Err
  ran : Option (FnOutcome T)
  committed : Bool

variable {T : Type}

def runTxOnce (zero : T) (validateOnly : Bool) (a : Attempt T) : Outcome T :=
  match a.begin with
  | some err => ⟨zero, some (errorf "begin tx: " err), none, false⟩
  | none =>
    match a.fn with
    | .panicked value => ⟨zero, some (.leaf (.text ("tx fn panicked: " ++ value))), some a.fn, false⟩
    | .returned result (some err) => ⟨result, some err, some a.fn, false⟩
    | .returned result none =>
      if validateOnly then ⟨result, none, some a.fn, false⟩
      else
        match a.commit with
        | some err => ⟨result, some (errorf "commit tx: " err), some a.fn, false⟩
        | none => ⟨result, none, some a.fn, true⟩

/- The attempts that a pool and a function would make, and the context: its error after an attempt,
   and when it is done before the timer. -/
structure World (T : Type) where
  attempt : ℕ → Attempt T
  ctxErr : ℕ → Option Err
  ctxDone : ℕ → Option Err
  jitter : ℕ → ℕ

structure Run (T : Type) where
  result : T
  err : Option Err
  attempts : List (Outcome T)
  sleeps : List ℕ

def maxTxRetries : ℕ := 3

/- In nanoseconds. -/
def initialRetryBackoff : ℕ := 5000000
def maxRetryBackoff : ℕ := 100000000

def exhausted (ctxErr : Option Err) (lastErr : Err) : Err :=
  ctxErr.getD (errorf "tx retries exhausted (3 attempts): " lastErr)

/- The loop from an attempt on, with so many more allowed after it. -/
def retryLoop (zero : T) (validateOnly : Bool) (w : World T) (attempt backoff more : ℕ) : Run T :=
  let o := runTxOnce zero validateOnly (w.attempt attempt)
  match o.err with
  | none => ⟨o.result, none, [o], []⟩
  | some err =>
    if !isRetryableTxError err then ⟨zero, some err, [o], []⟩
    else
      match more with
      | 0 => ⟨zero, some (exhausted (w.ctxErr attempt) err), [o], []⟩
      | more + 1 =>
        match w.ctxErr attempt with
        | some ctxErr => ⟨zero, some ctxErr, [o], []⟩
        | none =>
          let sleep := backoff + w.jitter attempt % (backoff / 2)
          match w.ctxDone attempt with
          | some ctxErr => ⟨zero, some ctxErr, [o], [sleep]⟩
          | none =>
            let rest := retryLoop zero validateOnly w (attempt + 1)
              (min (backoff * 2) maxRetryBackoff) more
            ⟨rest.result, rest.err, o :: rest.attempts, sleep :: rest.sleeps⟩

def errNilPool : Err := .leaf (.text "db: RunInTx called with nil pool")

def runInTxImpl (zero : T) (pool : Option (World T)) (validateOnly : Bool) : Run T :=
  match pool with
  | none => ⟨zero, some errNilPool, [], []⟩
  | some w => retryLoop zero validateOnly w 1 initialRetryBackoff (maxTxRetries - 1)

def runInTx (zero : T) (pool : Option (World T)) : Run T := runInTxImpl zero pool false

def runInTxValidate (zero : T) (pool : Option (World T)) (validateOnly : Bool) : Run T :=
  runInTxImpl zero pool validateOnly

/-! What an attempt leaves -/

variable {zero : T} {validateOnly : Bool} {a : Attempt T} {w : World T} {err cause : Err}

theorem isRetryableTxError_panicked (value : String) :
    isRetryableTxError (.leaf (.text ("tx fn panicked: " ++ value))) = false := by
  rw [isRetryableTxError, Error.as_leaf]
  rfl

/- Without an error the function has returned, and is committed unless this is a dry run. -/
theorem runTxOnce_ok (h : (runTxOnce zero validateOnly a).err = none) :
    (runTxOnce zero validateOnly a).ran =
        some (.returned (runTxOnce zero validateOnly a).result none) ∧
      (runTxOnce zero validateOnly a).committed = !validateOnly := by
  unfold runTxOnce at h ⊢
  cases hbegin : a.begin with
  | some err => simp [hbegin] at h
  | none =>
    cases hfn : a.fn with
    | panicked value => simp [hbegin, hfn] at h
    | returned result err =>
      cases err with
      | some err => simp [hbegin, hfn] at h
      | none =>
        cases validateOnly with
        | true => simp
        | false =>
          cases hcommit : a.commit with
          | some err => simp [hbegin, hfn, hcommit] at h
          | none => simp

/- With an error nothing is committed; a dry run has no error once its function has returned. -/
theorem runTxOnce_error (h : (runTxOnce zero validateOnly a).err = some err) :
    (runTxOnce zero validateOnly a).committed = false ∧
      ∀ v, (runTxOnce zero validateOnly a).ran = some (.returned v none) → validateOnly = false := by
  unfold runTxOnce at h ⊢
  cases hbegin : a.begin with
  | some err => simp
  | none =>
    cases hfn : a.fn with
    | panicked value => simp
    | returned result err =>
      cases err with
      | some err => simp
      | none =>
        cases validateOnly with
        | true => simp [hbegin, hfn] at h
        | false =>
          cases hcommit : a.commit with
          | some err => simp
          | none => simp [hbegin, hfn, hcommit] at h

theorem runTxOnce_panicked {value : String}
    (h : (runTxOnce zero validateOnly a).ran = some (.panicked value)) :
    (runTxOnce zero validateOnly a).err = some (.leaf (.text ("tx fn panicked: " ++ value))) := by
  unfold runTxOnce at h ⊢
  cases hbegin : a.begin with
  | some err => simp [hbegin] at h
  | none =>
    cases hfn : a.fn with
    | panicked value' =>
      simp only [hbegin, hfn, Option.some.injEq, FnOutcome.panicked.injEq] at h
      simp [h]
    | returned result err =>
      cases err with
      | some err => simp [hbegin, hfn] at h
      | none =>
        cases validateOnly with
        | true => simp [hbegin, hfn] at h
        | false => cases hcommit : a.commit <;> simp [hbegin, hfn, hcommit] at h

/-! The loop -/

/-- What the loop does from an attempt on: its attempts all failed but perhaps the last, which is
what it returns. -/
structure LoopSpec (zero : T) (validateOnly : Bool) (w : World T) (attempt more : ℕ) (run : Run T) :
    Prop where
  length : run.attempts.length ≤ more + 1
  made : ∀ i o, run.attempts[i]? = some o → o = runTxOnce zero validateOnly (w.attempt (attempt + i))
  last : ∃ (failed : List (Outcome T)) (o : Outcome T), run.attempts = failed ++ [o] ∧
    (∀ o ∈ failed, ∃ err, o.err = some err ∧ isRetryableTxError err = true) ∧
    (run.err = none ↔ o.err = none) ∧ run.result = if o.err.isNone then o.result else zero
  retries : ∀ i o err, run.attempts[i]? = some o → o.err = some err →
    isRetryableTxError err = true → i < more → w.ctxErr (attempt + i) = none →
    w.ctxDone (attempt + i) = none → i + 1 < run.attempts.length

/- The loop stops after this attempt. -/
theorem LoopSpec.stop {attempt more : ℕ} {run : Run T} {o : Outcome T}
    (ho : o = runTxOnce zero validateOnly (w.attempt attempt)) (hattempts : run.attempts = [o])
    (herr : run.err = none ↔ o.err = none)
    (hresult : run.result = if o.err.isNone then o.result else zero)
    (hstop : ∀ err, o.err = some err → isRetryableTxError err = true → 0 < more →
      w.ctxErr attempt = none → w.ctxDone attempt ≠ none) :
    LoopSpec zero validateOnly w attempt more run where
  length := by
    rw [hattempts]
    exact Nat.le_add_left _ _
  made i o' h := by
    rw [hattempts] at h
    obtain ⟨rfl, rfl⟩ : i = 0 ∧ o = o' := by simpa [List.getElem?_singleton] using h
    exact ho
  last := ⟨[], o, hattempts, by simp, herr, hresult⟩
  retries i o' err h herr' hretry hmore hctx hdone := by
    rw [hattempts] at h
    obtain ⟨rfl, rfl⟩ : i = 0 ∧ o = o' := by simpa [List.getElem?_singleton] using h
    exact absurd hdone (hstop err herr' hretry hmore hctx)

/- The loop goes on after this attempt. -/
theorem LoopSpec.goOn {attempt more : ℕ} {rest : Run T} {o : Outcome T} {sleep : ℕ}
    (ho : o = runTxOnce zero validateOnly (w.attempt attempt)) (herr : o.err = some err)
    (hretry : isRetryableTxError err = true)
    (hrest : LoopSpec zero validateOnly w (attempt + 1) more rest) :
    LoopSpec zero validateOnly w attempt (more + 1)
      ⟨rest.result, rest.err, o :: rest.attempts, sleep :: rest.sleeps⟩ where
  length := Nat.succ_le_succ hrest.length
  made i o' h := by
    cases i with
    | zero =>
      cases h
      exact ho
    | succ i =>
      rw [hrest.made i o' h]
      congr 2
      omega
  last := by
    obtain ⟨failed, o', hattempts, hfailed, hnone, hresult⟩ := hrest.last
    refine ⟨o :: failed, o', congrArg (o :: ·) hattempts, ?_, hnone, hresult⟩
    intro o₁ h₁
    obtain rfl | h₁ := List.mem_cons.mp h₁
    · exact ⟨err, herr, hretry⟩
    · exact hfailed o₁ h₁
  retries i o' err' h herr' hretry' hmore hctx hdone := by
    cases i with
    | zero =>
      obtain ⟨failed, o₁, hattempts, -⟩ := hrest.last
      simp [hattempts]
    | succ i =>
      have hshift : attempt + (i + 1) = attempt + 1 + i := by omega
      rw [hshift] at hctx hdone
      exact Nat.succ_lt_succ
        (hrest.retries i o' err' h herr' hretry' (Nat.lt_of_succ_lt_succ hmore) hctx hdone)

theorem loopSpec_retryLoop (attempt backoff more : ℕ) :
    LoopSpec zero validateOnly w attempt more
      (retryLoop zero validateOnly w attempt backoff more) := by
  fun_induction retryLoop zero validateOnly w attempt backoff more with
  | case1 more attempt backoff o herr =>
    refine .stop (o := o) rfl rfl (by simp [herr]) (by simp [herr]) fun err h => ?_
    rw [herr] at h
    cases h
  | case2 more attempt backoff o err herr hretry =>
    refine .stop (o := o) rfl rfl (by simp [herr]) (by simp [herr]) fun err' h h' => ?_
    rw [herr] at h
    cases h
    simp [h'] at hretry
  | case3 attempt backoff o err herr hretry =>
    exact .stop (o := o) rfl rfl (by simp [herr]) (by simp [herr]) fun _ _ _ h =>
      absurd h (Nat.lt_irrefl 0)
  | case4 attempt backoff o err herr hretry more ctxErr hctx =>
    refine .stop (o := o) rfl rfl (by simp [herr]) (by simp [herr]) fun _ _ _ _ h => ?_
    rw [hctx] at h
    cases h
  | case5 attempt backoff o err herr hretry more hctx sleep ctxErr hdone =>
    refine .stop (o := o) rfl rfl (by simp [herr]) (by simp [herr]) fun _ _ _ _ _ => ?_
    rw [hdone]
    exact Option.some_ne_none ctxErr
  | case6 attempt backoff o err herr hretry more hctx sleep hdone rest ih =>
    exact .goOn rfl herr (by simpa using hretry) ih

/-! The contract -/

def RetryableCode (code : String) : Prop := code = pgSerializationFailed ∨ code = pgDeadlockDetected

/- The chain of the error has one of the codes that are retried. -/
def WrapsRetryable (err : Err) : Prop :=
  ∃ code message, Fault.pgError code message ∈ err.chain ∧ RetryableCode code

theorem wrapsRetryable_of_isRetryable (h : isRetryableTxError err = true) : WrapsRetryable err := by
  unfold isRetryableTxError at h
  split at h
  · cases h
  · rename_i code hcode
    obtain ⟨fault, hmem, hfault⟩ := Error.mem_of_as hcode
    cases fault with
    | pgError code' message =>
      cases hfault
      exact ⟨code, message, hmem, by simpa [RetryableCode] using h⟩
    | _ => cases hfault

theorem isRetryableTxError_wrap {fault : Fault} (h : pgCode fault = none) :
    isRetryableTxError (.wrap fault cause) = isRetryableTxError cause := by
  rw [isRetryableTxError, isRetryableTxError, Error.as_wrap h]

theorem isRetryableTxError_internal (cause : Err) (message : String) :
    isRetryableTxError (internal (some cause) message) = isRetryableTxError cause :=
  isRetryableTxError_wrap rfl

theorem isRetryableTxError_handleResourceError (hrows : err.is .noRows = false)
    (h : isRetryableTxError err = true) (resourceType resourceName : String) :
    isRetryableTxError (handleResourceError err resourceType resourceName) = true := by
  have hunique : err.as pgCode ≠ some pgUniqueViolation := by
    intro hcode
    rw [isRetryableTxError, hcode] at h
    exact absurd h (by decide)
  have hforeign : err.as pgCode ≠ some pgForeignKeyViolation := by
    intro hcode
    rw [isRetryableTxError, hcode] at h
    exact absurd h (by decide)
  rw [handleResourceError, hrows, if_neg Bool.false_ne_true, if_neg hunique, if_neg hforeign,
    isRetryableTxError_internal]
  exact h

/- The function of the last attempt has returned, with `v`, and that attempt alone is committed: in a
   dry run none. -/
def Succeeded (validateOnly : Bool) (run : Run T) (v : T) : Prop :=
  ∃ o, run.attempts.getLast? = some o ∧ o.ran = some (.returned v none) ∧
    o.committed = !validateOnly ∧
    run.attempts.countP (·.committed) = if validateOnly then 0 else 1

structure TxContract (zero : T) (validateOnly : Bool) (w : World T) (run : Run T) : Prop where
  three : run.attempts.length ≤ 3
  made : ∀ i o, run.attempts[i]? = some o → o = runTxOnce zero validateOnly (w.attempt (i + 1))
  retried : ∀ i o, run.attempts[i]? = some o → i + 1 < run.attempts.length →
    (∃ err, o.err = some err ∧ WrapsRetryable err) ∧ ∀ value, o.ran ≠ some (.panicked value)
  retries : ∀ i o err, run.attempts[i]? = some o → o.err = some err →
    isRetryableTxError err = true → i + 1 < 3 → w.ctxErr (i + 1) = none →
    w.ctxDone (i + 1) = none → i + 1 < run.attempts.length
  succeeds : ∀ v, Succeeded validateOnly run v → run.err = none
  succeeded : run.err = none → Succeeded validateOnly run run.result
  fails : ∀ err, run.err = some err → run.result = zero ∧ ∀ o ∈ run.attempts, o.committed = false

theorem committed_of_failed {failed : List (Outcome T)}
    (hmade : ∀ o ∈ failed, ∃ a, o = runTxOnce zero validateOnly a)
    (hfailed : ∀ o ∈ failed, ∃ err, o.err = some err) : ∀ o ∈ failed, o.committed = false := by
  intro o ho
  obtain ⟨a, rfl⟩ := hmade o ho
  obtain ⟨err, herr⟩ := hfailed _ ho
  exact (runTxOnce_error herr).1

theorem LoopSpec.contract {run : Run T} (h : LoopSpec zero validateOnly w 1 2 run) :
    TxContract zero validateOnly w run := by
  obtain ⟨failed, last, hattempts, hfailed, hnone, hresult⟩ := h.last
  have hmade : ∀ o ∈ run.attempts, ∃ a, o = runTxOnce zero validateOnly a := by
    intro o ho
    obtain ⟨i, hi⟩ := List.mem_iff_getElem?.mp ho
    exact ⟨_, h.made i o hi⟩
  obtain ⟨a, hlast⟩ := hmade last (by simp [hattempts])
  have hcommitted : ∀ o ∈ failed, o.committed = false :=
    committed_of_failed (fun o ho => hmade o (by simp [hattempts, ho])) fun o ho =>
      (hfailed o ho).imp fun _ h => h.1
  have hcount : failed.countP (·.committed) = 0 := by
    rw [List.countP_eq_zero]
    intro o ho
    simp [hcommitted o ho]
  refine ⟨h.length, fun i o hi => ?_, fun i o hi hlt => ?_, fun i o err hi herr hretry hlt => ?_,
    fun v hv => ?_, fun hok => ?_, fun err herr => ?_⟩
  · rw [h.made i o hi, Nat.add_comm]
  · -- An attempt before the last.
    have hmem : o ∈ failed := by
      rw [hattempts, List.getElem?_append_left (by simpa [hattempts] using hlt)] at hi
      exact List.mem_of_getElem? hi
    obtain ⟨err, herr, hretry⟩ := hfailed o hmem
    refine ⟨⟨err, herr, wrapsRetryable_of_isRetryable hretry⟩, fun value hpanicked => ?_⟩
    obtain ⟨a', rfl⟩ := hmade o (by simp [hattempts, hmem])
    rw [runTxOnce_panicked hpanicked, Option.some.injEq] at herr
    subst herr
    rw [isRetryableTxError_panicked] at hretry
    cases hretry
  · rw [Nat.add_comm i 1]
    exact fun hctx hdone => Nat.add_comm i 1 ▸
      h.retries i o err hi herr hretry (Nat.lt_of_succ_lt_succ hlt) hctx hdone
  · obtain ⟨o, ho, hran, hcommit, -⟩ := hv
    obtain rfl : last = o := by simpa [hattempts] using ho
    rw [hnone]
    cases herr : last.err with
    | none => rfl
    | some err =>
      subst hlast
      obtain ⟨hfalse, hdry⟩ := runTxOnce_error herr
      rw [hfalse, hdry v hran] at hcommit
      cases hcommit
  · have herr := hnone.mp hok
    have hran := runTxOnce_ok (hlast ▸ herr)
    rw [← hlast] at hran
    rw [hresult, herr, Option.isNone_none, if_pos rfl]
    refine ⟨last, by simp [hattempts], hran.1, hran.2, ?_⟩
    rw [hattempts, List.countP_append, hcount]
    cases validateOnly <;> simp [hran.2]
  · cases hlasterr : last.err with
    | none =>
      rw [hnone.mpr hlasterr] at herr
      cases herr
    | some err' =>
      refine ⟨by simp [hresult, hlasterr], fun o ho => ?_⟩
      rw [hattempts, List.mem_append, List.mem_singleton] at ho
      obtain ho | rfl := ho
      · exact hcommitted o ho
      · subst hlast
        exact (runTxOnce_error hlasterr).1

theorem txContract_runInTxImpl (zero : T) (w : World T) (validateOnly : Bool) :
    TxContract zero validateOnly w (runInTxImpl zero (some w) validateOnly) :=
  (loopSpec_retryLoop 1 initialRetryBackoff 2).contract

/-- Whatever the attempts and the context come to, the helper keeps its contract; and an error of the
API that wraps a retryable one is retryable itself. -/
theorem runInTx_contract (zero : T) (w : World T) :
    TxContract zero false w (runInTx zero (some w)) ∧
    (∀ validateOnly, TxContract zero validateOnly w
      (runInTxValidate zero (some w) validateOnly)) ∧
    (∀ cause message, isRetryableTxError (internal (some cause) message) =
      isRetryableTxError cause) ∧
    ∀ err : Err, err.is .noRows = false → isRetryableTxError err = true →
      ∀ resourceType resourceName,
        isRetryableTxError (handleResourceError err resourceType resourceName) = true := by
  refine ⟨txContract_runInTxImpl zero w false, txContract_runInTxImpl zero w,
    isRetryableTxError_internal, fun err hrows hretry resourceType resourceName => ?_⟩
  exact isRetryableTxError_handleResourceError hrows hretry resourceType resourceName

/- A pause of the loop is at least the first backoff, and less than one and a half times the longest. -/
theorem sleep_bounds (attempt backoff more : ℕ) (hlow : initialRetryBackoff ≤ backoff)
    (hhigh : backoff ≤ maxRetryBackoff) :
    ∀ sleep ∈ (retryLoop zero validateOnly w attempt backoff more).sleeps,
      initialRetryBackoff ≤ sleep ∧ 2 * sleep < 3 * maxRetryBackoff := by
  have hjitter : ∀ attempt backoff, initialRetryBackoff ≤ backoff → backoff ≤ maxRetryBackoff →
      initialRetryBackoff ≤ backoff + w.jitter attempt % (backoff / 2) ∧
      2 * (backoff + w.jitter attempt % (backoff / 2)) < 3 * maxRetryBackoff := by
    intro attempt backoff hlow hhigh
    have hpos : 0 < backoff / 2 := by
      rw [initialRetryBackoff] at hlow
      omega
    have hlt := Nat.mod_lt (w.jitter attempt) hpos
    omega
  fun_induction retryLoop zero validateOnly w attempt backoff more with
  | case5 attempt backoff o err herr hretry more hctx sleep ctxErr hdone =>
    intro sleep' h
    obtain rfl := List.mem_singleton.mp h
    exact hjitter attempt backoff hlow hhigh
  | case6 attempt backoff o err herr hretry more hctx sleep hdone rest ih =>
    intro sleep' h
    obtain rfl | h := List.mem_cons.mp h
    · exact hjitter attempt backoff hlow hhigh
    · refine ih ?_ (Nat.min_le_right _ _) sleep' h
      rw [Nat.le_min]
      exact ⟨by omega, by decide⟩
  | _ =>
    intro sleep h
    cases h

end Pivox.Db
