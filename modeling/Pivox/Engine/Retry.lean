import Mathlib.Data.List.Basic
import Mathlib.Data.Rat.Floor
import Mathlib.Order.Basic
import Mathlib.Tactic.Linarith

/-!
Retries of an activity's call with a growing backoff. A duration is an integer number of
nanoseconds, and the multiplier is taken as a rational number.
-/

namespace Pivox.Engine
variable {E A : Type}

def millisecond : Int := 1000000
def second : Int := 1000000000

def defaultInitialBackoff : Int := 100 * millisecond
def defaultMaxBackoff : Int := 30 * second
def defaultMultiplier : ℚ := 2

structure RetryPolicy where
  maxAttempts : Int
  initialBackoff : Int
  maxBackoff : Int
  multiplier : ℚ
deriving DecidableEq

def RetryPolicy.normalized (p : RetryPolicy) : RetryPolicy where
  maxAttempts := if p.maxAttempts < 1 then 1 else p.maxAttempts
  initialBackoff := if p.initialBackoff ≤ 0 then defaultInitialBackoff else p.initialBackoff
  maxBackoff := if p.maxBackoff ≤ 0 then defaultMaxBackoff else p.maxBackoff
  multiplier := if p.multiplier ≤ 0 then defaultMultiplier else p.multiplier

/- A float as an int64: cut towards zero. What does not fit is the least int64, as on amd64. -/
def toInt64 (x : ℚ) : Int :=
  let n := if 0 ≤ x then ⌊x⌋ else ⌈x⌉
  if -2 ^ 63 ≤ n ∧ n < 2 ^ 63 then n else -2 ^ 63

def nextBackoff (cur : Int) (p : RetryPolicy) : Int :=
  let next := toInt64 (cur * p.multiplier)
  if next > p.maxBackoff then p.maxBackoff else next

/- What the world answers: the context's error before the n-th attempt, the n-th attempt itself, and
the error of the sleep after it. The first attempt is number 1. -/
structure Outcomes (E A : Type) where
  ctxErr : Nat → Option E
  fn : Nat → Except E A
  sleep : Nat → Option E

inductive Event where
  | call
  | sleep (d : Int)
deriving DecidableEq

def withRetryFrom (p : RetryPolicy) (isRetryable : E → Bool) (o : Outcomes E A) (attempt : Nat)
    (backoff : Int) : List Event × Except E A :=
  match o.ctxErr attempt with
  | some err => ([], .error err)
  | none =>
    match o.fn attempt with
    | .ok result => ([.call], .ok result)
    | .error err =>
      if (attempt : Int) ≥ p.maxAttempts ∨ ¬ isRetryable err then ([.call], .error err)
      else
        match o.sleep attempt with
        | some serr => ([.call, .sleep backoff], .error serr)
        | none =>
          let (es, result) := withRetryFrom p isRetryable o (attempt + 1) (nextBackoff backoff p)
          (.call :: .sleep backoff :: es, result)
termination_by (p.maxAttempts - attempt).toNat

/- A nil `isRetryable` retries nothing. -/
def withRetry (policy : RetryPolicy) (isRetryable : Option (E → Bool)) (o : Outcomes E A) :
    List Event × Except E A :=
  let p := policy.normalized
  withRetryFrom p (isRetryable.getD fun _ => false) o 1 p.initialBackoff

/-- The same outcomes, with other errors for theirs. -/
def Outcomes.mapError {F : Type} (f : E → F) (o : Outcomes E A) : Outcomes F A where
  ctxErr n := (o.ctxErr n).map f
  fn n := (o.fn n).mapError f
  sleep n := (o.sleep n).map f

theorem withRetryFrom_mapError {F : Type} {f : E → F} {isRetryable : F → Bool} (p : RetryPolicy)
    (o : Outcomes E A) (attempt : Nat) (backoff : Int) :
    (withRetryFrom p isRetryable (o.mapError f) attempt backoff).2 =
      (withRetryFrom p (fun err => isRetryable (f err)) o attempt backoff).2.mapError f := by
  fun_induction withRetryFrom p (fun err => isRetryable (f err)) o attempt backoff with
  | case1 n backoff err hctx =>
    rw [withRetryFrom]
    simp only [Outcomes.mapError, hctx, Option.map_some]
    rfl
  | case2 n backoff hctx result hfn =>
    rw [withRetryFrom]
    simp only [Outcomes.mapError, hctx, hfn, Option.map_none]
    rfl
  | case3 n backoff hctx err hfn hstop =>
    rw [withRetryFrom]
    simp only [Outcomes.mapError, hctx, hfn, Option.map_none, Except.mapError, if_pos hstop]
  | case4 n backoff hctx err hfn hgo serr hsleep =>
    rw [withRetryFrom]
    simp only [Outcomes.mapError, hctx, hfn, hsleep, Option.map_none, Option.map_some, Except.mapError,
      if_neg hgo]
  | case5 n backoff hctx err hfn hgo hsleep es result hrest ih =>
    rw [hrest] at ih
    rw [withRetryFrom]
    simp only [Outcomes.mapError, hctx, hfn, hsleep, Option.map_none, Except.mapError, if_neg hgo]
    exact ih

theorem withRetry_mapError {F : Type} {f : E → F} {isRetryable : F → Bool} (policy : RetryPolicy)
    (o : Outcomes E A) : (withRetry policy (some isRetryable) (o.mapError f)).2 =
      (withRetry policy (some fun err => isRetryable (f err)) o).2.mapError f :=
  withRetryFrom_mapError policy.normalized o 1 policy.normalized.initialBackoff

/-! The policy of a workflow definition -/

structure ProtoDuration where
  seconds : Int
  nanos : Int

/- Seconds that do not fit an int64 of nanoseconds make the duration the nearest end of it. An unset
one is zero. -/
def asDuration : Option ProtoDuration → Int
  | none => 0
  | some d =>
    if d.seconds * second < -2 ^ 63 then -2 ^ 63
    else if 2 ^ 63 ≤ d.seconds * second then 2 ^ 63 - 1
    else max (-2 ^ 63) (min (2 ^ 63 - 1) (d.seconds * second + d.nanos))

structure ProtoRetryPolicy where
  maxAttempts : Int
  initialBackoff : Option ProtoDuration
  maxBackoff : Option ProtoDuration
  backoffMultiplier : ℚ

def retryPolicy : Option ProtoRetryPolicy → RetryPolicy
  | none => ⟨1, 0, 0, 0⟩
  | some p => ⟨p.maxAttempts, asDuration p.initialBackoff, asDuration p.maxBackoff,
      p.backoffMultiplier⟩

/-! What a run of retries keeps to -/

def calls (es : List Event) : Nat :=
  es.countP (· = .call)

def sleeps (es : List Event) : List Int :=
  es.filterMap fun e => match e with
    | .call => none
    | .sleep d => some d

@[simp] theorem calls_nil : calls [] = 0 := rfl
@[simp] theorem calls_call (es : List Event) : calls (.call :: es) = calls es + 1 := by simp [calls]
@[simp] theorem calls_sleep (d : Int) (es : List Event) : calls (.sleep d :: es) = calls es := by
  simp [calls]

@[simp] theorem sleeps_nil : sleeps [] = [] := rfl
@[simp] theorem sleeps_call (es : List Event) : sleeps (.call :: es) = sleeps es := rfl
@[simp] theorem sleeps_sleep (d : Int) (es : List Event) :
    sleeps (.sleep d :: es) = d :: sleeps es := rfl

/- A call first, and from then on a sleep and a call in turn. -/
def Alternates : List Event → Prop
  | [] => True
  | [.call] => True
  | .call :: .sleep _ :: es => Alternates es
  | .call :: .call :: _ => False
  | .sleep _ :: _ => False

/-- A sleep comes after a call that failed with a retryable error, and is the last event only if the
context ended it or was done after it. -/
structure RetryBounds (policy : RetryPolicy) (isRetryable : E → Bool) (o : Outcomes E A)
    (run : List Event × Except E A) : Prop where
  calls_le : (calls run.1 : Int) ≤ max 1 policy.maxAttempts
  calls_pos : o.ctxErr 1 = none → 1 ≤ calls run.1
  alternates : Alternates run.1
  retryable : ∀ n, 1 ≤ n → n ≤ (sleeps run.1).length → ∃ err, o.fn n = .error err ∧ isRetryable err
  done : run.1 = [] → ∃ err, o.ctxErr 1 = some err ∧ run.2 = .error err
  last_call : run.1.getLast? = some .call → run.2 = o.fn (calls run.1)
  last_sleep : ∀ d, run.1.getLast? = some (.sleep d) → ∃ err, run.2 = .error err ∧
    (o.sleep (calls run.1) = some err ∨
      o.sleep (calls run.1) = none ∧ o.ctxErr (calls run.1 + 1) = some err)
  exhausted : (calls run.1 : Int) = max 1 policy.maxAttempts → run.2 = o.fn (calls run.1)
  sleeps_pos : ∀ d ∈ sleeps run.1, 0 < d
  sleeps_le : ∀ d ∈ sleeps run.1, d ≤ policy.normalized.maxBackoff
  sleeps_mono : 1 ≤ policy.normalized.multiplier → (sleeps run.1).Pairwise (· ≤ ·)

/-! When a run keeps to it -/

/- The attempt is made, and its error is one to retry. -/
structure ToRetry (p : RetryPolicy) (isRetryable : E → Bool) (o : Outcomes E A) (n : Nat) :
    Prop where
  live : o.ctxErr n = none
  fails : ∃ err, o.fn n = .error err ∧ isRetryable err
  remain : (n : Int) < p.maxAttempts

/- The outcomes bring the retries to sleep number k after the attempt; the first is number 0. -/
structure Reaches (p : RetryPolicy) (isRetryable : E → Bool) (o : Outcomes E A) (attempt k : Nat) :
    Prop where
  toRetry : ∀ j ≤ k, ToRetry p isRetryable o (attempt + j)
  slept : ∀ j < k, o.sleep (attempt + j) = none

/- The backoff in exact arithmetic. -/
def exactBackoff (p : RetryPolicy) : Nat → Int
  | 0 => p.initialBackoff
  | k + 1 => min ⌊exactBackoff p k * p.multiplier⌋ p.maxBackoff

/- The first backoff is within the cap, and a later one comes of a product that is at least a
nanosecond and fits an int64. -/
def Sound (p : RetryPolicy) : Nat → Prop
  | 0 => p.initialBackoff ≤ p.maxBackoff
  | k + 1 => 1 ≤ exactBackoff p k * p.multiplier ∧ exactBackoff p k * p.multiplier < 2 ^ 63


/-! Policies and conversions -/

theorem RetryPolicy.normalized_maxAttempts (p : RetryPolicy) :
    p.normalized.maxAttempts = max 1 p.maxAttempts := by
  simp only [RetryPolicy.normalized]
  omega

theorem RetryPolicy.initialBackoff_pos (p : RetryPolicy) : 0 < p.normalized.initialBackoff := by
  simp only [RetryPolicy.normalized, defaultInitialBackoff, millisecond]
  omega

theorem RetryPolicy.maxBackoff_pos (p : RetryPolicy) : 0 < p.normalized.maxBackoff := by
  simp only [RetryPolicy.normalized, defaultMaxBackoff, second]
  omega

theorem toInt64_of_lt {x : ℚ} (hone : 1 ≤ x) (hlt : x < 2 ^ 63) : toInt64 x = ⌊x⌋ := by
  have hnonneg : 0 ≤ x := by linarith
  have hfloor : (1 : Int) ≤ ⌊x⌋ := Int.le_floor.mpr (by exact_mod_cast hone)
  have hfits : ⌊x⌋ < 2 ^ 63 := Int.floor_lt.mpr (by exact_mod_cast hlt)
  simp only [toInt64, if_pos hnonneg]
  rw [if_pos ⟨by omega, hfits⟩]

theorem toInt64_pos {x : ℚ} (h : 0 < toInt64 x) : 1 ≤ x ∧ x < 2 ^ 63 := by
  unfold toInt64 at h
  by_cases hnonneg : 0 ≤ x
  · simp only [if_pos hnonneg] at h
    split at h
    · rename_i hfits
      have hone : (1 : Int) ≤ ⌊x⌋ := by omega
      have hlt : x < ((2 ^ 63 : Int) : ℚ) := Int.floor_lt.mp hfits.2
      exact ⟨by exact_mod_cast Int.le_floor.mp hone, by exact_mod_cast hlt⟩
    · omega
  · simp only [if_neg hnonneg] at h
    have hceil : ⌈x⌉ ≤ 0 := Int.ceil_le.mpr (by push_cast; linarith)
    split at h <;> omega

/-! The retries from an attempt on -/

variable {p : RetryPolicy} {isRetryable : E → Bool} {o : Outcomes E A} {n k : Nat}
  {backoff : Int} {run : List Event × Except E A}

structure RunFrom (p : RetryPolicy) (isRetryable : E → Bool) (o : Outcomes E A) (n : Nat)
    (backoff : Int) (run : List Event × Except E A) : Prop where
  calls_le : (n : Int) ≤ p.maxAttempts → (n + calls run.1 : Int) ≤ p.maxAttempts + 1
  calls_pos : o.ctxErr n = none → 1 ≤ calls run.1
  alternates : Alternates run.1
  done : run.1 = [] → ∃ err, o.ctxErr n = some err ∧ run.2 = .error err
  last_call : run.1.getLast? = some .call → run.2 = o.fn (n + calls run.1 - 1)
  last_sleep : ∀ d, run.1.getLast? = some (.sleep d) → ∃ err, run.2 = .error err ∧
    (o.sleep (n + calls run.1 - 1) = some err ∨
      o.sleep (n + calls run.1 - 1) = none ∧ o.ctxErr (n + calls run.1) = some err)
  exhausted : (n + calls run.1 : Int) = p.maxAttempts + 1 → 1 ≤ calls run.1 →
    run.2 = o.fn (n + calls run.1 - 1)
  reaches : ∀ k, k < (sleeps run.1).length ↔ Reaches p isRetryable o n k
  values : ∀ k d, (sleeps run.1)[k]? = some d → d = (fun d => nextBackoff d p)^[k] backoff

theorem Reaches.first (h : Reaches p isRetryable o n k) : ToRetry p isRetryable o n :=
  h.toRetry 0 (Nat.zero_le k)

theorem reaches_zero : Reaches p isRetryable o n 0 ↔ ToRetry p isRetryable o n := by
  constructor
  · intro h
    exact h.first
  · intro h
    constructor
    · intro j hj
      rwa [Nat.le_zero.mp hj]
    · intro j hj
      exact absurd hj (Nat.not_lt_zero j)

theorem reaches_succ : Reaches p isRetryable o n (k + 1) ↔
    ToRetry p isRetryable o n ∧ o.sleep n = none ∧ Reaches p isRetryable o (n + 1) k := by
  constructor
  · intro h
    refine ⟨h.first, h.slept 0 (Nat.succ_pos k), ?_, ?_⟩
    · intro j hj
      have hnext := h.toRetry (j + 1) (by omega)
      rwa [Nat.add_right_comm]
    · intro j hj
      have hnext := h.slept (j + 1) (by omega)
      rwa [Nat.add_right_comm]
  · rintro ⟨hfirst, hsleep, hrest⟩
    constructor
    · intro j hj
      cases j with
      | zero => exact hfirst
      | succ j =>
        have hnext := hrest.toRetry j (by omega)
        rwa [Nat.add_right_comm] at hnext
    · intro j hj
      cases j with
      | zero => exact hsleep
      | succ j =>
        have hnext := hrest.slept j (by omega)
        rwa [Nat.add_right_comm] at hnext

theorem runFrom_done {err : E} (hctx : o.ctxErr n = some err) :
    RunFrom p isRetryable o n backoff ([], .error err) where
  calls_le h := by simp; omega
  calls_pos h := by simp [hctx] at h
  alternates := trivial
  done _ := ⟨err, hctx, rfl⟩
  last_call h := by cases h
  last_sleep d h := by cases h
  exhausted h hpos := by simp at hpos
  reaches k := by
    have hnot : ¬ Reaches p isRetryable o n k := by
      intro h
      have hlive := h.first.live
      simp [hctx] at hlive
    simp [hnot]
  values k d h := by simp at h

theorem runFrom_call (hstop : ¬ ToRetry p isRetryable o n) :
    RunFrom p isRetryable o n backoff ([.call], o.fn n) where
  calls_le h := by simp; omega
  calls_pos _ := by simp
  alternates := trivial
  done h := by cases h
  last_call _ := by simp
  last_sleep d h := by cases h
  exhausted _ _ := by simp
  reaches k := by
    have hnot : ¬ Reaches p isRetryable o n k := fun h => hstop h.first
    simp [hnot]
  values k d h := by simp at h

theorem runFrom_cut {serr : E} (hretry : ToRetry p isRetryable o n) (hsleep : o.sleep n = some serr) :
    RunFrom p isRetryable o n backoff ([.call, .sleep backoff], .error serr) where
  calls_le h := by
    have hremain := hretry.remain
    simp
    omega
  calls_pos _ := by simp
  alternates := trivial
  done h := by cases h
  last_call h := by cases h
  last_sleep d _ := ⟨serr, rfl, by simp [hsleep]⟩
  exhausted h _ := by
    have hremain := hretry.remain
    simp at h
    omega
  reaches k := by
    cases k with
    | zero => simp [reaches_zero, hretry]
    | succ k => simp [reaches_succ, hsleep]
  values k d h := by
    cases k with
    | zero => simpa using h.symm
    | succ k => simp at h

theorem getLast?_retry {es : List Event} {e : Event}
    (h : (.call :: .sleep backoff :: es).getLast? = some e) :
    es = [] ∧ e = .sleep backoff ∨ es ≠ [] ∧ es.getLast? = some e := by
  cases es with
  | nil => exact Or.inl ⟨rfl, by simpa using h.symm⟩
  | cons first rest => exact Or.inr ⟨List.cons_ne_nil _ _, by simpa using h⟩

theorem RunFrom.step (hretry : ToRetry p isRetryable o n) (hsleep : o.sleep n = none)
    (h : RunFrom p isRetryable o (n + 1) (nextBackoff backoff p) run) :
    RunFrom p isRetryable o n backoff (.call :: .sleep backoff :: run.1, run.2) where
  calls_le _ := by
    have hremain := hretry.remain
    have hle := h.calls_le (by push_cast; omega)
    simp only [calls_call, calls_sleep]
    push_cast at hle ⊢
    omega
  calls_pos _ := by simp
  alternates := h.alternates
  done hnil := by cases hnil
  last_call hlast := by
    rcases getLast?_retry hlast with ⟨-, hsleep⟩ | ⟨-, hlast⟩
    · cases hsleep
    · have hresult := h.last_call hlast
      rw [Nat.add_right_comm, Nat.add_assoc] at hresult
      simpa only [calls_call, calls_sleep] using hresult
  last_sleep d hlast := by
    rcases getLast?_retry hlast with ⟨hnil, -⟩ | ⟨-, hlast⟩
    · obtain ⟨err, hctx, hresult⟩ := h.done hnil
      exact ⟨err, hresult, Or.inr ⟨by simp [hnil, hsleep], by simpa [hnil] using hctx⟩⟩
    · have hended := h.last_sleep d hlast
      rw [Nat.add_right_comm, Nat.add_assoc] at hended
      simpa only [calls_call, calls_sleep] using hended
  exhausted heq _ := by
    have hremain := hretry.remain
    simp only [calls_call, calls_sleep] at heq ⊢
    push_cast at heq
    have hresult := h.exhausted (by push_cast; omega) (by omega)
    rwa [Nat.add_right_comm] at hresult
  reaches k := by
    cases k with
    | zero => simp [reaches_zero, hretry]
    | succ k => simp [reaches_succ, hretry, hsleep, h.reaches k]
  values k d hk := by
    cases k with
    | zero => simpa using hk.symm
    | succ k =>
      rw [Function.iterate_succ_apply]
      exact h.values k d (by simpa using hk)

theorem runFrom_withRetryFrom (p : RetryPolicy) (isRetryable : E → Bool) (o : Outcomes E A)
    (n : Nat) (backoff : Int) :
    RunFrom p isRetryable o n backoff (withRetryFrom p isRetryable o n backoff) := by
  fun_induction withRetryFrom p isRetryable o n backoff with
  | case1 n backoff err hctx => exact runFrom_done hctx
  | case2 n backoff hctx result hfn =>
    rw [← hfn]
    exact runFrom_call fun h => by simpa [hfn] using h.fails
  | case3 n backoff hctx err hfn hstop =>
    rw [← hfn]
    apply runFrom_call
    intro h
    obtain ⟨err', hfails, hretryable⟩ := h.fails
    have hremain := h.remain
    obtain rfl : err = err' := by simpa [hfn] using hfails
    exact hstop.elim (by omega) (absurd hretryable)
  | case4 n backoff hctx err hfn hgo serr hsleep =>
    rw [not_or, not_not] at hgo
    exact runFrom_cut ⟨hctx, ⟨err, hfn, hgo.2⟩, by omega⟩ hsleep
  | case5 n backoff hctx err hfn hgo hsleep es result hrest ih =>
    rw [not_or, not_not] at hgo
    rw [hrest] at ih
    exact ih.step ⟨hctx, ⟨err, hfn, hgo.2⟩, by omega⟩ hsleep

/-! The backoffs -/

theorem nextBackoff_le (cur : Int) (p : RetryPolicy) : nextBackoff cur p ≤ p.maxBackoff := by
  simp only [nextBackoff]
  split <;> omega

theorem nextBackoff_pos {cur : Int} (h : 0 < nextBackoff cur p) :
    1 ≤ cur * p.multiplier ∧ cur * p.multiplier < 2 ^ 63 := by
  apply toInt64_pos
  simp only [nextBackoff] at h
  split at h <;> omega

theorem nextBackoff_exact {cur : Int} (hone : 1 ≤ cur * p.multiplier)
    (hlt : cur * p.multiplier < 2 ^ 63) :
    nextBackoff cur p = min ⌊cur * p.multiplier⌋ p.maxBackoff := by
  simp only [nextBackoff, toInt64_of_lt hone hlt]
  omega

/- Where every backoff so far is sound, they are as in exact arithmetic. -/
theorem backoffs_exact (h : ∀ j < k, Sound p (j + 1)) :
    (fun d => nextBackoff d p)^[k] p.initialBackoff = exactBackoff p k := by
  induction k with
  | zero => rfl
  | succ k ih =>
    have hsound := h k (Nat.lt_succ_self k)
    rw [Function.iterate_succ_apply', ih fun j hj => h j (by omega), exactBackoff]
    exact nextBackoff_exact hsound.1 hsound.2

theorem exactBackoff_pos (hinitial : 0 < p.initialBackoff) (hmax : 0 < p.maxBackoff)
    (h : ∀ j ≤ k, Sound p j) : 0 < exactBackoff p k := by
  cases k with
  | zero => exact hinitial
  | succ k =>
    have hsound := h (k + 1) (Nat.le_refl _)
    have hone : (1 : Int) ≤ ⌊exactBackoff p k * p.multiplier⌋ :=
      Int.le_floor.mpr (by exact_mod_cast hsound.1)
    rw [exactBackoff]
    omega

theorem exactBackoff_le (h : p.initialBackoff ≤ p.maxBackoff) : exactBackoff p k ≤ p.maxBackoff := by
  cases k with
  | zero => exact h
  | succ k => exact min_le_right _ _

theorem exactBackoff_mono (hmultiplier : 1 ≤ p.multiplier)
    (hle : p.initialBackoff ≤ p.maxBackoff) (hpos : 0 < exactBackoff p k) :
    exactBackoff p k ≤ exactBackoff p (k + 1) := by
  have hproduct : (exactBackoff p k : ℚ) ≤ exactBackoff p k * p.multiplier := by
    have hnonneg : (0 : ℚ) ≤ exactBackoff p k := by exact_mod_cast hpos.le
    exact le_mul_of_one_le_right hnonneg hmultiplier
  exact le_min (Int.le_floor.mpr hproduct) (exactBackoff_le hle)

theorem sleeps_sound (h : RunFrom p isRetryable o n p.initialBackoff run)
    (hcap : ∀ d ∈ sleeps run.1, d ≤ p.maxBackoff) (hpos : ∀ d ∈ sleeps run.1, 0 < d)
    (hk : k < (sleeps run.1).length) : Sound p k := by
  have hvalue : ∀ j < (sleeps run.1).length,
      (fun d => nextBackoff d p)^[j] p.initialBackoff ∈ sleeps run.1 := by
    intro j hj
    rw [← h.values j _ (List.getElem?_eq_getElem hj)]
    exact List.getElem_mem hj
  induction k using Nat.strong_induction_on with
  | _ k ih =>
    cases k with
    | zero => exact hcap _ (hvalue 0 hk)
    | succ k =>
      have hexact := backoffs_exact fun j (hj : j < k) => ih (j + 1) (by omega) (by omega)
      have hnext := hpos _ (hvalue (k + 1) hk)
      rw [Function.iterate_succ_apply', hexact] at hnext
      exact nextBackoff_pos hnext

theorem sleeps_exact (h : RunFrom p isRetryable o n p.initialBackoff run)
    (hsound : ∀ k < (sleeps run.1).length, Sound p k) {d : Int} (hk : (sleeps run.1)[k]? = some d) :
    d = exactBackoff p k := by
  obtain ⟨hlt, -⟩ := List.getElem?_eq_some_iff.mp hk
  rw [h.values k d hk]
  exact backoffs_exact fun j hj => hsound (j + 1) (by omega)

theorem exactBackoff_le_of_lt (hmultiplier : 1 ≤ p.multiplier) (hinitial : 0 < p.initialBackoff)
    (hmax : 0 < p.maxBackoff) {i m : Nat} (hsound : ∀ k < m, Sound p k) (hik : i ≤ k) (hk : k < m) :
    exactBackoff p i ≤ exactBackoff p k := by
  induction k, hik using Nat.le_induction with
  | base => exact le_rfl
  | succ k hik ih =>
    have hpos := exactBackoff_pos hinitial hmax fun j (hj : j ≤ k) => hsound j (by omega)
    have hcap : Sound p 0 := hsound 0 (by omega)
    exact (ih (by omega)).trans (exactBackoff_mono hmultiplier hcap hpos)

/-- The retries keep to their bounds if and only if each sleep that they come to has its backoff at
hand: the first is within the cap, and a later one comes of a product that is neither below a
nanosecond nor too large. -/
theorem withRetry_bounds (policy : RetryPolicy) (isRetryable : Option (E → Bool))
    (o : Outcomes E A) :
    RetryBounds policy (isRetryable.getD fun _ => false) o (withRetry policy isRetryable o) ↔
      ∀ k, Reaches policy.normalized (isRetryable.getD fun _ => false) o 1 k →
        Sound policy.normalized k := by
  have hrun := runFrom_withRetryFrom policy.normalized (isRetryable.getD fun _ => false) o 1
    policy.normalized.initialBackoff
  have hattempts := policy.normalized_maxAttempts
  rw [withRetry]
  generalize withRetryFrom policy.normalized (isRetryable.getD fun _ => false) o 1
    policy.normalized.initialBackoff = run at hrun ⊢
  constructor
  · intro h k hreaches
    exact sleeps_sound hrun h.sleeps_le h.sleeps_pos ((hrun.reaches k).mpr hreaches)
  · intro h
    have hsound : ∀ k < (sleeps run.1).length, Sound policy.normalized k := fun k hk =>
      h k ((hrun.reaches k).mp hk)
    have hcalls : 1 + calls run.1 - 1 = calls run.1 := Nat.add_sub_cancel_left ..
    constructor
    · have hle := hrun.calls_le (by omega)
      omega
    · exact hrun.calls_pos
    · exact hrun.alternates
    · intro n hone hn
      have hreaches := (hrun.reaches (n - 1)).mp (by omega)
      have hretry := hreaches.toRetry (n - 1) (Nat.le_refl _)
      rw [show 1 + (n - 1) = n by omega] at hretry
      exact hretry.fails
    · exact hrun.done
    · intro hlast
      rw [hrun.last_call hlast, hcalls]
    · intro d hlast
      have hended := hrun.last_sleep d hlast
      rwa [hcalls, Nat.add_comm 1] at hended
    · intro hspent
      rw [hrun.exhausted (by omega) (by omega), hcalls]
    · intro d hd
      obtain ⟨k, hk⟩ := List.mem_iff_getElem?.mp hd
      obtain ⟨hlt, -⟩ := List.getElem?_eq_some_iff.mp hk
      rw [sleeps_exact hrun hsound hk]
      exact exactBackoff_pos policy.initialBackoff_pos policy.maxBackoff_pos
        fun j hj => hsound j (by omega)
    · intro d hd
      obtain ⟨k, hk⟩ := List.mem_iff_getElem?.mp hd
      obtain ⟨hlt, -⟩ := List.getElem?_eq_some_iff.mp hk
      have hcap : Sound policy.normalized 0 := hsound 0 (by omega)
      rw [sleeps_exact hrun hsound hk]
      exact exactBackoff_le hcap
    · intro hmultiplier
      apply List.pairwise_iff_getElem.mpr
      intro i k hi hk hik
      rw [sleeps_exact hrun hsound (List.getElem?_eq_getElem hi),
        sleeps_exact hrun hsound (List.getElem?_eq_getElem hk)]
      exact exactBackoff_le_of_lt hmultiplier policy.initialBackoff_pos policy.maxBackoff_pos
        hsound hik.le hk

/- A first backoff of a minute, and the cap left to its default of 30 seconds. -/
def minutePolicy : ProtoRetryPolicy := ⟨2, some ⟨60, 0⟩, none, 0⟩

def failing : Outcomes Unit Unit := ⟨fun _ => none, fun _ => .error (), fun _ => none⟩

theorem backoff_above_cap : ¬ ∀ (policy : Option ProtoRetryPolicy)
    (isRetryable : Option (Unit → Bool)) (o : Outcomes Unit Unit),
    RetryBounds (retryPolicy policy) (isRetryable.getD fun _ => false) o
      (withRetry (retryPolicy policy) isRetryable o) := by
  intro h
  have hbounds := h (some minutePolicy) (some fun _ => true) failing
  have hsleep : 60 * second ∈
      sleeps (withRetry (retryPolicy (some minutePolicy)) (some fun _ => true) failing).1 := by
    rw [withRetry, withRetryFrom]
    simp [failing, retryPolicy, minutePolicy, RetryPolicy.normalized, asDuration, second]
  exact absurd (hbounds.sleeps_le _ hsleep) (by decide)

end Pivox.Engine
