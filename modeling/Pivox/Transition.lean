import Mathlib.Data.Option.Basic

/-!
Runs of a transition function, and of those of its steps that meet a condition.
-/

namespace Transition
variable {σ Act : Type}

def exec (step : σ → Act → Option σ) (s : σ) : List Act → Option σ
  | [] => some s
  | a :: as => (step s a).bind fun s' => exec step s' as

/-- The runs all of whose steps meet the condition `C`. -/
inductive Runs (step : σ → Act → Option σ) (C : σ → Act → Prop) : σ → σ → Prop where
  | refl (s : σ) : Runs step C s s
  | tail {s s' s'' : σ} {a : Act} : Runs step C s s' → C s' a → step s' a = some s'' →
      Runs step C s s''

variable {step : σ → Act → Option σ} {C D : σ → Act → Prop} {s s' s'' : σ}

theorem Runs.trans (h : Runs step C s s') (h' : Runs step C s' s'') : Runs step C s s'' := by
  induction h' with
  | refl => exact h
  | tail _ hc hs ih => exact ih.tail hc hs

theorem Runs.mono (hCD : ∀ s a, C s a → D s a) (h : Runs step C s s') : Runs step D s s' := by
  induction h with
  | refl => exact .refl _
  | tail _ hc hs ih => exact ih.tail (hCD _ _ hc) hs

/-- What every step keeps holds after every run. -/
theorem Runs.invariant {I : σ → Prop} (h : Runs step C s s') (hs : I s)
    (hstep : ∀ s a s', I s → C s a → step s a = some s' → I s') : I s' := by
  induction h with
  | refl => exact hs
  | tail _ hc hstep' ih => exact hstep _ _ _ ih hc hstep'

/-- A step of a run may count on the run so far. -/
theorem Runs.reached (h : Runs step C s s') :
    Runs step (fun t a => C t a ∧ Runs step C s t) s s' := by
  induction h with
  | refl => exact .refl _
  | tail hr hc hs ih => exact ih.tail ⟨hc, hr⟩ hs

/- Whether every step of a run meets the condition. -/
def meetsAll (step : σ → Act → Option σ) (C : σ → Act → Prop) [∀ s a, Decidable (C s a)] (s : σ) :
    List Act → Bool
  | [] => true
  | a :: as => C s a && (step s a).all fun s' => meetsAll step C s' as

theorem Runs.of_exec [∀ s a, Decidable (C s a)] (as : List Act) (h : exec step s as = some s')
    (hC : meetsAll step C s as = true) : Runs step C s s' := by
  induction as generalizing s with
  | nil =>
    cases h
    exact .refl _
  | cons a as ih =>
    obtain ⟨t, ht, h⟩ := Option.bind_eq_some_iff.mp h
    simp only [meetsAll, ht, Option.all_some, Bool.and_eq_true, decide_eq_true_eq] at hC
    exact ((Runs.refl s).tail hC.1 ht).trans (ih h hC.2)

/- The same for a run without a condition. -/
theorem Runs.of_exec_free (as : List Act) (h : exec step s as = some s') :
    Runs step (fun _ _ => True) s s' := by
  induction as generalizing s with
  | nil =>
    cases h
    exact .refl _
  | cons a as ih =>
    obtain ⟨t, ht, h⟩ := Option.bind_eq_some_iff.mp h
    exact ((Runs.refl s).tail trivial ht).trans (ih h)

end Transition
