import Mathlib.Data.List.Infix
import Mathlib.Logic.Function.Iterate

/-!
A timeline: a present between a past and a future, moved by undoing and redoing.
-/

/- The past is oldest first, the future soonest first. -/
structure Timeline (α : Type) where
  past : List α
  present : α
  future : List α

namespace Timeline
variable {α : Type} {t : Timeline α}

def undo (t : Timeline α) : Timeline α :=
  match t.past.getLast? with
  | none => t
  | some previous => ⟨t.past.dropLast, previous, t.present :: t.future⟩

def redo (t : Timeline α) : Timeline α :=
  match t.future with
  | [] => t
  | next :: future => ⟨t.past ++ [t.present], next, future⟩

theorem undo_of_past_nil (h : t.past = []) : t.undo = t := by
  unfold undo
  rw [h]
  rfl

theorem redo_of_future_nil (h : t.future = []) : t.redo = t := by
  unfold redo
  rw [h]

theorem redo_undo (h : t.past ≠ []) : t.undo.redo = t := by
  have hlast : t.past.getLast? = some (t.past.getLast h) := List.getLast?_eq_some_getLast h
  unfold undo
  rw [hlast]
  simp [redo, List.dropLast_append_getLast h]

theorem length_undo : t.undo.past.length = t.past.length - 1 := by
  unfold undo
  split
  · next hnone => simp [List.getLast?_eq_none_iff.mp hnone]
  · exact List.length_dropLast

/-- As many redos as undos lead back, as long as there was something to undo. -/
theorem redo_iterate_undo {k : ℕ} (h : k ≤ t.past.length) : redo^[k] (undo^[k] t) = t := by
  induction k generalizing t with
  | zero => rfl
  | succ k ih =>
    have hpast : t.past ≠ [] := by
      rintro hnil
      simp [hnil] at h
    have hk : k ≤ t.undo.past.length := by
      rw [length_undo]
      omega
    rw [Function.iterate_succ_apply undo, Function.iterate_succ_apply' redo, ih hk, redo_undo hpast]

theorem length_undo_iterate (k : ℕ) : (undo^[k] t).past.length = t.past.length - k := by
  induction k with
  | zero => rfl
  | succ k ih =>
    rw [Function.iterate_succ_apply', length_undo, ih]
    omega

/-- They do so too where nothing is left to redo. -/
theorem redo_iterate_undo_of_future_nil (k : ℕ) (h : t.future = []) :
    redo^[k] (undo^[k] t) = t := by
  obtain hk | hk := le_total k t.past.length
  · exact redo_iterate_undo hk
  · obtain ⟨m, rfl⟩ := Nat.exists_eq_add_of_le' hk
    have hnil : (undo^[t.past.length] t).past = [] :=
      List.length_eq_zero_iff.mp (by rw [length_undo_iterate, Nat.sub_self])
    have hundo : undo^[m] (undo^[t.past.length] t) = undo^[t.past.length] t :=
      Function.iterate_fixed (undo_of_past_nil hnil) m
    rw [Function.iterate_add_apply undo, hundo, Function.iterate_add_apply redo,
      redo_iterate_undo le_rfl]
    exact Function.iterate_fixed (redo_of_future_nil h) m

end Timeline
