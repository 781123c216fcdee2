import Mathlib.Data.List.Sort
import Mathlib.Order.Lattice.Nat

/-!
Keyset pagination: pages in the order of a key, each after the last key of the page before.
-/

namespace Pivox.Sql
variable {α κ : Type} [LinearOrder κ] (key : α → κ)

def isAfter (cursor : Option κ) (row : α) : Bool :=
  match cursor with
  | none => true
  | some c => c < key row

/- WHERE cursor IS NULL OR key > cursor ORDER BY key LIMIT pageLimit -/
def selectAfter (rows : List α) (cursor : Option κ) (pageLimit : ℕ) : List α :=
  ((rows.filter (isAfter key cursor)).insertionSort fun a b => key a ≤ key b).take pageLimit

/- Of one row more than a page takes, the page, and its last row if that is not all. -/
def paginate (rows : List α) (pageSize : ℕ) : List α × Option α :=
  if pageSize < 1 ∨ rows.length ≤ pageSize then (rows, none)
  else (rows.take pageSize, (rows.take pageSize).getLast?)

def page (rows : List α) (cursor : Option κ) (pageSize : ℕ) : List α × Option κ :=
  let p := paginate (selectAfter key rows cursor (pageSize + 1)) pageSize
  (p.1, p.2.map key)

/- All that a scan from the cursor on has before it. -/
def remaining (rows : List α) (cursor : Option κ) : List α :=
  (rows.filter (isAfter key cursor)).insertionSort fun a b => key a ≤ key b

variable {key} {rows : List α} {cursor : Option κ} {pageSize : ℕ} {row : α} {c : κ}

theorem mem_remaining :
    row ∈ remaining key rows cursor ↔ row ∈ rows ∧ isAfter key cursor row = true := by
  rw [remaining, List.mem_insertionSort, List.mem_filter]

theorem pairwise_remaining (h : (rows.map key).Nodup) :
    (remaining key rows cursor).Pairwise fun a b => key a < key b := by
  let r : α → α → Prop := fun a b => key a ≤ key b
  have htotal : Std.Total r := ⟨fun a b => le_total (key a) (key b)⟩
  have htrans : IsTrans α r := ⟨fun _ _ _ => le_trans⟩
  have hsorted : (remaining key rows cursor).Pairwise r := List.pairwise_insertionSort r _
  have hnodup : ((remaining key rows cursor).map key).Nodup :=
    ((List.perm_insertionSort r _).map key).nodup_iff.mpr
      (h.sublist (List.filter_sublist.map key))
  rw [List.Nodup, List.pairwise_map] at hnodup
  exact hsorted.imp₂ (fun _ _ hle hne => lt_of_le_of_ne hle hne) hnodup

variable (key rows cursor) in
/-- The last page is all that remains; another one is its beginning, up to the next cursor. -/
theorem page_cases (hsize : 1 ≤ pageSize) :
    page key rows cursor pageSize = (remaining key rows cursor, none) ∨
      ∃ last, page key rows cursor pageSize =
          ((remaining key rows cursor).take pageSize, some (key last)) ∧
        ((remaining key rows cursor).take pageSize).getLast? = some last := by
  rw [page, selectAfter, ← remaining, paginate]
  generalize remaining key rows cursor = all
  by_cases hall : all.length ≤ pageSize
  · left
    have htake : all.take (pageSize + 1) = all := List.take_of_length_le (by omega)
    rw [htake, if_pos (.inr hall)]
    rfl
  · right
    have htake : (all.take (pageSize + 1)).take pageSize = all.take pageSize := by
      rw [List.take_take, min_eq_left (Nat.le_succ pageSize)]
    have hlength : ¬ (all.take (pageSize + 1)).length ≤ pageSize := by
      rw [List.length_take]
      omega
    have hne : all.take pageSize ≠ [] := by
      rw [← List.length_pos_iff, List.length_take]
      omega
    rw [if_neg (by omega), htake]
    exact ⟨_, by rw [List.getLast?_eq_some_getLast hne]; rfl, List.getLast?_eq_some_getLast hne⟩

theorem page_isBeginning (hsize : 1 ≤ pageSize) :
    (page key rows cursor pageSize).1 <+: remaining key rows cursor := by
  obtain h | ⟨last, h, -⟩ := page_cases key rows cursor hsize
  · rw [h]
  · rw [h]
    exact List.take_prefix _ _

/-- What remains is on the page, or after the next cursor. -/
theorem mem_page_or_lt (hsize : 1 ≤ pageSize) (hkeys : (rows.map key).Nodup)
    (hrow : row ∈ remaining key rows cursor) : row ∈ (page key rows cursor pageSize).1 ∨
      ∃ c, (page key rows cursor pageSize).2 = some c ∧ c < key row := by
  obtain h | ⟨last, h, hlast⟩ := page_cases key rows cursor hsize
  · rw [h]
    exact .inl hrow
  · rw [h]
    have hsorted : (remaining key rows cursor).Pairwise fun a b => key a < key b :=
      pairwise_remaining hkeys
    rw [← List.take_append_drop pageSize (remaining key rows cursor)] at hsorted hrow
    obtain hpage | hrest := List.mem_append.mp hrow
    · exact .inl hpage
    · exact .inr ⟨key last, rfl,
        (List.pairwise_append.mp hsorted).2.2 last (List.mem_of_getLast? hlast) row hrest⟩

theorem next_mem_page (hsize : 1 ≤ pageSize) (hnext : (page key rows cursor pageSize).2 = some c) :
    ∃ last ∈ (page key rows cursor pageSize).1, key last = c := by
  obtain h | ⟨last, h, hlast⟩ := page_cases key rows cursor hsize
  · rw [h] at hnext
    cases hnext
  · rw [h] at hnext ⊢
    exact ⟨last, List.mem_of_getLast? hlast, Option.some.inj hnext⟩

end Pivox.Sql
