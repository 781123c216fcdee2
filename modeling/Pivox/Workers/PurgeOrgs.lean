import Mathlib.Data.List.Count
import Mathlib.Data.List.Induction
import Mathlib.Data.List.Nodup
import Mathlib.Data.List.TakeDrop
import Mathlib.Data.Nat.Notation

/-!
The ticks of the worker that purges organizations past their grace window, some of which it fails to
purge each time.
-/

namespace Pivox.Workers

structure Org where
  id : ℕ
  purgeTime : ℕ
  deriving DecidableEq

/- The soft-deleted organizations in the order in which they are listed. -/
structure SoftDeleted where
  orgs : List Org
  sorted : orgs.Pairwise (·.purgeTime ≤ ·.purgeTime)
  nodup : (orgs.map Org.id).Nodup

def listOrgsPastPurgeTime (now : ℕ) (orgs : List Org) : List Org :=
  (orgs.filter fun org => org.purgeTime < now).take 100

def purgeExpiredOrganization (now id : ℕ) (orgs : List Org) : List Org :=
  orgs.filter fun org => ¬ (org.id = id ∧ org.purgeTime < now)

/- `fails` are the organizations that every attempt to purge fails on. -/
def purgeOrgs (fails : ℕ → Bool) (now : ℕ) (orgs : List Org) : List Org :=
  (listOrgsPastPurgeTime now orgs).foldl
    (fun orgs org => if fails org.id then orgs else purgeExpiredOrganization now org.id orgs) orgs

def purgeTicks (fails : ℕ → Bool) (nows : List ℕ) (orgs : List Org) : List Org :=
  nows.foldl (fun orgs now => purgeOrgs fails now orgs) orgs

variable {fails : ℕ → Bool} {now : ℕ} {orgs batch : List Org} {d : SoftDeleted}

/-! A tick -/

theorem foldl_purge (hpast : ∀ org ∈ orgs, org.purgeTime < now) :
    batch.foldl (fun orgs org =>
      if fails org.id then orgs else purgeExpiredOrganization now org.id orgs) orgs =
    orgs.filter fun org => fails org.id ∨ ∀ org' ∈ batch, org'.id ≠ org.id := by
  induction batch generalizing orgs with
  | nil => simp
  | cons org batch ih =>
    rw [List.foldl_cons]
    split
    · rename_i hfails
      rw [ih hpast]
      apply List.filter_congr
      intro org' _
      by_cases heq : org.id = org'.id
      · simp [← heq, hfails]
      · simp [heq]
    · rename_i hfails
      have hpast' : ∀ org' ∈ purgeExpiredOrganization now org.id orgs, org'.purgeTime < now :=
        fun org' horg' => hpast org' (List.mem_of_mem_filter horg')
      rw [ih hpast', purgeExpiredOrganization, List.filter_filter]
      apply List.filter_congr
      intro org' horg'
      by_cases heq : org.id = org'.id
      · simp [← heq, hfails, hpast org' horg']
      · simp [heq, Ne.symm heq]

/-- A tick purges what does not fail among the first hundred. -/
theorem purgeOrgs_eq (hpast : ∀ org ∈ orgs, org.purgeTime < now)
    (hnodup : (orgs.map Org.id).Nodup) : purgeOrgs fails now orgs =
      ((orgs.take 100).filter fun org => fails org.id) ++ orgs.drop 100 := by
  have hlisted : listOrgsPastPurgeTime now orgs = orgs.take 100 := by
    rw [listOrgsPastPurgeTime, List.filter_eq_self.mpr]
    intro org horg
    exact decide_eq_true (hpast org horg)
  have hapart : ∀ org ∈ orgs.drop 100, ∀ org' ∈ orgs.take 100, org'.id ≠ org.id := by
    rw [← List.take_append_drop 100 orgs, List.map_append, List.nodup_append] at hnodup
    intro org horg org' horg'
    exact hnodup.2.2 _ (List.mem_map_of_mem horg') _ (List.mem_map_of_mem horg)
  rw [purgeOrgs, hlisted, foldl_purge hpast]
  have hsplit := List.take_append_drop 100 orgs
  generalize orgs.take 100 = first, orgs.drop 100 = rest at *
  rw [← hsplit, List.filter_append]
  have hfirst : first.filter (fun org => fails org.id ∨ ∀ org' ∈ first, org'.id ≠ org.id) =
      first.filter fun org => fails org.id := by
    apply List.filter_congr
    intro org horg
    have hself : ¬ ∀ org' ∈ first, org'.id ≠ org.id := fun h => h org horg rfl
    simp [hself]
  have hrest : rest.filter (fun org => fails org.id ∨ ∀ org' ∈ first, org'.id ≠ org.id) = rest := by
    rw [List.filter_eq_self]
    intro org horg
    exact decide_eq_true (.inr (hapart org horg))
  rw [hfirst, hrest]

/-! How far the ticks get -/

/-- The number of organizations, in the order of their purge times, that so many ticks get to: each
tick lists a hundred more than have been purged. -/
def reach (fails : ℕ → Bool) (orgs : List Org) : ℕ → ℕ
  | 0 => 0
  | ticks + 1 => 100 + (orgs.take (reach fails orgs ticks)).countP fun org => !fails org.id

variable (orgs) in
theorem countP_take_mono (p : Org → Bool) {k k' : ℕ} (h : k ≤ k') :
    (orgs.take k).countP p ≤ (orgs.take k').countP p :=
  (List.take_prefix_take_left h).sublist.countP_le

variable (fails orgs) in
theorem countP_take_add (k : ℕ) : (orgs.take k).countP (fun org => fails org.id) +
    (orgs.take k).countP (fun org => !fails org.id) = min k orgs.length := by
  rw [← List.length_take, List.length_eq_countP_add_countP fun org => fails org.id]
  simp

variable (fails orgs) in
theorem reach_mono (ticks : ℕ) : reach fails orgs ticks ≤ reach fails orgs (ticks + 1) := by
  induction ticks with
  | zero => exact Nat.zero_le _
  | succ ticks ih =>
    rw [reach, reach]
    exact Nat.add_le_add_left (countP_take_mono _ _ ih) 100

variable (fails orgs) in
/- Those that fail do not fill more than a batch. -/
theorem length_stuck_le (ticks : ℕ) :
    ((orgs.take (reach fails orgs ticks)).filter fun org => fails org.id).length ≤ 100 := by
  rw [← List.countP_eq_length_filter]
  cases ticks with
  | zero => simp [reach]
  | succ ticks =>
    have hadd := countP_take_add fails orgs (reach fails orgs (ticks + 1))
    have hmono := countP_take_mono orgs (fun org => !fails org.id) (reach_mono fails orgs ticks)
    have hreach : reach fails orgs (ticks + 1) =
        100 + (orgs.take (reach fails orgs ticks)).countP fun org => !fails org.id := rfl
    omega

/-- What is left after some ticks. -/
theorem purgeTicks_eq {nows : List ℕ} (hpast : ∀ now ∈ nows, ∀ org ∈ orgs, org.purgeTime < now)
    (hnodup : (orgs.map Org.id).Nodup) : purgeTicks fails nows orgs =
      ((orgs.take (reach fails orgs nows.length)).filter fun org => fails org.id) ++
        orgs.drop (reach fails orgs nows.length) := by
  induction nows using List.reverseRecOn with
  | nil => simp [purgeTicks, reach]
  | append_singleton nows now ih =>
    have hleft := ih fun now' hnow' => hpast now' (List.mem_append_left _ hnow')
    have hsub : (purgeTicks fails nows orgs).Sublist orgs := by
      conv_rhs => rw [← List.take_append_drop (reach fails orgs nows.length) orgs]
      rw [hleft]
      exact List.filter_sublist.append (.refl _)
    rw [purgeTicks, List.foldl_append, List.foldl_cons, List.foldl_nil, ← purgeTicks,
      purgeOrgs_eq (fun org horg => hpast now (by simp) org (hsub.subset horg))
        (hnodup.sublist (hsub.map _)), List.length_append, List.length_singleton, hleft]
    have hstuck := length_stuck_le fails orgs nows.length
    have hadd := countP_take_add fails orgs (reach fails orgs nows.length)
    have hreach : reach fails orgs (nows.length + 1) = 100 +
        (orgs.take (reach fails orgs nows.length)).countP fun org => !fails org.id := rfl
    have hmono := reach_mono fails orgs nows.length
    rw [List.countP_eq_length_filter] at hadd
    generalize reach fails orgs nows.length = k, reach fails orgs (nows.length + 1) = k' at *
    generalize hs : (orgs.take k).filter (fun org => fails org.id) = stuck at *
    have hfilter : stuck.filter (fun org => fails org.id) = stuck := by
      rw [← hs, List.filter_filter]
      simp
    rw [List.take_append, List.drop_append, List.filter_append, List.take_of_length_le hstuck,
      hfilter, List.drop_of_length_le hstuck, List.nil_append, List.drop_drop, List.append_assoc]
    obtain hk | hk := Nat.le_total orgs.length k
    · -- All have been got to before.
      have htake : orgs.take k' = orgs.take k := by
        rw [List.take_of_length_le hk, List.take_of_length_le (Nat.le_trans hk hmono)]
      have hdrop : orgs.drop k = [] := List.drop_of_length_le hk
      have hdrop' : orgs.drop (k + (100 - stuck.length)) = [] :=
        List.drop_of_length_le (Nat.le_trans hk (Nat.le_add_right k _))
      rw [htake, hs, hdrop, hdrop', List.drop_of_length_le (Nat.le_trans hk hmono)]
      simp
    · have hk' : k' = k + (100 - stuck.length) := by omega
      rw [hk', List.take_add, List.filter_append, hs, List.append_assoc]

/-- After as many ticks as it takes to list all, every organization that does not fail has been
purged if and only if the ticks get to the last of them. -/
theorem purge_progress_iff (fails : ℕ → Bool) (d : SoftDeleted) {nows : List ℕ}
    (hpast : ∀ now ∈ nows, ∀ org ∈ d.orgs, org.purgeTime < now)
    (hlength : nows.length = (d.orgs.length + 99) / 100) :
    (∀ org ∈ d.orgs, fails org.id = false → org ∉ purgeTicks fails nows d.orgs) ↔
    ∀ org ∈ d.orgs.drop (reach fails d.orgs ((d.orgs.length + 99) / 100)), fails org.id = true := by
  rw [purgeTicks_eq hpast d.nodup, hlength]
  simp only [List.mem_append, List.mem_filter, not_or, not_and]
  constructor
  · intro h org horg
    by_contra hfails
    exact (h org (List.mem_of_mem_drop horg) (Bool.eq_false_iff.mpr hfails)).2 horg
  · intro h org horg hfails
    refine ⟨fun _ => by simp [hfails], fun hlater => ?_⟩
    have hfails' := h org hlater
    rw [hfails] at hfails'
    cases hfails'

/- A hundred and one organizations, by the order of their purge times. -/
private def manyOrgs : SoftDeleted where
  orgs := (List.range 101).map fun i => ⟨i, i⟩
  sorted := by
    rw [List.pairwise_map]
    exact List.pairwise_lt_range.imp Nat.le_of_lt
  nodup := by
    rw [List.map_map]
    exact (List.nodup_range).map fun _ _ h => h

private theorem past_manyOrgs :
    ∀ now ∈ [200, 300], ∀ org ∈ manyOrgs.orgs, org.purgeTime < now := by
  intro now hnow org horg
  obtain ⟨i, hi, rfl⟩ := List.mem_map.mp horg
  rw [List.mem_range] at hi
  simp only [List.mem_cons, List.not_mem_nil, or_false] at hnow
  dsimp only
  omega

theorem purge_progress_iff_many :
    (∀ org ∈ manyOrgs.orgs, decide (org.id < 99) = false →
      org ∉ purgeTicks (fun id => id < 99) [200, 300] manyOrgs.orgs) ∧
    reach (fun id => id < 99) manyOrgs.orgs ((manyOrgs.orgs.length + 99) / 100) = 101 := by
  have hreach : reach (fun id => id < 99) manyOrgs.orgs ((manyOrgs.orgs.length + 99) / 100) = 101 := by
    decide
  have hlast : manyOrgs.orgs.drop (reach (fun id => id < 99) manyOrgs.orgs
      ((manyOrgs.orgs.length + 99) / 100)) = [] := by
    rw [hreach]
    exact List.drop_of_length_le (by simp [manyOrgs])
  have hpast := past_manyOrgs
  refine ⟨(purge_progress_iff (fun id => id < 99) manyOrgs hpast (by simp [manyOrgs])).mpr ?_, hreach⟩
  rw [hlast]
  exact fun org horg => absurd horg List.not_mem_nil

/-- A hundred organizations that fail keep the last one from being purged. -/
theorem purge_starved :
    ¬ ∀ (fails : ℕ → Bool) (d : SoftDeleted) (nows : List ℕ),
      (∀ now ∈ nows, ∀ org ∈ d.orgs, org.purgeTime < now) →
      nows.length = (d.orgs.length + 99) / 100 →
      ∀ org ∈ d.orgs, fails org.id = false → org ∉ purgeTicks fails nows d.orgs := by
  intro h
  have hpurged := h (fun id => id < 100) manyOrgs [200, 300] past_manyOrgs (by simp [manyOrgs]) ⟨100, 100⟩
    (by simp [manyOrgs]) rfl
  rw [purgeTicks_eq past_manyOrgs manyOrgs.nodup] at hpurged
  have hreach : reach (fun id => id < 100) manyOrgs.orgs 2 = 100 := by decide
  apply hpurged
  rw [List.length_cons, List.length_singleton, hreach]
  exact List.mem_append_right _ (by decide)

end Pivox.Workers
