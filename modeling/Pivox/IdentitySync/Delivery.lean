import Mathlib.Data.List.Sort
import Mathlib.Order.Basic
import Pivox.IdentitySync.Consumer

/-!
No record is passed over. What is known of a partition is kept by every step of the consumer on its
own: below the position every record has succeeded or is still to do, and a record that failed is
not below it.
-/

namespace Pivox.IdentitySync
open List Transition

/-- What holds of a partition without a process. -/
structure Stored (part : Part) : Prop where
  sorted : part.log.Pairwise (· < ·)
  log_lt : ∀ o ∈ part.log, o < part.next
  committed_le : part.committed ≤ part.next
  secure : ∀ o ∈ part.log, o < part.committed → o ∈ part.succeeded
  owed_mem : ∀ o ∈ part.owed, o ∈ part.log
  owed_le : ∀ o ∈ part.owed, part.committed ≤ o

/-- What holds of it with one, whose position, work and rewind they are. -/
structure Kept (part : Part) (cancelled : Bool) (position : Nat) (w : Work)
    (rewind : Option Nat) : Prop extends Stored part where
  position_ge : part.committed ≤ position
  position_le : position ≤ part.next
  polled_log : ∃ n, w.polled <+: part.log.filter (n ≤ ·)
  calls_polled : w.committable <+: w.polled
  polled_eq : w.todo ≠ [] → w.polled = w.committable ++ w.todo
  todo_sorted : w.todo.Pairwise (· < ·)
  todo_mem : ∀ o ∈ w.todo, o ∈ part.log ∧ part.committed ≤ o ∧ o < position
  handled : ∀ o ∈ w.committable, o < position ∧ (∀ o' ∈ part.log, o' ≤ o → o' ∈ part.succeeded) ∧
    (∀ o' ∈ w.todo, o < o') ∧ (∀ o' ∈ part.owed, o < o') ∧ ∀ r, rewind = some r → o < r
  rewound : ∀ r, rewind = some r → part.committed ≤ r ∧ r ≤ position ∧ w.todo = [] ∧
    (∀ o ∈ part.log, o < r → o ∈ part.succeeded) ∧ ∀ o ∈ part.owed, r ≤ o
  settled : rewind = none → cancelled = false ∨ w.todo ≠ [] →
    (∀ o ∈ part.log, o < position → o ∈ part.succeeded ∨ o ∈ w.todo) ∧
      ∀ o ∈ part.owed, position ≤ o

section parts
variable {part : Part} {cancelled : Bool} {position : Nat} {w : Work} {rewind : Option Nat}

theorem Stored.append (h : Stored part) (gap : Nat) : Stored (part.append gap) := by
  have hlt := h.log_lt
  constructor
  · simp only [Part.append, pairwise_append, h.sorted, pairwise_singleton, true_and]
    intro o ho o' ho'
    have := hlt o ho
    simp only [mem_singleton] at ho'
    omega
  · intro o ho
    simp only [Part.append, mem_append, mem_singleton] at ho ⊢
    rcases ho with ho | rfl
    · have := hlt o ho
      omega
    · omega
  · have := h.committed_le
    simp only [Part.append]
    omega
  · intro o ho hcommitted
    simp only [Part.append, mem_append, mem_singleton] at ho hcommitted ⊢
    rcases ho with ho | rfl
    · exact h.secure o ho hcommitted
    · have := h.committed_le
      omega
  · exact fun o ho => mem_append_left _ (h.owed_mem o ho)
  · exact h.owed_le

/-- A new record lies above all that is known. -/
theorem Kept.append (h : Kept part cancelled position w rewind) (gap : Nat) :
    Kept (part.append gap) cancelled position w rewind := by
  have hnew : ∀ o ∈ (part.append gap).log, o < position → o ∈ part.log := by
    intro o ho hlt
    simp only [Part.append, mem_append, mem_singleton] at ho
    rcases ho with ho | rfl
    · exact ho
    · have := h.position_le
      omega
  constructor
  · exact h.toStored.append gap
  · exact h.position_ge
  · have := h.position_le
    simp only [Part.append]
    omega
  · obtain ⟨n, hn⟩ := h.polled_log
    refine ⟨n, hn.trans ?_⟩
    simp only [Part.append, filter_append]
    exact prefix_append _ _
  · exact h.calls_polled
  · exact h.polled_eq
  · exact h.todo_sorted
  · exact fun o ho => ⟨mem_append_left _ (h.todo_mem o ho).1, (h.todo_mem o ho).2⟩
  · intro o ho
    obtain ⟨hlt, hsucc, hrest⟩ := h.handled o ho
    exact ⟨hlt, fun o' ho' hle => hsucc o' (hnew o' ho' (by omega)) hle, hrest⟩
  · intro r hr
    obtain ⟨hge, hle, htodo, hsucc, howed⟩ := h.rewound r hr
    exact ⟨hge, hle, htodo, fun o ho hlt => hsucc o (hnew o ho (by omega)) hlt, howed⟩
  · intro hr hc
    obtain ⟨hsucc, howed⟩ := h.settled hr hc
    exact ⟨fun o ho hlt => hsucc o (hnew o ho hlt) hlt, howed⟩

/-- A process starts at what was committed. -/
theorem Stored.start (h : Stored part) : Kept part false part.committed .none none where
  toStored := h
  position_ge := le_refl _
  position_le := h.committed_le
  polled_log := ⟨0, nil_prefix⟩
  calls_polled := nil_prefix
  polled_eq := fun hne => absurd rfl hne
  todo_sorted := .nil
  todo_mem := by simp [Work.none]
  handled := by simp [Work.none]
  rewound := nofun
  settled := fun _ _ => ⟨fun o ho hlt => .inl (h.secure o ho hlt), h.owed_le⟩

theorem Kept.cancel (h : Kept part cancelled position w rewind) :
    Kept part true position w rewind :=
  { h with settled := fun hr hc => h.settled hr (.inr (hc.resolve_left nofun)) }

/-- A record that is in order below the last of a prefix is in the prefix. -/
theorem mem_of_isPrefix {l b : List Nat} (hl : l.Pairwise (· < ·)) (hb : b <+: l) {o m : Nat}
    (ho : o ∈ l) (hm : b.getLast? = some m) (hle : o ≤ m) : o ∈ b := by
  obtain ⟨after, rfl⟩ := hb
  rcases mem_append.mp ho with ho | ho
  · exact ho
  · have hlt := (pairwise_append.mp hl).2.2 m (mem_of_getLast? hm) o ho
    omega

theorem le_last {b : List Nat} (hb : b.Pairwise (· < ·)) {o m : Nat} (ho : o ∈ b)
    (hm : b.getLast? = some m) : o ≤ m := by
  obtain ⟨before, rfl⟩ := getLast?_eq_some_iff.mp hm
  rcases mem_append.mp ho with ho | ho
  · exact Nat.le_of_lt ((pairwise_append.mp hb).2.2 o ho m (by simp))
  · simp only [mem_singleton] at ho
    omega

/-- A poll delivers from the position on, and what has failed is above it or delivered again. -/
theorem Kept.poll (h : Kept part false position .none none) {records : List Nat}
    (hreturns : part.returns position records = true) :
    Kept (part.deliver records) false (advance position records) ⟨records, records, []⟩ none := by
  have hpre : records <+: part.log.filter (position ≤ ·) :=
    isPrefixOf_iff_prefix.mp hreturns
  have hsorted : (part.log.filter (position ≤ ·)).Pairwise (· < ·) := h.sorted.filter _
  have hlog : ∀ o ∈ records, o ∈ part.log ∧ position ≤ o := fun o ho => by
    simpa using hpre.subset ho
  have hadvance : (records = [] ∧ advance position records = position) ∨
      ∃ m, records.getLast? = some m ∧ advance position records = m + 1 := by
    cases hlast : records.getLast? with
    | none => exact .inl ⟨getLast?_eq_none_iff.mp hlast, by simp [advance, hlast]⟩
    | some m => exact .inr ⟨m, rfl, by simp [advance, hlast]⟩
  obtain ⟨hsucc, howed⟩ := h.settled rfl (.inl rfl)
  have hold : ∀ o ∈ part.log, o < position → o ∈ part.succeeded := fun o ho hlt =>
    (hsucc o ho hlt).resolve_right (by simp [Work.none])
  have hge := h.position_ge
  have hle := h.position_le
  constructor
  · exact ⟨h.sorted, h.log_lt, h.committed_le, h.secure,
      fun o ho => h.owed_mem o (mem_filter.mp ho).1, fun o ho => h.owed_le o (mem_filter.mp ho).1⟩
  · simp only [Part.deliver]
    rcases hadvance with ⟨-, heq⟩ | ⟨m, hm, heq⟩
    · omega
    · have := (hlog m (mem_of_getLast? hm)).2
      omega
  · simp only [Part.deliver]
    rcases hadvance with ⟨-, heq⟩ | ⟨m, hm, heq⟩
    · omega
    · have := h.log_lt m (hlog m (mem_of_getLast? hm)).1
      omega
  · exact ⟨position, hpre⟩
  · exact nil_prefix
  · exact fun _ => rfl
  · exact hsorted.sublist hpre.sublist
  · intro o ho
    obtain ⟨hmem, hposition⟩ := hlog o ho
    refine ⟨hmem, Nat.le_trans hge hposition, ?_⟩
    rcases hadvance with ⟨rfl, -⟩ | ⟨m, hm, heq⟩
    · cases ho
    · have := le_last (hsorted.sublist hpre.sublist) ho hm
      omega
  · simp
  · exact nofun
  · intro _ _
    constructor
    · intro o ho hlt
      rcases Nat.lt_or_ge o position with hbelow | habove
      · exact .inl (hold o ho hbelow)
      · rcases hadvance with ⟨-, heq⟩ | ⟨m, hm, heq⟩
        · omega
        · have hmem : o ∈ part.log.filter (position ≤ ·) := by
            simp only [mem_filter, decide_eq_true_eq]
            exact ⟨ho, habove⟩
          exact .inr (mem_of_isPrefix hsorted hpre hmem hm (by omega))
    · intro o ho
      simp only [Part.deliver, mem_filter, decide_eq_true_eq] at ho
      have hpos := howed o ho.1
      rcases hadvance with ⟨-, heq⟩ | ⟨m, hm, heq⟩
      · omega
      · by_contra hlt
        have hmem : o ∈ part.log.filter (position ≤ ·) := by simp [h.owed_mem o ho.1, hpos]
        exact ho.2 (mem_of_isPrefix hsorted hpre hmem hm (by omega))

/-- What is to do has nothing to be delivered again before it. -/
theorem Kept.settled_todo (h : Kept part cancelled position w rewind) (hne : w.todo ≠ []) :
    (∀ o ∈ part.log, o < position → o ∈ part.succeeded ∨ o ∈ w.todo) ∧
      ∀ o ∈ part.owed, position ≤ o := by
  cases rewind with
  | none => exact h.settled rfl (.inr hne)
  | some r => exact absurd (h.rewound r rfl).2.2.1 hne

theorem Kept.below_head (h : Kept part cancelled position w rewind) {o : Nat} {tl : List Nat}
    (htodo : w.todo = o :: tl) {o' : Nat} (ho' : o' ∈ part.log) (hlt : o' < o) :
    o' ∈ part.succeeded := by
  have hne : w.todo ≠ [] := by simp [htodo]
  have hposition := (h.todo_mem o (by simp [htodo])).2.2
  have hsorted := h.todo_sorted
  rw [htodo, pairwise_cons] at hsorted
  rcases (h.settled_todo hne).1 o' ho' (by omega) with hsucc | hmem
  · exact hsucc
  · rw [htodo, mem_cons] at hmem
    rcases hmem with rfl | hmem
    · omega
    · have := hsorted.1 o' hmem
      omega

theorem Kept.succeed (h : Kept part cancelled position w rewind) {o : Nat} {tl : List Nat}
    (htodo : w.todo = o :: tl) :
    Kept (part.succeed o) cancelled position
      { w with todo := w.todo.tail, committable := w.committable ++ [o] } rewind := by
  have hne : w.todo ≠ [] := by simp [htodo]
  have hsorted := h.todo_sorted
  rw [htodo, pairwise_cons] at hsorted
  have htail : ∀ o' ∈ w.todo.tail, o' ∈ w.todo := fun o' ho' => mem_of_mem_tail ho'
  have hnone : rewind = none := by
    cases rewind with
    | none => rfl
    | some r => exact absurd (h.rewound r rfl).2.2.1 hne
  obtain ⟨hsucc, howed⟩ := h.settled_todo hne
  have hpolled := h.polled_eq hne
  constructor
  · exact ⟨h.sorted, h.log_lt, h.committed_le,
      fun o' ho' hlt => mem_cons_of_mem o (h.secure o' ho' hlt), h.owed_mem, h.owed_le⟩
  · exact h.position_ge
  · exact h.position_le
  · exact h.polled_log
  · exact ⟨tl, by simp [hpolled, htodo]⟩
  · exact fun _ => by simp [hpolled, htodo]
  · exact h.todo_sorted.sublist (tail_sublist _)
  · exact fun o' ho' => h.todo_mem o' (htail o' ho')
  · intro o' ho'
    simp only [mem_append, mem_singleton] at ho'
    rcases ho' with ho' | rfl
    · obtain ⟨hlt, hall, hbelow, hrest⟩ := h.handled o' ho'
      exact ⟨hlt, fun o'' ho'' hle => mem_cons_of_mem o (hall o'' ho'' hle),
        fun o'' ho'' => hbelow o'' (htail o'' ho''), hrest⟩
    · have hlt := (h.todo_mem o' (by simp [htodo])).2.2
      refine ⟨hlt, ?_, ?_, ?_, by simp [hnone]⟩
      · intro o'' ho'' hle
        rcases Nat.lt_or_eq_of_le hle with hbelow | rfl
        · exact mem_cons_of_mem _ (h.below_head htodo ho'' hbelow)
        · exact mem_cons_self
      · simpa only [htodo, tail_cons] using hsorted.1
      · intro o'' ho''
        have := howed o'' ho''
        omega
  · simp [hnone]
  · intro _ _
    refine ⟨fun o' ho' hlt => ?_, howed⟩
    have hcases := hsucc o' ho' hlt
    simp only [htodo, mem_cons] at hcases
    simp only [Part.succeed, mem_cons, htodo, tail_cons]
    tauto

theorem Kept.fail (h : Kept part cancelled position w rewind) {o : Nat} {tl : List Nat}
    (htodo : w.todo = o :: tl) :
    Kept (part.fail w.todo) cancelled position { w with todo := [] } (some o) := by
  have hne : w.todo ≠ [] := by simp [htodo]
  obtain ⟨-, howed⟩ := h.settled_todo hne
  obtain ⟨hlog, hcommitted, hposition⟩ := h.todo_mem o (by simp [htodo])
  have hfirst : ∀ o' ∈ w.todo, o ≤ o' := fun o' ho' => by
    have hsorted := h.todo_sorted
    rw [htodo, pairwise_cons] at hsorted
    rw [htodo, mem_cons] at ho'
    rcases ho' with rfl | ho'
    · exact Nat.le_refl _
    · exact Nat.le_of_lt (hsorted.1 o' ho')
  constructor
  · refine ⟨h.sorted, h.log_lt, h.committed_le, h.secure, ?_, ?_⟩
    · intro o' ho'
      rcases mem_append.mp ho' with ho' | ho'
      · exact (h.todo_mem o' ho').1
      · exact h.owed_mem o' ho'
    · intro o' ho'
      rcases mem_append.mp ho' with ho' | ho'
      · exact (h.todo_mem o' ho').2.1
      · exact h.owed_le o' ho'
  · exact h.position_ge
  · exact h.position_le
  · exact h.polled_log
  · exact h.calls_polled
  · exact fun hnil => absurd rfl hnil
  · exact .nil
  · simp
  · intro o' ho'
    obtain ⟨hlt, hall, hbelow, habove, -⟩ := h.handled o' ho'
    refine ⟨hlt, hall, by simp, ?_, ?_⟩
    · intro o'' ho''
      rcases mem_append.mp ho'' with ho'' | ho''
      · exact hbelow o'' ho''
      · exact habove o'' ho''
    · simpa using hbelow o (by simp [htodo])
  · intro r hr
    cases hr
    refine ⟨hcommitted, Nat.le_of_lt hposition, rfl, fun o' ho' hlt => h.below_head htodo ho' hlt, ?_⟩
    intro o' ho'
    rcases mem_append.mp ho' with ho' | ho'
    · exact hfirst o' ho'
    · have := howed o' ho'
      omega
  · exact nofun

/-- A shutdown leaves what is to do. -/
theorem Kept.halt (h : Kept part true position w rewind) :
    Kept part true position { w with todo := [] } rewind where
  toStored := h.toStored
  position_ge := h.position_ge
  position_le := h.position_le
  polled_log := h.polled_log
  calls_polled := h.calls_polled
  polled_eq := fun hne => absurd rfl hne
  todo_sorted := .nil
  todo_mem := by simp
  handled := fun o ho => by
    obtain ⟨hlt, hall, -, hrest⟩ := h.handled o ho
    exact ⟨hlt, hall, by simp, hrest⟩
  rewound := fun r hr => by
    obtain ⟨hge, hle, -, hrest⟩ := h.rewound r hr
    exact ⟨hge, hle, rfl, hrest⟩
  settled := fun _ hc => by simp at hc

/-- Once nothing is to do the work can be dropped. -/
theorem Kept.drop (h : Kept part cancelled position w rewind) (htodo : w.todo = []) :
    Kept part cancelled position .none rewind where
  toStored := h.toStored
  position_ge := h.position_ge
  position_le := h.position_le
  polled_log := ⟨0, nil_prefix⟩
  calls_polled := nil_prefix
  polled_eq := fun hne => absurd rfl hne
  todo_sorted := .nil
  todo_mem := by simp [Work.none]
  handled := by simp [Work.none]
  rewound := fun r hr => by
    obtain ⟨hge, hle, -, hrest⟩ := h.rewound r hr
    exact ⟨hge, hle, rfl, hrest⟩
  settled := fun hr hc => by
    have hgoing : cancelled = false := by simpa [Work.none] using hc
    simpa [htodo, Work.none] using h.settled hr (.inl hgoing)

/-- What is committed is below all that failed. -/
theorem Kept.commit (h : Kept part cancelled position w rewind) (htodo : w.todo = []) :
    Kept (part.commit w.committable) cancelled position .none rewind := by
  have hdrop := h.drop htodo
  unfold Part.commit
  cases hmax : w.committable.max? with
  | none => exact hdrop
  | some o =>
    obtain ⟨hlt, hall, -, howed, hrewind⟩ := h.handled o (max?_mem hmax)
    have hle := h.position_le
    constructor
    · refine ⟨h.sorted, h.log_lt, ?_, fun o' ho' hlt' => hall o' ho' (Nat.lt_succ_iff.mp hlt'),
        h.owed_mem, howed⟩
      simp only
      omega
    · exact hlt
    · exact hle
    · exact hdrop.polled_log
    · exact hdrop.calls_polled
    · exact hdrop.polled_eq
    · exact hdrop.todo_sorted
    · simp [Work.none]
    · simp [Work.none]
    · intro r hr
      obtain ⟨-, hrest⟩ := hdrop.rewound r hr
      exact ⟨hrewind r hr, hrest⟩
    · exact hdrop.settled

theorem Kept.setOffsets (h : Kept part cancelled position .none rewind) :
    Kept part cancelled (rewind.getD position) .none none := by
  cases rewind with
  | none => exact h
  | some r =>
    obtain ⟨hge, hle, -, hsucc, howed⟩ := h.rewound r rfl
    have hposition := h.position_le
    constructor
    · exact h.toStored
    · exact hge
    · simp only [Option.getD_some]
      omega
    · exact ⟨0, nil_prefix⟩
    · exact nil_prefix
    · exact h.polled_eq
    · exact .nil
    · simp [Work.none]
    · simp [Work.none]
    · exact nofun
    · exact fun _ _ => ⟨fun o ho hlt => .inl (hsucc o ho hlt), howed⟩

end parts

end Pivox.IdentitySync
