import Pivox.IdentitySync.Delivery

/-!
No event is skipped: what is kept of every partition, along every run of the consumer.
-/

namespace Pivox.IdentitySync
open List Transition
variable {P : Type} [DecidableEq P]

/-- Where the work of the partitions stands, by where the loop does. -/
def Running.Placed (r : Running P) : Prop :=
  match r.pc with
  | .polling => (∀ p, r.work p = .none) ∧ r.rewind = []
  | .handling order => ∀ p ∉ order, (r.work p).todo = []
  | .calling p o order => (∃ tl, (r.work p).todo = o :: tl) ∧ ∀ q ∉ p :: order, (r.work q).todo = []
  | .committing => ∀ p, (r.work p).todo = []
  | .rewinding => ∀ p, r.work p = .none
  | .backingOff => (∀ p, r.work p = .none) ∧ r.rewind = []

def Running.Kept (parts : P → Part) (r : Running P) : Prop :=
  ∀ p, IdentitySync.Kept (parts p) r.cancelled (r.position p) (r.work p) (r.rewind.lookup p)

structure Consistent (s : State P) : Prop where
  stored : ∀ p, Stored (s.parts p)
  kept : ∀ r, s.run = some r → r.Kept s.parts
  placed : ∀ r, s.run = some r → r.Placed

theorem Running.Kept.consistent {parts : P → Part} {r : Running P} (hkept : r.Kept parts)
    (hplaced : r.Placed) : Consistent ⟨parts, some r⟩ where
  stored p := (hkept p).toStored
  kept r' hr := by
    cases hr
    exact hkept
  placed r' hr := by
    cases hr
    exact hplaced

theorem initial_consistent : Consistent (initial : State P) where
  stored p := by constructor <;> simp [initial, Part.empty]
  kept := nofun
  placed := nofun

section steps
variable {s s' : State P}

theorem Consistent.stopped (h : Consistent s) : Consistent (stopped s) where
  stored := h.stored
  kept := nofun
  placed := nofun

theorem Consistent.append (h : Consistent s) {p : P} {gap : Nat}
    (hstep : step s (.append p gap) = some s') : Consistent s' := by
  cases hstep
  constructor
  · intro q
    by_cases hq : q = p
    · subst hq
      simpa using (h.stored q).append gap
    · simpa [Function.update_of_ne hq] using h.stored q
  · intro r hr q
    have hkept := h.kept r hr q
    by_cases hq : q = p
    · subst hq
      simpa using hkept.append gap
    · simpa [Function.update_of_ne hq] using hkept
  · exact h.placed

theorem Consistent.start (h : Consistent s) (hstep : step s .start = some s') :
    Consistent s' := by
  simp only [step] at hstep
  cases hrun : s.run with
  | some r => simp [hrun] at hstep
  | none =>
    simp only [hrun, Option.some.injEq] at hstep
    subst hstep
    exact Running.Kept.consistent (fun p => (h.stored p).start) ⟨fun _ => rfl, rfl⟩

theorem Consistent.cancel (h : Consistent s) (hstep : step s .cancel = some s') :
    Consistent s' := by
  obtain ⟨r, hr, rfl⟩ := Option.map_eq_some_iff.mp hstep
  exact Running.Kept.consistent (fun p => (h.kept r hr p).cancel) (h.placed r hr)

theorem Consistent.poll (h : Consistent s) {order : List P} {records : P → List Nat}
    (hstep : step s (.poll order records) = some s') : Consistent s' := by
  obtain ⟨r, hr, hstep⟩ := Option.bind_eq_some_iff.mp hstep
  have hplaced := h.placed r hr
  have hkept := h.kept r hr
  cases hpc : r.pc <;> simp only [hpc, reduceCtorEq] at hstep
  simp only [Running.Placed, hpc] at hplaced
  split at hstep
  · cases hstep
    exact h.stopped
  · rename_i hcancelled
    split at hstep
    · rename_i hreturns
      cases hstep
      refine Running.Kept.consistent (fun p => ?_) (fun p hp => by simp [hp])
      have hp := hkept p
      rw [hplaced.1 p, hplaced.2, lookup_nil, Bool.eq_false_of_not_eq_true hcancelled] at hp
      have hdelivered : (s.parts p).returns (r.position p) (if p ∈ order then records p else []) :=
        by
        split
        · rename_i hmem
          exact hreturns p hmem
        · simp [Part.returns]
      simpa [Bool.eq_false_of_not_eq_true hcancelled] using hp.poll hdelivered
    · cases hstep

theorem Consistent.next (h : Consistent s) (hstep : step s .next = some s') : Consistent s' := by
  obtain ⟨r, hr, hstep⟩ := Option.bind_eq_some_iff.mp hstep
  have hplaced := h.placed r hr
  have hkept := h.kept r hr
  cases hpc : r.pc with
  | handling order =>
    simp only [Running.Placed, hpc] at hplaced
    cases order with
    | nil =>
      simp only [hpc, Option.some.injEq] at hstep
      subst hstep
      exact Running.Kept.consistent hkept fun p => hplaced p not_mem_nil
    | cons p order =>
      have hrest : ∀ q ∉ order, q ≠ p → (r.work q).todo = [] := fun q hq hne =>
        hplaced q (by simp [hq, hne])
      cases htodo : (r.work p).todo with
      | nil =>
        simp only [hpc, htodo, Option.some.injEq] at hstep
        subst hstep
        refine Running.Kept.consistent hkept fun q hq => ?_
        by_cases hqp : q = p
        · rw [hqp, htodo]
        · exact hrest q hq hqp
      | cons o tl =>
        simp only [hpc, htodo] at hstep
        split at hstep
        · rename_i hcancelled
          cases hstep
          refine Running.Kept.consistent (fun q => ?_) fun q hq => ?_
          · have hq := hkept q
            rw [hcancelled] at hq
            by_cases hqp : q = p
            · subst hqp
              simpa [hcancelled] using hq.halt
            · simpa [hcancelled, Function.update_of_ne hqp] using hq
          · by_cases hqp : q = p
            · simp [hqp]
            · simpa [Function.update_of_ne hqp] using hrest q hq hqp
        · cases hstep
          exact Running.Kept.consistent hkept ⟨⟨tl, htodo⟩, hplaced⟩
  | polling | calling | committing | rewinding | backingOff => simp [hpc] at hstep

theorem Consistent.handled (h : Consistent s) {ok : Bool}
    (hstep : step s (.handled ok) = some s') : Consistent s' := by
  obtain ⟨r, hr, hstep⟩ := Option.bind_eq_some_iff.mp hstep
  have hplaced := h.placed r hr
  have hkept := h.kept r hr
  cases hpc : r.pc with
  | calling p o order =>
    simp only [Running.Placed, hpc] at hplaced
    obtain ⟨⟨tl, htodo⟩, hrest⟩ := hplaced
    have hp := hkept p
    simp only [hpc] at hstep
    split at hstep
    · cases hstep
      refine Running.Kept.consistent (fun q => ?_) fun q hq => ?_
      · by_cases hqp : q = p
        · subst hqp
          simpa using hp.succeed htodo
        · simpa [Function.update_of_ne hqp] using hkept q
      · have hqp : q ≠ p := ne_of_not_mem_cons hq
        simpa [Function.update_of_ne hqp] using hrest q hq
    · cases hstep
      refine Running.Kept.consistent (fun q => ?_) fun q hq => ?_
      · by_cases hqp : q = p
        · subst hqp
          simpa using hp.fail htodo
        · have hne : (q == p) = false := by simpa using hqp
          simpa [Function.update_of_ne hqp, lookup_cons, hne] using hkept q
      · by_cases hqp : q = p
        · simp [hqp]
        · simpa [Function.update_of_ne hqp] using hrest q (by simp [hqp, hq])
  | polling | handling | committing | rewinding | backingOff => simp [hpc] at hstep

theorem Consistent.commit (h : Consistent s) {applied : P → Bool}
    (hstep : step s (.commit applied) = some s') : Consistent s' := by
  obtain ⟨r, hr, hstep⟩ := Option.bind_eq_some_iff.mp hstep
  have hplaced := h.placed r hr
  have hkept := h.kept r hr
  cases hpc : r.pc with
  | committing =>
    simp only [Running.Placed, hpc] at hplaced
    simp only [hpc, Option.some.injEq] at hstep
    subst hstep
    refine Running.Kept.consistent (fun p => ?_) ?_
    · simp only
      split
      · exact (hkept p).commit (hplaced p)
      · exact (hkept p).drop (hplaced p)
    · by_cases hrewind : r.rewind = []
      · simp [Running.Placed, hrewind]
      · simp [Running.Placed, hrewind]
  | polling | handling | calling | rewinding | backingOff => simp [hpc] at hstep

theorem Consistent.setOffsets (h : Consistent s) (hstep : step s .setOffsets = some s') :
    Consistent s' := by
  obtain ⟨r, hr, hstep⟩ := Option.bind_eq_some_iff.mp hstep
  have hplaced := h.placed r hr
  have hkept := h.kept r hr
  cases hpc : r.pc with
  | rewinding =>
    simp only [Running.Placed, hpc] at hplaced
    simp only [hpc, Option.some.injEq] at hstep
    subst hstep
    refine Running.Kept.consistent (fun p => ?_) ⟨hplaced, rfl⟩
    have hp := hkept p
    rw [hplaced p] at hp
    simpa [hplaced p] using hp.setOffsets
  | polling | handling | calling | committing | backingOff => simp [hpc] at hstep

theorem Consistent.retry (h : Consistent s) {stop : Bool}
    (hstep : step s (.retry stop) = some s') : Consistent s' := by
  obtain ⟨r, hr, hstep⟩ := Option.bind_eq_some_iff.mp hstep
  have hplaced := h.placed r hr
  cases hpc : r.pc with
  | backingOff =>
    simp only [Running.Placed, hpc] at hplaced
    simp only [hpc] at hstep
    split at hstep
    · split at hstep
      · cases hstep
        exact h.stopped
      · cases hstep
    · cases hstep
      exact Running.Kept.consistent (h.kept r hr) hplaced
  | polling | handling | calling | committing | rewinding => simp [hpc] at hstep

theorem Consistent.step (h : Consistent s) {a : Event P} (hstep : step s a = some s') :
    Consistent s' := by
  cases a with
  | append p gap => exact h.append hstep
  | start => exact h.start hstep
  | crash =>
    cases hstep
    exact h.stopped
  | cancel => exact h.cancel hstep
  | poll order records => exact h.poll hstep
  | next => exact h.next hstep
  | handled ok => exact h.handled hstep
  | commit applied => exact h.commit hstep
  | setOffsets => exact h.setOffsets hstep
  | retry stop => exact h.retry hstep

theorem Consistent.run {C : State P → Event P → Prop} (hrun : Runs IdentitySync.step C s s')
    (h : Consistent s) : Consistent s' :=
  hrun.invariant h fun _ _ _ h _ hstep => h.step hstep

/- The position of a consumer that polls is not past what is to be delivered again. -/
theorem Consistent.position_le_owed (h : Consistent s) {r : Running P} (hr : s.run = some r)
    (hpc : r.pc = .polling) (hcancelled : r.cancelled = false) (p : P) :
    ∀ o ∈ (s.parts p).owed, r.position p ≤ o := by
  have hplaced := h.placed r hr
  simp only [Running.Placed, hpc] at hplaced
  have hkept := h.kept r hr p
  rw [hplaced.2, lookup_nil] at hkept
  exact (hkept.settled rfl (.inl hcancelled)).2

end steps

/-- What was polled of a partition are records of its log from `n` on, none left out. -/
def DeliveredFrom (part : Part) (n : Nat) (records : List Nat) : Prop :=
  records <+: part.log.filter (n ≤ ·)

structure NeverSkips (s : State P) : Prop where
  committed : ∀ p, ∀ o ∈ (s.parts p).log, o ∉ (s.parts p).succeeded → (s.parts p).committed ≤ o
  prefixes : ∀ r, s.run = some r → ∀ p, (r.work p).committable <+: (r.work p).polled ∧
    ∃ n, DeliveredFrom (s.parts p) n (r.work p).polled
  /-- What failed is kept until a poll delivers it, which delivers nothing after it before. -/
  redelivered : ∀ a s', step s a = some s' → ∀ p, ∀ o ∈ (s.parts p).owed,
    o ∈ (s'.parts p).owed ∨ ∃ order records, a = .poll order records ∧ p ∈ order ∧ o ∈ records p
  from_failed : ∀ order records s', step s (.poll order records) = some s' →
    ∀ r, s'.run = some r → ∀ p, ∀ o ∈ (s.parts p).owed,
      ∃ n ≤ o, DeliveredFrom (s'.parts p) n (r.work p).polled

theorem commit_owed (part : Part) (committable : List Nat) :
    (part.commit committable).owed = part.owed := by
  unfold Part.commit
  split <;> rfl

theorem owed_step {s s' : State P} {a : Event P} (hstep : step s a = some s') (p : P) :
    ∀ o ∈ (s.parts p).owed, o ∈ (s'.parts p).owed ∨
      ∃ order records, a = .poll order records ∧ p ∈ order ∧ o ∈ records p := by
  intro o ho
  cases a with
  | append q gap =>
    cases hstep
    by_cases hpq : p = q
    · subst hpq
      exact .inl (by simpa [Part.append] using ho)
    · exact .inl (by simpa [Function.update_of_ne hpq] using ho)
  | start =>
    simp only [step] at hstep
    split at hstep
    · cases hstep
    · cases hstep
      exact .inl ho
  | crash =>
    cases hstep
    exact .inl ho
  | cancel =>
    obtain ⟨r, -, rfl⟩ := Option.map_eq_some_iff.mp hstep
    exact .inl ho
  | poll order records =>
    obtain ⟨r, hr, hstep⟩ := Option.bind_eq_some_iff.mp hstep
    cases hpc : r.pc <;> simp only [hpc, reduceCtorEq] at hstep
    split at hstep
    · cases hstep
      exact .inl ho
    · split at hstep
      · cases hstep
        by_cases hmem : p ∈ order ∧ o ∈ records p
        · exact .inr ⟨order, records, rfl, hmem⟩
        · left
          simp only [Part.deliver, mem_filter, decide_eq_true_eq]
          refine ⟨ho, ?_⟩
          split
          · rename_i hp
            exact fun ho => hmem ⟨hp, ho⟩
          · exact not_mem_nil
      · cases hstep
  | next =>
    obtain ⟨r, -, hstep⟩ := Option.bind_eq_some_iff.mp hstep
    left
    have hparts : s'.parts = s.parts := by
      grind -linarith
    rw [hparts]
    exact ho
  | handled ok =>
    obtain ⟨r, -, hstep⟩ := Option.bind_eq_some_iff.mp hstep
    cases hpc : r.pc <;> simp only [hpc, reduceCtorEq] at hstep
    rename_i q o' order
    left
    split at hstep <;> cases hstep
    all_goals
      by_cases hpq : p = q
      · subst hpq
        simp [Part.succeed, Part.fail, ho]
      · simpa [Function.update_of_ne hpq] using ho
  | commit applied =>
    obtain ⟨r, -, hstep⟩ := Option.bind_eq_some_iff.mp hstep
    cases hpc : r.pc <;> simp only [hpc, reduceCtorEq, Option.some.injEq] at hstep
    subst hstep
    left
    simp only
    split
    · rwa [commit_owed]
    · exact ho
  | setOffsets =>
    obtain ⟨r, -, hstep⟩ := Option.bind_eq_some_iff.mp hstep
    cases hpc : r.pc <;> simp only [hpc, reduceCtorEq, Option.some.injEq] at hstep
    subst hstep
    exact .inl ho
  | retry stop =>
    obtain ⟨r, -, hstep⟩ := Option.bind_eq_some_iff.mp hstep
    left
    have hparts : s'.parts = s.parts := by
      grind -linarith [stopped]
    rw [hparts]
    exact ho

theorem Consistent.neverSkips {s : State P} (h : Consistent s) : NeverSkips s where
  committed p o ho hfailed := by
    by_contra hlt
    exact hfailed ((h.stored p).secure o ho (Nat.lt_of_not_le hlt))
  prefixes r hr p := ⟨(h.kept r hr p).calls_polled, (h.kept r hr p).polled_log⟩
  redelivered _ _ hstep := owed_step hstep
  from_failed order records s' hstep r' hr' p o ho := by
    obtain ⟨r, hr, hstep⟩ := Option.bind_eq_some_iff.mp hstep
    cases hpc : r.pc <;> simp only [hpc, reduceCtorEq] at hstep
    split at hstep
    · cases hstep
      cases hr'
    · rename_i hcancelled
      split at hstep
      · rename_i hreturns
        cases hstep
        cases hr'
        refine ⟨r.position p, h.position_le_owed hr hpc (by simpa using hcancelled) p o ho, ?_⟩
        simp only [DeliveredFrom, Part.deliver]
        split
        · rename_i hmem
          exact isPrefixOf_iff_prefix.mp (hreturns p hmem)
        · exact nil_prefix
      · cases hstep

/-- Whatever fails, stops or crashes, and whenever. -/
theorem never_skips {s : State P} (hrun : Runs step (fun _ _ => True) initial s) : NeverSkips s :=
  (initial_consistent.run hrun).neverSkips

/-! A record fails, is rewound to and fails no more. -/

def rewound : List (Event Unit) :=
  [.append () 0, .append () 2, .append () 0, .start, .poll [()] fun _ => [0, 3, 4],
    .next, .handled true, .next, .handled false, .next, .commit fun _ => true, .setOffsets,
    .retry false, .poll [()] fun _ => [3, 4], .next, .handled true, .crash, .start]

theorem never_skips_rewound : ∃ s, exec step initial rewound = some s ∧ NeverSkips s := by
  have h : (exec step initial rewound).isSome := rfl
  exact ⟨_, (Option.some_get h).symm,
    never_skips (.of_exec rewound (Option.some_get h).symm rfl)⟩

end Pivox.IdentitySync
