import Mathlib.Data.List.Basic

/-!
What happens in a run of tasks that are done one after the other or side by side, and the orders in
which it may be seen.
-/

namespace SeriesParallel
variable {A B : Type}

/- An inner trace is that of another run in this one; its events are not of this one. -/
inductive Trace (A : Type) where
  | nil
  | event (a : A)
  | seq (t u : Trace A)
  | par (ts : List (Trace A))
  | inner (t : Trace A)

namespace Trace

/-- One trace after the other. -/
def all : List (Trace A) → Trace A
  | [] => .nil
  | t :: ts => .seq t (all ts)

mutual

def map (f : A → B) : Trace A → Trace B
  | .nil => .nil
  | .event a => .event (f a)
  | .seq t u => .seq (map f t) (map f u)
  | .par ts => .par (mapAll f ts)
  | .inner t => .inner (map f t)

def mapAll (f : A → B) : List (Trace A) → List (Trace B)
  | [] => []
  | t :: ts => map f t :: mapAll f ts

end

mutual

/-- Every event, those of inner runs too. -/
def events : Trace A → List A
  | .nil => []
  | .event a => [a]
  | .seq t u => events t ++ events u
  | .par ts => eventsAll ts
  | .inner t => events t

def eventsAll : List (Trace A) → List A
  | [] => []
  | t :: ts => events t ++ eventsAll ts

end

theorem mapAll_eq (f : A → B) (ts : List (Trace A)) : mapAll f ts = ts.map (map f) := by
  induction ts with
  | nil => rfl
  | cons t ts ih => exact congrArg (map f t :: ·) ih

theorem eventsAll_eq (ts : List (Trace A)) : eventsAll ts = ts.flatMap events := by
  induction ts with
  | nil => rfl
  | cons t ts ih => exact congrArg (events t ++ ·) ih

theorem events_all (ts : List (Trace A)) : (all ts).events = ts.flatMap events := by
  induction ts with
  | nil => rfl
  | cons t ts ih => exact congrArg (events t ++ ·) ih

mutual

theorem events_map (f : A → B) : ∀ t : Trace A, (t.map f).events = t.events.map f
  | .nil => rfl
  | .event _ => rfl
  | .seq t u => by
    have ht := events_map f t
    have hu := events_map f u
    simp only [map, events, ht, hu, List.map_append]
  | .par ts => eventsAll_map f ts
  | .inner t => events_map f t

theorem eventsAll_map (f : A → B) : ∀ ts : List (Trace A),
    eventsAll (mapAll f ts) = (eventsAll ts).map f
  | [] => rfl
  | t :: ts => by
    have ht := events_map f t
    have hts := eventsAll_map f ts
    simp only [mapAll, eventsAll, ht, hts, List.map_append]

end

/-- Of every event, those of inner runs too. -/
def Forall (P : A → Prop) (t : Trace A) : Prop := ∀ a ∈ t.events, P a

variable {P : A → Prop} {t u : Trace A} {ts : List (Trace A)}

theorem forall_nil : Forall P .nil := by
  simp [Forall, events]

theorem forall_event {a : A} : Forall P (.event a) ↔ P a := by
  simp [Forall, events]

theorem forall_inner : Forall P (.inner t) ↔ Forall P t := by
  simp [Forall, events]

theorem Forall.seq (ht : Forall P t) (hu : Forall P u) : Forall P (.seq t u) := by
  intro a ha
  rw [events, List.mem_append] at ha
  exact ha.elim (ht a) (hu a)

theorem forall_all (h : ∀ t ∈ ts, Forall P t) : Forall P (.all ts) := by
  intro a ha
  rw [events_all, List.mem_flatMap] at ha
  obtain ⟨t, ht, ha⟩ := ha
  exact h t ht a ha

theorem forall_par (h : ∀ t ∈ ts, Forall P t) : Forall P (.par ts) := by
  intro a ha
  rw [events, eventsAll_eq, List.mem_flatMap] at ha
  obtain ⟨t, ht, ha⟩ := ha
  exact h t ht a ha

end Trace

/-! Orders of the events -/

inductive Shuffle : List A → List A → List A → Prop
  | nil : Shuffle [] [] []
  | left {a : A} {as bs cs : List A} : Shuffle as bs cs → Shuffle (a :: as) bs (a :: cs)
  | right {b : A} {as bs cs : List A} : Shuffle as bs cs → Shuffle as (b :: bs) (b :: cs)

namespace Shuffle
variable {as bs cs : List A}

theorem eq_right (h : Shuffle [] bs cs) : cs = bs := by
  induction bs generalizing cs with
  | nil =>
    cases h
    rfl
  | cons b bs ih =>
    cases h with
    | right htail => rw [ih htail]

theorem eq_left (h : Shuffle as [] cs) : cs = as := by
  induction as generalizing cs with
  | nil =>
    cases h
    rfl
  | cons a as ih =>
    cases h with
    | left htail => rw [ih htail]

theorem filter (p : A → Bool) (h : Shuffle as bs cs) :
    Shuffle (as.filter p) (bs.filter p) (cs.filter p) := by
  induction h with
  | nil => exact .nil
  | @left a as bs cs htail ih =>
    cases hp : p a with
    | true => simpa only [List.filter_cons_of_pos hp] using ih.left
    | false => simpa [hp] using ih
  | @right b as bs cs htail ih =>
    cases hp : p b with
    | true => simpa only [List.filter_cons_of_pos hp] using ih.right
    | false => simpa [hp] using ih

theorem append (as bs : List A) : Shuffle as bs (as ++ bs) := by
  induction as with
  | nil =>
    induction bs with
    | nil => exact .nil
    | cons b bs ih => exact ih.right
  | cons a as ih => exact ih.left

end Shuffle

/-- The orders in which the events of the run itself may be seen. -/
inductive Trace.Linear : Trace A → List A → Prop
  | nil : Linear .nil []
  | event (a : A) : Linear (.event a) [a]
  | seq {t u : Trace A} {as bs : List A} : Linear t as → Linear u bs → Linear (.seq t u) (as ++ bs)
  | parNil : Linear (.par []) []
  | parCons {t : Trace A} {ts : List (Trace A)} {as bs cs : List A} :
    Linear t as → Linear (.par ts) bs → Shuffle as bs cs → Linear (.par (t :: ts)) cs
  | inner (t : Trace A) : Linear (.inner t) []

namespace Trace
variable {t u : Trace A} {ts : List (Trace A)} {a : A} {as : List A}

theorem linear_nil : Linear (.nil : Trace A) as ↔ as = [] := by
  constructor
  · rintro ⟨⟩
    rfl
  · rintro rfl
    exact .nil

theorem linear_event : Linear (.event a) as ↔ as = [a] := by
  constructor
  · rintro ⟨⟩
    rfl
  · rintro rfl
    exact .event a

theorem linear_inner : Linear (.inner t) as ↔ as = [] := by
  constructor
  · rintro ⟨⟩
    rfl
  · rintro rfl
    exact .inner t

theorem linear_seq : Linear (.seq t u) as ↔ ∃ bs cs, Linear t bs ∧ Linear u cs ∧ as = bs ++ cs := by
  constructor
  · rintro ⟨⟩
    exact ⟨_, _, ‹_›, ‹_›, rfl⟩
  · rintro ⟨bs, cs, ht, hu, rfl⟩
    exact .seq ht hu

theorem linear_events (es : List A) : Linear (.all (es.map .event)) as ↔ as = es := by
  induction es generalizing as with
  | nil => exact linear_nil
  | cons e es ih =>
    constructor
    · intro h
      obtain ⟨bs, cs, hbs, hcs, rfl⟩ := linear_seq.mp h
      rw [linear_event.mp hbs, ih.mp hcs]
      rfl
    · rintro rfl
      exact .seq (.event e) (ih.mpr rfl)

/-- What is done between an event and others. -/
theorem linear_between (e : A) (t : Trace A) (es : List A) :
    Linear (.all (.event e :: t :: es.map .event)) as ↔ ∃ bs, Linear t bs ∧ as = e :: (bs ++ es) := by
  constructor
  · intro h
    obtain ⟨first, rest, hfirst, hrest, rfl⟩ := linear_seq.mp h
    obtain ⟨bs, cs, hbs, hcs, rfl⟩ := linear_seq.mp hrest
    rw [linear_event.mp hfirst, (linear_events es).mp hcs]
    exact ⟨bs, hbs, rfl⟩
  · rintro ⟨bs, hbs, rfl⟩
    exact .seq (.event e) (.seq hbs ((linear_events es).mpr rfl))

theorem linear_parNil : Linear (.par ([] : List (Trace A))) as ↔ as = [] := by
  constructor
  · rintro ⟨⟩
    rfl
  · rintro rfl
    exact .parNil

theorem linear_parCons : Linear (.par (t :: ts)) as ↔
    ∃ bs cs, Linear t bs ∧ Linear (.par ts) cs ∧ Shuffle bs cs as := by
  constructor
  · rintro ⟨⟩
    exact ⟨_, _, ‹_›, ‹_›, ‹_›⟩
  · rintro ⟨bs, cs, ht, hts, hshuffle⟩
    exact .parCons ht hts hshuffle

end Trace

end SeriesParallel
