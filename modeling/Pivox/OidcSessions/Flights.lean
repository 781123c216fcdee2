import Pivox.OidcSessions.Refresh

/-!
The flights of a process: one at a time for each session, and joined calls get what it settles with.
-/

namespace Pivox.OidcSessions
open Transition

variable {C : Type} [DecidableEq C] {s s' : State C} {f f' : ℕ} {flight flight' : Flight C}
variable {phase : Phase} {c : C} {id token : String} {tokens : SessionTokens} {now : Int}

def Phase.Active : Phase → Prop
  | .settled _ => False
  | _ => True

/-! The flights -/

omit [DecidableEq C] in
theorem State.setPhase_self (hf : s.flights[f]? = some flight) :
    (s.setPhase f phase).flights[f]? = some { flight with phase := phase } := by
  simp [State.setPhase, hf]

omit [DecidableEq C] in
theorem State.setPhase_of_ne (hne : f' ≠ f) :
    (s.setPhase f phase).flights[f']? = s.flights[f']? := by
  simp [State.setPhase, Ne.symm hne]

omit [DecidableEq C] in
/- A flight after the change of one phase is the changed one or one from before. -/
theorem State.setPhase_cases (hf : s.flights[f]? = some flight)
    (hf' : (s.setPhase f phase).flights[f']? = some flight') :
    f' = f ∧ flight' = { flight with phase := phase } ∨
      f' ≠ f ∧ s.flights[f']? = some flight' := by
  by_cases hne : f' = f
  · subst hne
    rw [State.setPhase_self hf, Option.some.injEq] at hf'
    exact .inl ⟨rfl, hf'.symm⟩
  · rw [State.setPhase_of_ne hne] at hf'
    exact .inr ⟨hne, hf'⟩

omit [DecidableEq C] in
theorem flights_append_cases {flights : List (Flight C)}
    (hf : (flights ++ [flight])[f]? = some flight') :
    f = flights.length ∧ flight' = flight ∨ f < flights.length ∧ flights[f]? = some flight' := by
  obtain hlt | hle := Nat.lt_or_ge f flights.length
  · rw [List.getElem?_append_left hlt] at hf
    exact .inr ⟨hlt, hf⟩
  · rw [List.getElem?_append_right hle] at hf
    have hlt := (List.getElem?_eq_some_iff.mp hf).1
    simp only [List.length_singleton] at hlt
    have hzero : f - flights.length = 0 := by
      omega
    rw [hzero] at hf
    cases hf
    exact .inl ⟨by omega, rfl⟩

/- A flight that has not settled is the one in the map, which is the newest of its session. -/
structure Flying (s : State C) : Prop where
  active : ∀ f flight, s.flights[f]? = some flight → flight.phase.Active →
    s.inflightRefresh flight.id = some f
  newest : ∀ id f, s.inflightRefresh id = some f → ∃ flight, s.flights[f]? = some flight ∧
    flight.id = id ∧ ∀ f' flight', s.flights[f']? = some flight' → flight'.id = id → f' ≤ f
  joined : ∀ c f, s.calls c = .joined f → ∃ flight, s.flights[f]? = some flight ∧
    (flight.owner = c → s.inflightRefresh flight.id = some f)
  returned : ∀ c f result, s.calls c = .returned f result → ∃ flight,
    s.flights[f]? = some flight ∧ flight.phase = .settled result

namespace Flying

omit [DecidableEq C] in
theorem initial : Flying (State.initial : State C) where
  active f flight hf := by
    simp [State.initial] at hf
  newest id f hid := by
    cases hid
  joined c f hc := by
    cases hc
  returned c f result hc := by
    cases hc

omit [DecidableEq C] in
theorem eq_of_id (h : Flying s) (hf : s.flights[f]? = some flight)
    (hactive : flight.phase.Active) (hf' : s.flights[f']? = some flight')
    (hactive' : flight'.phase.Active) (hid : flight'.id = flight.id) : f' = f := by
  have hmap := h.active f flight hf hactive
  have hmap' := h.active f' flight' hf' hactive'
  rw [hid, hmap, Option.some.injEq] at hmap'
  exact hmap'.symm

omit [DecidableEq C] in
theorem setPhase (h : Flying s) (hf : s.flights[f]? = some flight)
    (hactive : flight.phase.Active) : Flying (s.setPhase f phase) where
  active f' flight' hf' hactive' := by
    obtain ⟨rfl, rfl⟩ | ⟨-, hf'⟩ := State.setPhase_cases hf hf'
    · exact h.active f' flight hf hactive
    · exact h.active f' flight' hf' hactive'
  newest id f₁ hid := by
    obtain ⟨flight₁, hf₁, hid₁, hmax⟩ := h.newest id f₁ hid
    have hmax' : ∀ f' flight', (s.setPhase f phase).flights[f']? = some flight' →
        flight'.id = id → f' ≤ f₁ := by
      intro f' flight' hf' hid'
      obtain ⟨rfl, rfl⟩ | ⟨-, hf'⟩ := State.setPhase_cases hf hf'
      · exact hmax f' flight hf hid'
      · exact hmax f' flight' hf' hid'
    by_cases hne : f₁ = f
    · subst hne
      cases hf.symm.trans hf₁
      exact ⟨_, State.setPhase_self hf, hid₁, hmax'⟩
    · exact ⟨flight₁, (State.setPhase_of_ne hne).trans hf₁, hid₁, hmax'⟩
  joined c f₁ hc := by
    obtain ⟨flight₁, hf₁, howner⟩ := h.joined c f₁ hc
    by_cases hne : f₁ = f
    · subst hne
      cases hf.symm.trans hf₁
      exact ⟨_, State.setPhase_self hf, howner⟩
    · exact ⟨flight₁, (State.setPhase_of_ne hne).trans hf₁, howner⟩
  returned c f₁ result hc := by
    obtain ⟨flight₁, hf₁, hsettled⟩ := h.returned c f₁ result hc
    have hne : f₁ ≠ f := by
      rintro rfl
      cases hf.symm.trans hf₁
      simp [hsettled, Phase.Active] at hactive
    exact ⟨flight₁, (State.setPhase_of_ne hne).trans hf₁, hsettled⟩

theorem startFlight (h : Flying s) (hid : s.inflightRefresh id = none) :
    Flying (s.startFlight c id) where
  active f flight hf hactive := by
    obtain ⟨rfl, rfl⟩ | ⟨-, hf⟩ := flights_append_cases hf
    · simp [State.startFlight]
    · have hmap := h.active f flight hf hactive
      have hne : flight.id ≠ id := by
        intro heq
        simp [heq, hid] at hmap
      simpa [State.startFlight, Function.update_of_ne hne] using hmap
  newest id' f hid' := by
    by_cases hne : id' = id
    · subst hne
      simp only [State.startFlight, Function.update_self, Option.some.injEq] at hid'
      subst hid'
      refine ⟨⟨id', c, .reading⟩, by simp [State.startFlight], rfl, fun f' flight' hf' _ => ?_⟩
      obtain ⟨rfl, -⟩ | ⟨hlt, -⟩ := flights_append_cases hf'
      · exact Nat.le_refl _
      · exact Nat.le_of_lt hlt
    · simp only [State.startFlight, Function.update_of_ne hne] at hid'
      obtain ⟨flight, hf, hflight, hmax⟩ := h.newest id' f hid'
      have hlt := (List.getElem?_eq_some_iff.mp hf).1
      refine ⟨flight, (List.getElem?_append_left hlt).trans hf, hflight, fun f' flight' hf' h' => ?_⟩
      obtain ⟨rfl, rfl⟩ | ⟨-, hf'⟩ := flights_append_cases hf'
      · exact absurd h'.symm hne
      · exact hmax f' flight' hf' h'
  joined c' f hc := by
    by_cases hcaller : c' = c
    · subst hcaller
      simp only [State.startFlight, Function.update_self, Call.joined.injEq] at hc
      subst hc
      exact ⟨⟨id, c', .reading⟩, by simp [State.startFlight], fun _ => by simp [State.startFlight]⟩
    · simp only [State.startFlight, Function.update_of_ne hcaller] at hc
      obtain ⟨flight, hf, howner⟩ := h.joined c' f hc
      have hlt := (List.getElem?_eq_some_iff.mp hf).1
      refine ⟨flight, (List.getElem?_append_left hlt).trans hf, fun heq => ?_⟩
      have hne : flight.id ≠ id := by
        intro heq'
        simp [← heq', howner heq] at hid
      simpa [State.startFlight, Function.update_of_ne hne] using howner heq
  returned c' f result hc := by
    have hcaller : c' ≠ c := by
      rintro rfl
      simp [State.startFlight] at hc
    simp only [State.startFlight, Function.update_of_ne hcaller] at hc
    obtain ⟨flight, hf, hsettled⟩ := h.returned c' f result hc
    have hlt := (List.getElem?_eq_some_iff.mp hf).1
    exact ⟨flight, (List.getElem?_append_left hlt).trans hf, hsettled⟩

theorem join (h : Flying s) (hid : s.inflightRefresh id = some f) :
    Flying (s.join c f) where
  active := h.active
  newest := h.newest
  joined c' f' hc := by
    by_cases hcaller : c' = c
    · subst hcaller
      simp only [State.join, Function.update_self, Call.joined.injEq] at hc
      subst hc
      obtain ⟨flight, hf, rfl, -⟩ := h.newest id f hid
      exact ⟨flight, hf, fun _ => hid⟩
    · simp only [State.join, Function.update_of_ne hcaller] at hc
      exact h.joined c' f' hc
  returned c' f' result hc := by
    have hcaller : c' ≠ c := by
      rintro rfl
      simp [State.join] at hc
    simp only [State.join, Function.update_of_ne hcaller] at hc
    exact h.returned c' f' result hc

theorem finish {result : Except String SessionTokens} (h : Flying s)
    (hc : s.calls c = .joined f) (hf : s.flights[f]? = some flight)
    (hsettled : flight.phase = .settled result) : Flying (s.finish c f flight result) := by
  have hentry : flight.owner = c → s.inflightRefresh flight.id = some f := by
    intro howner
    obtain ⟨flight', hf', hmap⟩ := h.joined c f hc
    cases hf.symm.trans hf'
    exact hmap howner
  -- The `finally` takes away the entry of this flight and of no other.
  have hkept : ∀ f' flight', s.flights[f']? = some flight' →
      s.inflightRefresh flight'.id = some f' → f' ≠ f →
      (s.finish c f flight result).inflightRefresh flight'.id = some f' := by
    intro f' flight' hf' hmap hne
    simp only [State.finish]
    split
    · rename_i howner
      rw [Function.update_of_ne, hmap]
      intro heq
      rw [heq, hentry howner, Option.some.injEq] at hmap
      exact hne hmap.symm
    · exact hmap
  constructor
  case active =>
    intro f' flight' hf' hactive
    apply hkept f' flight' hf' (h.active f' flight' hf' hactive)
    rintro rfl
    cases hf.symm.trans hf'
    simp [hsettled, Phase.Active] at hactive
  case newest =>
    intro id f' hid
    apply h.newest id f'
    simp only [State.finish] at hid
    split at hid
    · by_cases hne : id = flight.id
      · simp [hne] at hid
      · rwa [Function.update_of_ne hne] at hid
    · exact hid
  case joined =>
    intro c' f' hc'
    have hcaller : c' ≠ c := by
      rintro rfl
      simp [State.finish] at hc'
    simp only [State.finish, Function.update_of_ne hcaller] at hc'
    obtain ⟨flight', hf', howner⟩ := h.joined c' f' hc'
    refine ⟨flight', hf', fun heq => ?_⟩
    by_cases hne : f' = f
    · subst hne
      cases hf.symm.trans hf'
      rw [← heq] at hcaller
      simpa [State.finish, hcaller] using howner heq
    · exact hkept f' flight' hf' (howner heq) hne
  case returned =>
    intro c' f' result' hc'
    by_cases hcaller : c' = c
    · subst hcaller
      simp only [State.finish, Function.update_self, Call.returned.injEq] at hc'
      obtain ⟨rfl, rfl⟩ := hc'
      exact ⟨flight, hf, hsettled⟩
    · simp only [State.finish, Function.update_of_ne hcaller] at hc'
      exact h.returned c' f' result' hc'

end Flying

end Pivox.OidcSessions
