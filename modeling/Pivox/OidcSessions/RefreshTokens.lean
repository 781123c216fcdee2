import Pivox.OidcSessions.Flights

/-!
A token that may be sent has not been sent but in vain.
-/

namespace Pivox.OidcSessions
open Transition

variable {C : Type} [DecidableEq C] {s s' : State C} {f f' : ℕ} {flight flight' : Flight C}
variable {phase : Phase} {c : C} {id token : String} {tokens : SessionTokens} {now : Int}

/- The refresh token that a flight is to send, has sent or is to store. -/
def Phase.held : Phase → Option String
  | .checking current => truthy current.refreshToken
  | .configuring token => some token
  | .granting token => some token
  | .storing tokens => truthy tokens.refreshToken
  | _ => none

/- How many grants with that token are under way. -/
def Phase.sent : Phase → ℕ
  | .granting _ => 1
  | _ => 0

def Phase.Spends : Phase → String → Prop
  | .granting token, token' => token' = token
  | .storing _, _ => True
  | _, _ => False

theorem Phase.active_of_held (h : phase.held = some token) : phase.Active := by
  cases phase with
  | settled result => cases h
  | _ => trivial

theorem Phase.Spends.active (h : phase.Spends token) : phase.Active := by
  cases phase with
  | settled result => cases h
  | _ => trivial

inductive Holds (rows : String → Option SessionRow) (flights : List (Flight C))
    (id token : String) : Prop where
  | row (row : SessionRow) (hrow : rows id = some row)
    (htoken : truthy row.tokens.refreshToken = some token)
  | flight (f : ℕ) (flight : Flight C) (hf : flights[f]? = some flight) (hid : flight.id = id)
    (htoken : flight.phase.held = some token)

def State.Unspent (s : State C) (token : String) : Prop :=
  s.sends token = s.failures token

/- A token belongs to one session. That of a row is unspent unless the flight of the session has
sent it and not yet stored the new one; that of a flight is unspent until it is sent. -/
structure SpentOnce (s : State C) : Prop where
  issued : ∀ id token, Holds s.rows s.flights id token → token ∈ s.issued
  own : ∀ id id' token, Holds s.rows s.flights id token → Holds s.rows s.flights id' token →
    id' = id
  sent : ∀ token, token ∉ s.issued → s.sends token = 0
  failed : ∀ token, s.failures token ≤ s.sends token
  once : ∀ token, s.sends token ≤ s.failures token + 1
  row : ∀ id row token, s.rows id = some row → truthy row.tokens.refreshToken = some token →
    s.Unspent token ∨
    ∃ (f : ℕ) (flight : Flight C), s.flights[f]? = some flight ∧ flight.id = id ∧
      flight.phase.Spends token
  flight : ∀ (f : ℕ) (flight : Flight C) (token : String),
    s.flights[f]? = some flight → flight.phase.held = some token →
    s.sends token = s.failures token + flight.phase.sent

namespace SpentOnce

omit [DecidableEq C] in
theorem initial : SpentOnce (State.initial : State C) where
  issued id token hholds := by
    cases hholds with
    | row row hrow htoken => cases hrow
    | flight f flight hf hid htoken => simp [State.initial] at hf
  own id id' token hholds _ := by
    cases hholds with
    | row row hrow htoken => cases hrow
    | flight f flight hf hid htoken => simp [State.initial] at hf
  sent token _ := rfl
  failed token := Nat.le_refl 0
  once token := Nat.zero_le 1
  row id row token hrow := by
    cases hrow
  flight f flight token hf := by
    simp [State.initial] at hf

omit [DecidableEq C] in
theorem unspent_of_not_issued (h : SpentOnce s) (hissued : token ∉ s.issued) :
    s.Unspent token := by
  have hsent := h.sent token hissued
  have hfailed := h.failed token
  unfold State.Unspent
  omega

omit [DecidableEq C] in
theorem issue (tokens : SessionTokens) (h : SpentOnce s) : SpentOnce (s.issue tokens) where
  issued id token hholds := List.mem_append_right _ (h.issued id token hholds)
  own := h.own
  sent token hissued := by
    apply h.sent token
    intro hmem
    exact hissued (List.mem_append_right _ hmem)
  failed := h.failed
  once := h.once
  row := h.row
  flight := h.flight

omit [DecidableEq C] in
/- A row is written with a token that no other session holds. -/
theorem write (h : SpentOnce s) {row : Option SessionRow}
    (hrow : ∀ row' ∈ row, ∀ token, truthy row'.tokens.refreshToken = some token →
      token ∈ s.issued ∧ s.Unspent token ∧ ∀ id', Holds s.rows s.flights id' token → id' = id) :
    SpentOnce { s with rows := Function.update s.rows id row } := by
  have hcases : ∀ id' token, Holds (Function.update s.rows id row) s.flights id' token →
      Holds s.rows s.flights id' token ∨ id' = id ∧ ∃ row' ∈ row,
        truthy row'.tokens.refreshToken = some token := by
    intro id' token hholds
    cases hholds with
    | row row' hrow' htoken =>
      by_cases hne : id' = id
      · subst hne
        rw [Function.update_self] at hrow'
        exact .inr ⟨rfl, row', hrow', htoken⟩
      · rw [Function.update_of_ne hne] at hrow'
        exact .inl (.row row' hrow' htoken)
    | flight f flight hf hid htoken => exact .inl (.flight f flight hf hid htoken)
  constructor
  case issued =>
    intro id' token hholds
    obtain hholds | ⟨-, row', hmem, htoken⟩ := hcases id' token hholds
    · exact h.issued id' token hholds
    · exact (hrow row' hmem token htoken).1
  case own =>
    intro id₁ id₂ token hholds₁ hholds₂
    obtain hheld₁ | ⟨hid₁, row₁, hmem₁, htoken₁⟩ := hcases id₁ token hholds₁
    · obtain hheld₂ | ⟨hid₂, row₂, hmem₂, htoken₂⟩ := hcases id₂ token hholds₂
      · exact h.own id₁ id₂ token hheld₁ hheld₂
      · exact hid₂.trans ((hrow row₂ hmem₂ token htoken₂).2.2 id₁ hheld₁).symm
    · obtain hheld₂ | ⟨hid₂, -⟩ := hcases id₂ token hholds₂
      · exact ((hrow row₁ hmem₁ token htoken₁).2.2 id₂ hheld₂).trans hid₁.symm
      · exact hid₂.trans hid₁.symm
  case sent => exact h.sent
  case failed => exact h.failed
  case once => exact h.once
  case row =>
    intro id' row' token hrow' htoken
    dsimp only at hrow'
    by_cases hne : id' = id
    · subst hne
      rw [Function.update_self] at hrow'
      exact .inl (hrow row' hrow' token htoken).2.1
    · rw [Function.update_of_ne hne] at hrow'
      exact h.row id' row' token hrow' htoken
  case flight => exact h.flight

omit [DecidableEq C] in
theorem row_cases (h : SpentOnce s) (hfly : Flying s) (hf : s.flights[f]? = some flight)
    (hactive : flight.phase.Active) {row : SessionRow} (hrow : s.rows flight.id = some row)
    (htoken : truthy row.tokens.refreshToken = some token) :
    s.Unspent token ∨ flight.phase.Spends token := by
  obtain hunspent | ⟨f', flight', hf', hid, hspends⟩ := h.row flight.id row token hrow htoken
  · exact .inl hunspent
  · have heq : f' = f := hfly.eq_of_id hf hactive hf' hspends.active hid
    subst heq
    cases hf.symm.trans hf'
    exact .inr hspends

omit [DecidableEq C] in
/- The counts of one token and the phase of a flight that holds or comes to hold it change. -/
theorem advance (h : SpentOnce s) (hfly : Flying s) (hf : s.flights[f]? = some flight)
    (sends failures : String → ℕ)
    (hother : ∀ token, flight.phase.held ≠ some token →
      sends token = s.sends token ∧ failures token = s.failures token)
    (hcounts : ∀ token, flight.phase.held = some token →
      failures token ≤ sends token ∧ sends token ≤ failures token + 1)
    (hheld : ∀ token, phase.held = some token → token ∈ s.issued ∧
      sends token = failures token + phase.sent ∧
      ∀ id', Holds s.rows s.flights id' token → id' = flight.id)
    (hrow : ∀ row token, s.rows flight.id = some row →
      truthy row.tokens.refreshToken = some token →
      sends token = failures token ∨ phase.Spends token) :
    SpentOnce { s.setPhase f phase with sends := sends, failures := failures } := by
  have hcases : ∀ id' token, Holds s.rows (s.setPhase f phase).flights id' token →
      Holds s.rows s.flights id' token ∨ id' = flight.id ∧ phase.held = some token := by
    intro id' token hholds
    cases hholds with
    | row row' hrow' htoken => exact .inl (.row row' hrow' htoken)
    | flight f' flight' hf' hid htoken =>
      obtain ⟨rfl, rfl⟩ | ⟨-, hf'⟩ := State.setPhase_cases hf hf'
      · exact .inr ⟨hid.symm, htoken⟩
      · exact .inl (.flight f' flight' hf' hid htoken)
  constructor
  case issued =>
    intro id' token hholds
    obtain hholds | ⟨-, htoken⟩ := hcases id' token hholds
    · exact h.issued id' token hholds
    · exact (hheld token htoken).1
  case own =>
    intro id₁ id₂ token hholds₁ hholds₂
    obtain hheld₁ | ⟨hid₁, htoken₁⟩ := hcases id₁ token hholds₁
    · obtain hheld₂ | ⟨hid₂, htoken₂⟩ := hcases id₂ token hholds₂
      · exact h.own id₁ id₂ token hheld₁ hheld₂
      · exact hid₂.trans ((hheld token htoken₂).2.2 id₁ hheld₁).symm
    · obtain hheld₂ | ⟨hid₂, -⟩ := hcases id₂ token hholds₂
      · exact ((hheld token htoken₁).2.2 id₂ hheld₂).trans hid₁.symm
      · exact hid₂.trans hid₁.symm
  case sent =>
    intro token hissued
    have hne : flight.phase.held ≠ some token := by
      intro hheld'
      exact hissued (h.issued flight.id token (.flight f flight hf rfl hheld'))
    exact (hother token hne).1.trans (h.sent token hissued)
  case failed =>
    intro token
    by_cases hne : flight.phase.held = some token
    · exact (hcounts token hne).1
    · simpa only [hother token hne] using h.failed token
  case once =>
    intro token
    by_cases hne : flight.phase.held = some token
    · exact (hcounts token hne).2
    · simpa only [hother token hne] using h.once token
  case row =>
    intro id' row' token hrow' htoken
    by_cases hid : id' = flight.id
    · subst hid
      obtain hunspent | hspends := hrow row' token hrow' htoken
      · exact .inl hunspent
      · exact .inr ⟨f, _, State.setPhase_self hf, rfl, hspends⟩
    · obtain hunspent | ⟨f₁, flight₁, hf₁, hid₁, hspends⟩ := h.row id' row' token hrow' htoken
      · have hne : flight.phase.held ≠ some token := by
          intro hheld'
          exact hid (h.own flight.id id' token (.flight f flight hf rfl hheld')
            (.row row' hrow' htoken))
        obtain ⟨hsends, hfailures⟩ := hother token hne
        exact .inl (by simpa only [State.Unspent, hsends, hfailures] using hunspent)
      · have hne : f₁ ≠ f := by
          rintro rfl
          cases hf.symm.trans hf₁
          exact hid hid₁.symm
        exact .inr ⟨f₁, flight₁, (State.setPhase_of_ne hne).trans hf₁, hid₁, hspends⟩
  case flight =>
    intro f' flight' token hf' htoken
    obtain ⟨rfl, rfl⟩ | ⟨hne, hf'⟩ := State.setPhase_cases hf hf'
    · exact (hheld token htoken).2.1
    · have hother' : flight.phase.held ≠ some token := by
        intro hheld'
        have hid := h.own flight.id flight'.id token (.flight f flight hf rfl hheld')
          (.flight f' flight' hf' rfl htoken)
        exact hne (hfly.eq_of_id hf (Phase.active_of_held hheld') hf'
          (Phase.active_of_held htoken) hid)
      obtain ⟨hsends, hfailures⟩ := hother token hother'
      simpa only [State.Unspent, hsends, hfailures] using h.flight f' flight' token hf' htoken

theorem startFlight (h : SpentOnce s) : SpentOnce (s.startFlight c id) := by
  have hholds : ∀ id' token, Holds s.rows (s.startFlight c id).flights id' token →
      Holds s.rows s.flights id' token := by
    intro id' token hholds
    cases hholds with
    | row row hrow htoken => exact .row row hrow htoken
    | flight f flight hf hid htoken =>
      obtain ⟨-, rfl⟩ | ⟨-, hf⟩ := flights_append_cases hf
      · cases htoken
      · exact .flight f flight hf hid htoken
  constructor
  case issued =>
    intro id' token hheld
    exact h.issued id' token (hholds id' token hheld)
  case own =>
    intro id₁ id₂ token hheld₁ hheld₂
    exact h.own id₁ id₂ token (hholds id₁ token hheld₁) (hholds id₂ token hheld₂)
  case sent => exact h.sent
  case failed => exact h.failed
  case once => exact h.once
  case row =>
    intro id' row token hrow htoken
    obtain hunspent | ⟨f, flight, hf, hflight⟩ := h.row id' row token hrow htoken
    · exact .inl hunspent
    · have hlt := (List.getElem?_eq_some_iff.mp hf).1
      exact .inr ⟨f, flight, (List.getElem?_append_left hlt).trans hf, hflight⟩
  case flight =>
    intro f flight token hf htoken
    obtain ⟨-, rfl⟩ | ⟨-, hf⟩ := flights_append_cases hf
    · cases htoken
    · exact h.flight f flight token hf htoken

omit [DecidableEq C] in
theorem setPhase (h : SpentOnce s) (hfly : Flying s) (hf : s.flights[f]? = some flight)
    (hheld : ∀ token, phase.held = some token → token ∈ s.issued ∧
      s.sends token = s.failures token + phase.sent ∧
      ∀ id', Holds s.rows s.flights id' token → id' = flight.id)
    (hrow : ∀ row token, s.rows flight.id = some row →
      truthy row.tokens.refreshToken = some token → s.Unspent token ∨ phase.Spends token) :
    SpentOnce (s.setPhase f phase) := by
  apply h.advance hfly hf s.sends s.failures _ _ hheld hrow
  · intro token _
    exact ⟨rfl, rfl⟩
  · intro token _
    exact ⟨h.failed token, h.once token⟩

omit [DecidableEq C] in
/- A flight that spends nothing goes on with the token it holds, the row's, or none. -/
theorem proceed (h : SpentOnce s) (hfly : Flying s) (hf : s.flights[f]? = some flight)
    (hactive : flight.phase.Active) (hspends : ∀ token, ¬ flight.phase.Spends token)
    (hunsent : flight.phase.sent = 0) (hunsent' : phase.sent = 0)
    (hheld : ∀ token, phase.held = some token → flight.phase.held = some token ∨
      ∃ row, s.rows flight.id = some row ∧ truthy row.tokens.refreshToken = some token) :
    SpentOnce (s.setPhase f phase) := by
  have hrow : ∀ row token, s.rows flight.id = some row →
      truthy row.tokens.refreshToken = some token → s.Unspent token := by
    intro row token hrow htoken
    exact (h.row_cases hfly hf hactive hrow htoken).resolve_right (hspends token)
  apply h.setPhase hfly hf
  · intro token htoken
    rw [hunsent']
    obtain htoken | ⟨row, hsome, htoken⟩ := hheld token htoken
    · have hholds : Holds s.rows s.flights flight.id token := .flight f flight hf rfl htoken
      have hsends := h.flight f flight token hf htoken
      rw [hunsent] at hsends
      exact ⟨h.issued flight.id token hholds, hsends, fun id' => h.own flight.id id' token hholds⟩
    · have hholds : Holds s.rows s.flights flight.id token := .row row hsome htoken
      exact ⟨h.issued flight.id token hholds, hrow row token hsome htoken,
        fun id' => h.own flight.id id' token hholds⟩
  · intro row token hsome htoken
    exact .inl (hrow row token hsome htoken)

omit [DecidableEq C] in
theorem selectRow (h : SpentOnce s) (hfly : Flying s) (hf : s.flights[f]? = some ⟨id, c, .reading⟩) :
    SpentOnce (s.selectRow f id now) := by
  have hspends : ∀ token, ¬ Phase.reading.Spends token := fun _ hspends => hspends
  unfold State.selectRow
  split
  · exact h.proceed hfly hf trivial hspends rfl rfl fun _ htoken => .inl htoken
  · rename_i row hrow
    split
    · exact h.proceed hfly hf trivial hspends rfl rfl fun _ htoken => .inl htoken
    · exact h.proceed hfly hf trivial hspends rfl rfl fun _ htoken => .inr ⟨row, hrow, htoken⟩

omit [DecidableEq C] in
theorem checkTokens {current : SessionTokens} (h : SpentOnce s) (hfly : Flying s)
    (hf : s.flights[f]? = some ⟨id, c, .checking current⟩) :
    SpentOnce (s.checkTokens f current now) := by
  have hspends : ∀ token, ¬ (Phase.checking current).Spends token := fun _ hspends => hspends
  unfold State.checkTokens
  split
  · exact h.proceed hfly hf trivial hspends rfl rfl (by simp [Phase.held])
  · split
    · exact h.proceed hfly hf trivial hspends rfl rfl (by simp [Phase.held])
    · rename_i token' hcurrent
      exact h.proceed hfly hf trivial hspends rfl rfl fun token htoken =>
        .inl (hcurrent.trans htoken)

omit [DecidableEq C] in
theorem configured {failure : Option String} (h : SpentOnce s) (hfly : Flying s)
    (hf : s.flights[f]? = some ⟨id, c, .configuring token⟩) :
    SpentOnce (s.configured f token failure) := by
  have hspends : ∀ token', ¬ (Phase.configuring token).Spends token' := fun _ hspends => hspends
  have hholds : Holds s.rows s.flights id token := .flight f _ hf rfl rfl
  have hunspent : s.sends token = s.failures token := h.flight f _ token hf rfl
  unfold State.configured
  split
  · exact h.proceed hfly hf trivial hspends rfl rfl (by simp [Phase.held])
  · have hsends : (s.send token).sends token = s.failures token + 1 := by
      simp [State.send, hunspent]
    have hkept : ∀ token' ≠ token, (s.send token).sends token' = s.sends token' := by
      intro token' hne
      exact Function.update_of_ne hne _ _
    apply h.advance hfly hf _ s.failures
    · intro token' hne
      exact ⟨hkept token' fun heq => hne (by rw [heq]; rfl), rfl⟩
    · intro token' htoken
      cases htoken
      omega
    · intro token' htoken
      cases htoken
      exact ⟨h.issued id token hholds, hsends, fun id' => h.own id id' token hholds⟩
    · intro row token' hrow htoken
      by_cases hne : token' = token
      · exact .inr hne
      · rw [hkept token' hne]
        exact .inl ((h.row_cases hfly hf trivial hrow htoken).resolve_right (hspends token'))

omit [DecidableEq C] in
theorem granted {response : Except String TokenEndpointResponse} (h : SpentOnce s) (hfly : Flying s)
    (hf : s.flights[f]? = some ⟨id, c, .granting token⟩)
    (hrotates : Rotates s (.refreshTokenGrant f response now)) :
    SpentOnce (s.granted f token now response) := by
  have hsent : s.sends token = s.failures token + 1 := h.flight f _ token hf rfl
  unfold State.granted
  split
  · have hfailures : (s.failGrant token).failures token = s.sends token := by
      simp [State.failGrant, hsent]
    have hkept : ∀ token' ≠ token, (s.failGrant token).failures token' = s.failures token' := by
      intro token' hne
      exact Function.update_of_ne hne _ _
    apply h.advance hfly hf s.sends
    · intro token' hne
      exact ⟨rfl, hkept token' fun heq => hne (by rw [heq]; rfl)⟩
    · intro token' htoken
      cases htoken
      omega
    · intro token' htoken
      cases htoken
    · intro row token' hrow htoken
      by_cases hne : token' = token
      · rw [hne]
        exact .inl hfailures.symm
      · rw [hkept token' hne]
        exact .inl ((h.row_cases hfly hf trivial hrow htoken).resolve_right hne)
  · rename_i response
    obtain ⟨hsome, hissues⟩ := hrotates
    have hheld : truthy (refreshTokens response token now).refreshToken =
        truthy response.refreshToken := by
      unfold refreshTokens
      simp only [tokensFromResponse, hsome, if_false]
    apply (h.issue (tokensFromResponse response now)).setPhase
      ⟨hfly.active, hfly.newest, hfly.joined, hfly.returned⟩ hf
    · intro token' htoken
      have htoken' : truthy response.refreshToken = some token' := hheld.symm.trans htoken
      have hnew : token' ∉ s.issued := hissues token' htoken'
      refine ⟨?_, h.unspent_of_not_issued hnew, fun id' hholds => ?_⟩
      · exact List.mem_append_left _ (by simp [tokensFromResponse, htoken'])
      · exact absurd (h.issued id' token' hholds) hnew
    · intro row token' _ _
      exact .inr trivial

omit [DecidableEq C] in
theorem deleteRow (h : SpentOnce s) : SpentOnce (s.deleteRow id) := by
  have hwrite : SpentOnce { s with rows := Function.update s.rows id none } := by
    apply h.write
    intro row hrow
    cases hrow
  exact ⟨hwrite.issued, hwrite.own, hwrite.sent, hwrite.failed, hwrite.once, hwrite.row,
    hwrite.flight⟩

omit [DecidableEq C] in
/- A set that comes from outside of the flights has been newly issued. -/
theorem writeIssued (h : SpentOnce s) (hissues : Issues s tokens.refreshToken)
    {row : Option SessionRow} (hrow : ∀ row' ∈ row, row'.tokens = tokens) :
    SpentOnce { s.issue tokens with rows := Function.update s.rows id row } := by
  apply (h.issue tokens).write
  intro row' hrow' token htoken
  rw [hrow row' hrow'] at htoken
  have hnew : token ∉ s.issued := hissues token htoken
  refine ⟨?_, h.unspent_of_not_issued hnew, fun id' hholds => ?_⟩
  · exact List.mem_append_left _ (by simp [htoken])
  · exact absurd (h.issued id' token hholds) hnew

omit [DecidableEq C] in
theorem update (h : SpentOnce s) (hfly : Flying s)
    (hf : s.flights[f]? = some ⟨id, c, .storing tokens⟩) :
    SpentOnce ((s.updateRow id tokens now).settle f (.ok tokens)) := by
  have hholds : ∀ token, truthy tokens.refreshToken = some token →
      Holds s.rows s.flights id token := fun token htoken => .flight f _ hf rfl htoken
  have hunspent : ∀ token, truthy tokens.refreshToken = some token → s.Unspent token :=
    fun token htoken => h.flight f _ token hf htoken
  have hwrite : SpentOnce (s.updateRow id tokens now) := by
    apply h.write
    intro row hrow token htoken
    obtain ⟨row', -, rfl⟩ := Option.map_eq_some_iff.mp hrow
    exact ⟨h.issued id token (hholds token htoken), hunspent token htoken,
      fun id' => h.own id id' token (hholds token htoken)⟩
  apply hwrite.setPhase ⟨hfly.active, hfly.newest, hfly.joined, hfly.returned⟩ hf
  · intro token htoken
    cases htoken
  · intro row token hrow htoken
    simp only [State.updateRow, Function.update_self, Option.map_eq_some_iff] at hrow
    obtain ⟨row', -, rfl⟩ := hrow
    exact .inl (hunspent token htoken)

theorem step {ev : Event C} (h : SpentOnce s) (hfly : Flying s) (hstep : step s ev = some s')
    (hrotates : Rotates s ev) : SpentOnce s' := by
  cases ev with
  | createSession id tokens now =>
    simp only [OidcSessions.step] at hstep
    split at hstep
    · cases hstep
      exact h.writeIssued hrotates.2 (by simp)
    · cases hstep
  | updateSession id tokens now =>
    cases hstep
    have hwrite : SpentOnce ((s.updateRow id tokens now).issue tokens) := by
      apply h.writeIssued hrotates
      intro row' hrow'
      obtain ⟨row, -, rfl⟩ := Option.map_eq_some_iff.mp hrow'
      rfl
    exact ⟨hwrite.issued, hwrite.own, hwrite.sent, hwrite.failed, hwrite.once, hwrite.row,
      hwrite.flight⟩
  | deleteSession id =>
    cases hstep
    exact h.deleteRow
  | refreshSession c id =>
    simp only [OidcSessions.step] at hstep
    split at hstep
    · split at hstep
      · cases hstep
        exact ⟨h.issued, h.own, h.sent, h.failed, h.once, h.row, h.flight⟩
      · cases hstep
        exact h.startFlight
    · cases hstep
  | select f now =>
    simp only [OidcSessions.step] at hstep
    split at hstep
    · rename_i hf
      cases hstep
      exact h.selectRow hfly hf
    · cases hstep
  | deleteExpired f =>
    simp only [OidcSessions.step] at hstep
    split at hstep
    · rename_i hf
      cases hstep
      exact h.deleteRow.proceed ⟨hfly.active, hfly.newest, hfly.joined, hfly.returned⟩ hf trivial
        (fun _ hspends => hspends) rfl rfl fun _ htoken => .inl htoken
    · cases hstep
  | check f now =>
    simp only [OidcSessions.step] at hstep
    split at hstep
    · rename_i hf
      cases hstep
      exact h.checkTokens hfly hf
    · cases hstep
  | getOidcConfig f failure =>
    simp only [OidcSessions.step] at hstep
    split at hstep
    · rename_i hf
      cases hstep
      exact h.configured hfly hf
    · cases hstep
  | refreshTokenGrant f response now =>
    simp only [OidcSessions.step] at hstep
    split at hstep
    · rename_i hf
      cases hstep
      exact h.granted hfly hf hrotates
    · cases hstep
  | update f now =>
    simp only [OidcSessions.step] at hstep
    split at hstep
    · rename_i hf
      cases hstep
      exact h.update hfly hf
    · cases hstep
  | resume c =>
    simp only [OidcSessions.step] at hstep
    split at hstep
    · split at hstep
      · cases hstep
        exact ⟨h.issued, h.own, h.sent, h.failed, h.once, h.row, h.flight⟩
      · cases hstep
    · cases hstep

end SpentOnce

end Pivox.OidcSessions
