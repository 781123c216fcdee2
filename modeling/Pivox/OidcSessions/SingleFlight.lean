import Pivox.OidcSessions.RefreshTokens

/-!
Token refresh at any order of steps: what the calls of a flight get, what the row holds after it, and
how often a refresh token is sent.
-/

namespace Pivox.OidcSessions
open Transition

variable {C : Type} [DecidableEq C] {s s' : State C} {f f' : ℕ} {flight flight' : Flight C}
variable {phase : Phase} {c : C} {id token : String} {tokens : SessionTokens} {now : Int}

theorem Flying.step {ev : Event C} (h : Flying s) (hstep : step s ev = some s') : Flying s' := by
  cases ev with
  | createSession id tokens now =>
    simp only [OidcSessions.step] at hstep
    split at hstep
    · cases hstep
      exact ⟨h.active, h.newest, h.joined, h.returned⟩
    · cases hstep
  | updateSession id tokens now | deleteSession id =>
    cases hstep
    exact ⟨h.active, h.newest, h.joined, h.returned⟩
  | refreshSession c id =>
    simp only [OidcSessions.step] at hstep
    split at hstep
    · split at hstep
      · rename_i hid
        cases hstep
        exact h.join hid
      · rename_i hid
        cases hstep
        exact h.startFlight hid
    · cases hstep
  | select f now =>
    simp only [OidcSessions.step] at hstep
    split at hstep
    · rename_i hf
      cases hstep
      unfold State.selectRow
      split
      · exact h.setPhase hf trivial
      · split
        · exact h.setPhase hf trivial
        · exact h.setPhase hf trivial
    · cases hstep
  | deleteExpired f =>
    simp only [OidcSessions.step] at hstep
    split at hstep
    · rename_i id _ hf
      cases hstep
      have hdelete : Flying (s.deleteRow id) := ⟨h.active, h.newest, h.joined, h.returned⟩
      exact hdelete.setPhase hf trivial
    · cases hstep
  | check f now =>
    simp only [OidcSessions.step] at hstep
    split at hstep
    · rename_i hf
      cases hstep
      unfold State.checkTokens
      split
      · exact h.setPhase hf trivial
      · split
        · exact h.setPhase hf trivial
        · exact h.setPhase hf trivial
    · cases hstep
  | getOidcConfig f failure =>
    simp only [OidcSessions.step] at hstep
    split at hstep
    · rename_i token hf
      cases hstep
      cases failure with
      | some failure => exact h.setPhase hf trivial
      | none =>
        have hsend : Flying (s.send token) := ⟨h.active, h.newest, h.joined, h.returned⟩
        exact hsend.setPhase hf trivial
    · cases hstep
  | refreshTokenGrant f response now =>
    simp only [OidcSessions.step] at hstep
    split at hstep
    · rename_i token hf
      cases hstep
      cases response with
      | error failure =>
        have hfail : Flying (s.failGrant token) := ⟨h.active, h.newest, h.joined, h.returned⟩
        exact hfail.setPhase hf trivial
      | ok response =>
        have hissue : Flying (s.issue (tokensFromResponse response now)) :=
          ⟨h.active, h.newest, h.joined, h.returned⟩
        exact hissue.setPhase hf trivial
    · cases hstep
  | update f now =>
    simp only [OidcSessions.step] at hstep
    split at hstep
    · rename_i id _ tokens hf
      cases hstep
      have hupdate : Flying (s.updateRow id tokens now) :=
        ⟨h.active, h.newest, h.joined, h.returned⟩
      exact hupdate.setPhase hf trivial
    · cases hstep
  | resume c =>
    simp only [OidcSessions.step] at hstep
    split at hstep
    · rename_i hc
      split at hstep
      · rename_i hf
        cases hstep
        exact h.finish hc hf rfl
      · cases hstep
    · cases hstep

/-! The set of the last flight is the one in the row -/

/-- The last flight of its session that has succeeded. -/
structure State.Latest (s : State C) (f : ℕ) (flight : Flight C) (tokens : SessionTokens) :
    Prop where
  started : s.flights[f]? = some flight
  settled : flight.phase = .settled (.ok tokens)
  last : ∀ (f' : ℕ) flight' tokens', f < f' → s.flights[f']? = some flight' → flight'.id = flight.id →
    flight'.phase ≠ .settled (.ok tokens')

/- The flight has found the row. -/
def Phase.HasRead : Phase → Prop
  | .checking _ | .configuring _ | .granting _ | .storing _ | .settled (.ok _) => True
  | _ => False

structure Stored (s : State C) : Prop where
  deleted : ∀ id ∈ s.deleted, s.rows id = none
  found : ∀ (f : ℕ) flight, s.flights[f]? = some flight → flight.phase.HasRead →
    s.rows flight.id = none → flight.id ∈ s.deleted
  checking : ∀ (f : ℕ) flight current row, s.flights[f]? = some flight →
    flight.phase = .checking current → s.rows flight.id = some row →
    row.tokens = current ∨ flight.id ∈ s.rewritten
  settled : ∀ f flight tokens row, s.Latest f flight tokens → s.rows flight.id = some row →
    row.tokens = tokens ∨ flight.id ∈ s.rewritten

namespace Stored

omit [DecidableEq C] in
theorem initial : Stored (State.initial : State C) where
  deleted id hid := by
    cases hid
  found f flight hf := by
    simp [State.initial] at hf
  checking f flight current row hf := by
    simp [State.initial] at hf
  settled f flight tokens row hlatest := by
    have hf := hlatest.started
    simp [State.initial] at hf

omit [DecidableEq C] in
theorem congr (h : Stored s) (hrows : s'.rows = s.rows) (hflights : s'.flights = s.flights)
    (hdeleted : s'.deleted = s.deleted) (hrewritten : s'.rewritten = s.rewritten) : Stored s' where
  deleted := by
    simpa only [hrows, hdeleted] using h.deleted
  found := by
    simpa only [hrows, hflights, hdeleted] using h.found
  checking := by
    simpa only [hrows, hflights, hrewritten] using h.checking
  settled f flight tokens row hlatest hrow := by
    rw [hrewritten]
    apply h.settled f flight tokens row _ (hrows ▸ hrow)
    exact ⟨hflights ▸ hlatest.started, hlatest.settled, hflights ▸ hlatest.last⟩

omit [DecidableEq C] in
theorem insertRow (h : Stored s) (hid : s.rows id = none) (hdeleted : id ∉ s.deleted) :
    Stored (s.insertRow id tokens now) := by
  have hne : ∀ (f : ℕ) flight, s.flights[f]? = some flight → flight.phase.HasRead → flight.id ≠ id := by
    intro f flight hf hread heq
    exact hdeleted (heq ▸ h.found f flight hf hread (heq ▸ hid))
  have hrows : ∀ (f : ℕ) flight, s.flights[f]? = some flight → flight.phase.HasRead →
      (s.insertRow id tokens now).rows flight.id = s.rows flight.id := by
    intro f flight hf hread
    exact Function.update_of_ne (hne f flight hf hread) _ _
  constructor
  case deleted =>
    intro id' hid'
    have hne' : id' ≠ id := by
      rintro rfl
      exact hdeleted hid'
    exact (Function.update_of_ne hne' _ _).trans (h.deleted id' hid')
  case found =>
    intro f flight hf hread hrow
    rw [hrows f flight hf hread] at hrow
    exact h.found f flight hf hread hrow
  case checking =>
    intro f flight current row hf hphase hrow
    have hread : flight.phase.HasRead := by
      rw [hphase]
      trivial
    rw [hrows f flight hf hread] at hrow
    exact h.checking f flight current row hf hphase hrow
  case settled =>
    intro f flight tokens' row hlatest hrow
    have hread : flight.phase.HasRead := by
      rw [hlatest.settled]
      trivial
    rw [hrows f flight hlatest.started hread] at hrow
    exact h.settled f flight tokens' row ⟨hlatest.started, hlatest.settled, hlatest.last⟩ hrow

omit [DecidableEq C] in
/- updateSession from outside of the flights. -/
theorem rewrite (h : Stored s) :
    Stored { s.updateRow id tokens now with rewritten := id :: s.rewritten } := by
  have hrows : ∀ id' ≠ id, (s.updateRow id tokens now).rows id' = s.rows id' := by
    intro id' hne
    exact Function.update_of_ne hne _ _
  have hnone : ∀ id', (s.updateRow id tokens now).rows id' = none ↔ s.rows id' = none := by
    intro id'
    by_cases hne : id' = id
    · subst hne
      simp [State.updateRow]
    · rw [hrows id' hne]
  constructor
  case deleted =>
    intro id' hid'
    exact (hnone id').2 (h.deleted id' hid')
  case found =>
    intro f flight hf hread hrow
    exact h.found f flight hf hread ((hnone flight.id).1 hrow)
  case checking =>
    intro f flight current row hf hphase hrow
    by_cases hne : flight.id = id
    · simp [hne]
    · have hrow' := (hrows flight.id hne).symm.trans hrow
      simp [hne, h.checking f flight current row hf hphase hrow']
  case settled =>
    intro f flight tokens' row hlatest hrow
    by_cases hne : flight.id = id
    · simp [hne]
    · have hrow' := (hrows flight.id hne).symm.trans hrow
      simp [hne, h.settled f flight tokens' row ⟨hlatest.started, hlatest.settled, hlatest.last⟩ hrow']

omit [DecidableEq C] in
theorem deleteRow (h : Stored s) : Stored (s.deleteRow id) := by
  have hrows : ∀ id' row, (s.deleteRow id).rows id' = some row → s.rows id' = some row := by
    intro id' row hrow
    by_cases hne : id' = id
    · simp [State.deleteRow, hne] at hrow
    · exact (Function.update_of_ne hne _ _).symm.trans hrow
  constructor
  case deleted =>
    intro id' hid'
    by_cases hne : id' = id
    · simp [State.deleteRow, hne]
    · have hmem : id' ∈ s.deleted := (List.mem_cons.mp hid').resolve_left hne
      exact (Function.update_of_ne hne _ _).trans (h.deleted id' hmem)
  case found =>
    intro f flight hf hread hrow
    by_cases hne : flight.id = id
    · simp [State.deleteRow, hne]
    · have hrow' := (Function.update_of_ne hne _ _).symm.trans hrow
      exact List.mem_cons_of_mem _ (h.found f flight hf hread hrow')
  case checking =>
    intro f flight current row hf hphase hrow
    exact h.checking f flight current row hf hphase (hrows flight.id row hrow)
  case settled =>
    intro f flight tokens row hlatest hrow
    exact h.settled f flight tokens row ⟨hlatest.started, hlatest.settled, hlatest.last⟩
      (hrows flight.id row hrow)

omit [DecidableEq C] in
/- A flight goes on; the row of its session changes only as it succeeds. -/
theorem advance (h : Stored s) (hfly : Flying s) (hf : s.flights[f]? = some flight)
    (hactive : flight.phase.Active) {rows : String → Option SessionRow}
    (hother : ∀ id ≠ flight.id, rows id = s.rows id)
    (hnone : rows flight.id = none ↔ s.rows flight.id = none)
    (hkept : (∀ tokens, phase ≠ .settled (.ok tokens)) → rows flight.id = s.rows flight.id)
    (hread : phase.HasRead → flight.phase.HasRead ∨ rows flight.id ≠ none)
    (hchecking : ∀ current row, phase = .checking current → rows flight.id = some row →
      row.tokens = current ∨ flight.id ∈ s.rewritten)
    (hsettled : ∀ tokens row, phase = .settled (.ok tokens) → rows flight.id = some row →
      row.tokens = tokens ∨ flight.id ∈ s.rewritten) :
    Stored { s.setPhase f phase with rows := rows } := by
  have hnone' : ∀ id, rows id = none ↔ s.rows id = none := by
    intro id
    by_cases hid : id = flight.id
    · rw [hid, hnone]
    · rw [hother id hid]
  constructor
  case deleted =>
    intro id hid
    exact (hnone' id).2 (h.deleted id hid)
  case found =>
    intro f' flight' hf' hread' hrow
    have hrow' := (hnone' flight'.id).1 hrow
    obtain ⟨rfl, rfl⟩ | ⟨-, hf'⟩ := State.setPhase_cases hf hf'
    · exact h.found f' flight hf ((hread hread').resolve_right fun hsome => hsome hrow) hrow'
    · exact h.found f' flight' hf' hread' hrow'
  case checking =>
    intro f' flight' current row hf' hphase hrow
    obtain ⟨rfl, rfl⟩ | ⟨hne, hf'⟩ := State.setPhase_cases hf hf'
    · exact hchecking current row hphase hrow
    · have hid : flight'.id ≠ flight.id := by
        intro hid
        have hactive' : flight'.phase.Active := by
          rw [hphase]
          trivial
        exact hne (hfly.eq_of_id hf hactive hf' hactive' hid)
      exact h.checking f' flight' current row hf' hphase ((hother flight'.id hid).symm.trans hrow)
  case settled =>
    intro f₁ flight₁ tokens row hlatest hrow
    obtain ⟨rfl, rfl⟩ | ⟨hne, hf₁⟩ := State.setPhase_cases hf hlatest.started
    · exact hsettled tokens row hlatest.settled hrow
    -- No later flight of the session had succeeded before either: this one had not settled.
    have hlast : ∀ (f' : ℕ) flight' tokens', f₁ < f' → s.flights[f']? = some flight' →
        flight'.id = flight₁.id → flight'.phase ≠ .settled (.ok tokens') := by
      intro f' flight' tokens' hlt hf' hid hphase
      by_cases heq : f' = f
      · subst heq
        cases hf.symm.trans hf'
        simp [hphase, Phase.Active] at hactive
      · exact hlatest.last f' flight' tokens' hlt ((State.setPhase_of_ne heq).trans hf') hid hphase
    apply h.settled f₁ flight₁ tokens row ⟨hf₁, hlatest.settled, hlast⟩
    by_cases hid : flight₁.id = flight.id
    · obtain ⟨flight₂, hf₂, -, hmax⟩ := hfly.newest flight.id f (hfly.active f flight hf hactive)
      have hlt : f₁ < f := Nat.lt_of_le_of_ne (hmax f₁ flight₁ hf₁ hid) hne
      have hfailed : ∀ tokens, phase ≠ .settled (.ok tokens) := fun tokens' =>
        hlatest.last f _ tokens' hlt (State.setPhase_self hf) hid.symm
      rw [hid, ← hkept hfailed, ← hid]
      exact hrow
    · exact (hother flight₁.id hid).symm.trans hrow

omit [DecidableEq C] in
/- A phase that neither finds the row nor succeeds. -/
theorem setPhase (h : Stored s) (hfly : Flying s) (hf : s.flights[f]? = some flight)
    (hactive : flight.phase.Active)
    (hread : phase.HasRead → flight.phase.HasRead ∨ s.rows flight.id ≠ none)
    (hchecking : ∀ current row, phase = .checking current → s.rows flight.id = some row →
      row.tokens = current ∨ flight.id ∈ s.rewritten)
    (hsettled : ∀ tokens row, phase = .settled (.ok tokens) → s.rows flight.id = some row →
      row.tokens = tokens ∨ flight.id ∈ s.rewritten) : Stored (s.setPhase f phase) :=
  h.advance hfly hf hactive (fun _ _ => rfl) Iff.rfl (fun _ => rfl) hread hchecking hsettled

omit [DecidableEq C] in
theorem selectRow (h : Stored s) (hfly : Flying s) (hf : s.flights[f]? = some ⟨id, c, .reading⟩) :
    Stored (s.selectRow f id now) := by
  unfold State.selectRow
  split
  · exact h.setPhase hfly hf trivial (by simp [Phase.HasRead]) (by simp) (by simp)
  · rename_i row hrow
    split
    · exact h.setPhase hfly hf trivial (by simp [Phase.HasRead]) (by simp) (by simp)
    · apply h.setPhase hfly hf trivial
      · intro _
        simp [hrow]
      · intro current row' hcurrent hrow'
        cases hcurrent
        cases hrow.symm.trans hrow'
        exact .inl rfl
      · simp

omit [DecidableEq C] in
theorem checkTokens {current : SessionTokens} (h : Stored s) (hfly : Flying s)
    (hf : s.flights[f]? = some ⟨id, c, .checking current⟩) : Stored (s.checkTokens f current now) := by
  unfold State.checkTokens
  split
  · apply h.setPhase hfly hf trivial (fun _ => .inl trivial) (by simp)
    intro tokens row hcurrent hrow
    cases hcurrent
    exact h.checking f _ current row hf rfl hrow
  · split
    · exact h.setPhase hfly hf trivial (by simp [Phase.HasRead]) (by simp) (by simp)
    · exact h.setPhase hfly hf trivial (fun _ => .inl trivial) (by simp) (by simp)

omit [DecidableEq C] in
theorem update (h : Stored s) (hfly : Flying s)
    (hf : s.flights[f]? = some ⟨id, c, .storing tokens⟩) :
    Stored ((s.updateRow id tokens now).settle f (.ok tokens)) := by
  apply h.advance hfly hf trivial
  · intro id' hne
    exact Function.update_of_ne hne _ _
  · simp [State.updateRow]
  · intro hfailed
    exact absurd rfl (hfailed tokens)
  · intro _
    exact .inl trivial
  · intro current row hphase
    cases hphase
  · intro tokens' row hphase hrow
    cases hphase
    simp only [State.updateRow, Function.update_self, Option.map_eq_some_iff] at hrow
    obtain ⟨row', -, rfl⟩ := hrow
    exact .inl rfl

theorem startFlight (h : Stored s) : Stored (s.startFlight c id) := by
  constructor
  case deleted => exact h.deleted
  case found =>
    intro f flight hf hread hrow
    obtain ⟨-, rfl⟩ | ⟨-, hf⟩ := flights_append_cases hf
    · cases hread
    · exact h.found f flight hf hread hrow
  case checking =>
    intro f flight current row hf hphase hrow
    obtain ⟨-, rfl⟩ | ⟨-, hf⟩ := flights_append_cases hf
    · cases hphase
    · exact h.checking f flight current row hf hphase hrow
  case settled =>
    intro f flight tokens row hlatest hrow
    obtain ⟨-, rfl⟩ | ⟨-, hf⟩ := flights_append_cases hlatest.started
    · cases hlatest.settled
    · refine h.settled f flight tokens row ⟨hf, hlatest.settled, fun f' flight' _ hlt hf' => ?_⟩ hrow
      have hlt' := (List.getElem?_eq_some_iff.mp hf').1
      exact hlatest.last f' flight' _ hlt ((List.getElem?_append_left hlt').trans hf')

theorem step {ev : Event C} (h : Stored s) (hfly : Flying s) (hstep : step s ev = some s')
    (hrotates : Rotates s ev) : Stored s' := by
  cases ev with
  | createSession id tokens now =>
    simp only [OidcSessions.step] at hstep
    split at hstep
    · rename_i hid
      cases hstep
      exact (h.insertRow hid hrotates.1).congr rfl rfl rfl rfl
    · cases hstep
  | updateSession id tokens now =>
    cases hstep
    exact h.rewrite.congr rfl rfl rfl rfl
  | deleteSession id =>
    cases hstep
    exact h.deleteRow
  | refreshSession c id =>
    simp only [OidcSessions.step] at hstep
    split at hstep
    · split at hstep
      · cases hstep
        exact h.congr rfl rfl rfl rfl
      · cases hstep
        exact h.startFlight
    · cases hstep
  | select f now =>
    simp only [OidcSessions.step] at hstep
    split at hstep
    · rename_i hf
      cases hstep
      exact h.selectRow hfly hf
    · cases hstep
  | deleteExpired f =>
    simp only [OidcSessions.step] at hstep
    split at hstep
    · rename_i id _ hf
      cases hstep
      have hfly' : Flying (s.deleteRow id) :=
        ⟨hfly.active, hfly.newest, hfly.joined, hfly.returned⟩
      exact h.deleteRow.setPhase hfly' hf trivial (by simp [Phase.HasRead]) (by simp) (by simp)
    · cases hstep
  | check f now =>
    simp only [OidcSessions.step] at hstep
    split at hstep
    · rename_i hf
      cases hstep
      exact h.checkTokens hfly hf
    · cases hstep
  | getOidcConfig f failure =>
    simp only [OidcSessions.step] at hstep
    split at hstep
    · rename_i token hf
      cases hstep
      cases failure with
      | some failure =>
        exact h.setPhase hfly hf trivial (by simp [Phase.HasRead]) (by simp) (by simp)
      | none =>
        have hphase : Stored (s.setPhase f (.granting token)) :=
          h.setPhase hfly hf trivial (fun _ => .inl trivial) (by simp) (by simp)
        exact hphase.congr rfl rfl rfl rfl
    · cases hstep
  | refreshTokenGrant f response now =>
    simp only [OidcSessions.step] at hstep
    split at hstep
    · rename_i token hf
      cases hstep
      cases response with
      | error failure =>
        have hphase : Stored (s.settle f (.error failure)) :=
          h.setPhase hfly hf trivial (by simp [Phase.HasRead]) (by simp) (by simp)
        exact hphase.congr rfl rfl rfl rfl
      | ok response =>
        have hphase : Stored (s.setPhase f (.storing (refreshTokens response token now))) :=
          h.setPhase hfly hf trivial (fun _ => .inl trivial) (by simp) (by simp)
        exact hphase.congr rfl rfl rfl rfl
    · cases hstep
  | update f now =>
    simp only [OidcSessions.step] at hstep
    split at hstep
    · rename_i hf
      cases hstep
      exact h.update hfly hf
    · cases hstep
  | resume c =>
    simp only [OidcSessions.step] at hstep
    split at hstep
    · split at hstep
      · cases hstep
        exact h.congr rfl rfl rfl rfl
      · cases hstep
    · cases hstep

end Stored

/-- One flight of a session at a time, whose calls all get what it settles with. A refresh token is
sent again only when every grant with it has failed. The set of the last flight to succeed is in the
row unless the row is deleted, or was written by an updateSession outside of the flights; and a row
that was deleted stays so. -/
structure SingleFlight (s : State C) : Prop where
  single : ∀ (f f' : ℕ) flight flight', s.flights[f]? = some flight → flight.phase.Active →
    s.flights[f']? = some flight' → flight'.phase.Active → flight'.id = flight.id → f' = f
  sent : ∀ token, s.sends token ≤ s.failures token + 1
  returned : ∀ c f result, s.calls c = .returned f result →
    ∃ flight, s.flights[f]? = some flight ∧ flight.phase = .settled result
  joined : ∀ c f flight result, s.calls c = .joined f → s.flights[f]? = some flight →
    flight.phase = .settled result →
    ∃ s', step s (.resume c) = some s' ∧ s'.calls c = .returned f result
  stored : ∀ f flight tokens row, s.Latest f flight tokens → s.rows flight.id = some row →
    row.tokens = tokens ∨ flight.id ∈ s.rewritten
  deleted : ∀ id ∈ s.deleted, s.rows id = none

theorem refresh_single_flight (hrun : Runs step Rotates State.initial s) : SingleFlight s := by
  obtain ⟨hfly, hspent, hstored⟩ : Flying s ∧ SpentOnce s ∧ Stored s := by
    refine hrun.invariant (I := fun s => Flying s ∧ SpentOnce s ∧ Stored s)
      ⟨.initial, .initial, .initial⟩ fun s ev s' h hrotates hstep => ?_
    obtain ⟨hfly, hspent, hstored⟩ := h
    exact ⟨hfly.step hstep, hspent.step hfly hstep hrotates, hstored.step hfly hstep hrotates⟩
  constructor
  case single =>
    intro f f' flight flight' hf hactive hf' hactive' hid
    exact hfly.eq_of_id hf hactive hf' hactive' hid
  case sent => exact hspent.once
  case returned => exact hfly.returned
  case joined =>
    intro c f flight result hc hf hsettled
    obtain ⟨id, owner, phase⟩ := flight
    cases hsettled
    refine ⟨s.finish c f ⟨id, owner, .settled result⟩ result, ?_, ?_⟩
    · simp only [step, hc, hf]
    · simp [State.finish]
  case stored => exact hstored.settled
  case deleted => exact hstored.deleted

/-! A refresh token is sent again after a grant that has failed, and a set of another updateSession
takes the place of a flight's or brings back a token that has been spent -/

def expired (token : String) : SessionTokens := ⟨"access", some token, none, 0⟩

def refreshFails : List (Event Bool) :=
  [.createSession "id" (expired "first") 0, .refreshSession false "id", .select 0 0, .check 0 0,
    .getOidcConfig 0 none, .refreshTokenGrant 0 (.error "timeout") 0, .resume false]

def refreshSucceeds (f : ℕ) (c : Bool) (token : String) : List (Event Bool) :=
  [.refreshSession c "id", .select f 0, .check f 0, .getOidcConfig f none,
    .refreshTokenGrant f (.ok ⟨"access", some token, none, some 0⟩) 0, .update f 0, .resume c]

theorem refresh_single_flight_retried :
    ∃ s, exec step State.initial (refreshFails ++ refreshSucceeds 1 true "second") = some s ∧
      SingleFlight s := by
  obtain ⟨s, hs, hrun⟩ : ∃ s,
      exec step State.initial (refreshFails ++ refreshSucceeds 1 true "second") = some s ∧
      Runs step Rotates State.initial s :=
    ⟨_, rfl, .of_exec (refreshFails ++ refreshSucceeds 1 true "second") rfl (by decide)⟩
  exact ⟨s, hs, refresh_single_flight hrun⟩

/- As `Rotates`, but for the sets given to updateSession. -/
def Grants (s : State C) (ev : Event C) : Prop :=
  (ev matches .updateSession _ _ _) ∨ Rotates s ev

instance (s : State C) (ev : Event C) : Decidable (Grants s ev) :=
  inferInstanceAs (Decidable ((ev matches .updateSession _ _ _) ∨ Rotates s ev))

def restored : List (Event Bool) :=
  .createSession "id" (expired "first") 0 :: refreshSucceeds 0 false "second" ++
    .updateSession "id" (expired "first") 0 :: refreshSucceeds 1 true "third"

def rewritten : List (Event Bool) :=
  .createSession "id" (expired "first") 0 :: refreshSucceeds 0 false "second" ++
    [Event.updateSession "id" (expired "third") 0]

theorem refresh_token_resent :
    (¬ ∀ s : State Bool, Runs step Rotates State.initial s → ∀ token, s.sends token ≤ 1) ∧
    (¬ ∀ s : State Bool, Runs step Rotates State.initial s →
      ∀ f flight tokens row, s.Latest f flight tokens → s.rows flight.id = some row →
        row.tokens = tokens) ∧
    ¬ ∀ s : State Bool, Runs step Grants State.initial s →
      ∀ token, s.sends token ≤ s.failures token + 1 := by
  refine ⟨fun h => ?_, fun h => ?_, fun h => ?_⟩
  · have hsends := h _ (.of_exec (refreshFails ++ refreshSucceeds 1 true "second") rfl (by decide))
      "first"
    exact absurd hsends (by decide)
  · have hrow := h _ (.of_exec rewritten rfl (by decide)) 0
      ⟨"id", false, .settled (.ok (expired "second"))⟩ (expired "second")
      ⟨expired "third", sessionTtlMs⟩ ⟨rfl, rfl, fun f' flight' tokens' hlt hf' => ?_⟩ rfl
    · exact absurd hrow (by decide)
    · have hlt' := (List.getElem?_eq_some_iff.mp hf').1
      exact absurd hlt' (Nat.not_lt.mpr hlt)
  · have hsends := h _ (.of_exec restored rfl (by decide)) "first"
    exact absurd hsends (by decide)

end Pivox.OidcSessions
