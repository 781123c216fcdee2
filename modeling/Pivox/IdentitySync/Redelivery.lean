import Mathlib.Data.List.Induction
import Pivox.IdentitySync.Identities

/-!
The handler of identity events, and what comes of handling one again: the table stays as it is just
when it still shows what the event says.
-/

namespace Pivox.IdentitySync
open List

/- A field the event does not have is blank. -/
structure KeycloakEvent where
  type : String
  realmName : String
  userID : String
  details : List (String × String)
  deriving DecidableEq, Repr

def KeycloakEvent.detail (ev : KeycloakEvent) (name : String) : String :=
  (ev.details.lookup name).getD ""

/- The payload of a record, `none` when it does not parse. -/
abbrev Payload := Option KeycloakEvent

def isEmailAlreadyOwned (err : DbError) : Bool :=
  err = .uniqueViolation "idx_identities_email_unique"

section handler
variable {Id : Type} [DecidableEq Id] (parse : String → Option Id) (realm : String)

def upsert (t : Identities Id) (ev : KeycloakEvent) : Except DbError (Identities Id) :=
  match parse ev.userID with
  | none => .ok t
  | some id =>
    match t.upsertIdentity id (ev.detail "email") false (ev.detail "name") with
    | .ok t' => .ok t'
    | .error err => if isEmailAlreadyOwned err then .ok t else .error err

def softDelete (t : Identities Id) (ev : KeycloakEvent) : Except DbError (Identities Id) :=
  match parse ev.userID with
  | none => .ok t
  | some id =>
    match t.softDeleteIdentity id with
    | .ok t' => .ok t'
    | .error .noRows => .ok t
    | .error err => .error err

def upserts : List String := ["REGISTER", "UPDATE_PROFILE", "UPDATE_EMAIL"]

def handle (t : Identities Id) (raw : Payload) : Except DbError (Identities Id) :=
  match raw with
  | none => .ok t
  | some ev =>
    if ev.realmName ≠ realm then .ok t
    else if ev.type ∈ upserts then upsert parse t ev
    else if ev.type = "DELETE_ACCOUNT" then softDelete parse t ev
    else .ok t

/-- The soft delete of the account's own deletion. -/
def deleteAccount (t : Identities Id) (id : Id) : Except DbError (Identities Id) :=
  match t.getIdentityByID id with
  | none => .ok t
  | some row => if row.isDeleted then .ok t else t.softDeleteIdentity id

inductive Op (Id : Type) where
  | event (raw : Payload)
  | deleteAccount (id : Id)

/-- A record may be handled `again` after it was handled first. -/
inductive Step (Id : Type) where
  | fresh (op : Op Id)
  | again (raw : Payload)

def apply (t : Identities Id) : Op Id → Except DbError (Identities Id)
  | .event raw => handle parse realm t raw
  | .deleteAccount id => deleteAccount t id

def deliver (t : Identities Id) : List (Op Id) → Except DbError (Identities Id) :=
  List.foldlM (apply parse realm) t

def Step.op : Step Id → Op Id
  | .fresh op => op
  | .again raw => .event raw

/- What is delivered when every event is delivered once. -/
def firsts : List (Step Id) → List (Op Id) :=
  List.filterMap fun
    | .fresh op => some op
    | .again _ => none

/-- The row has what the event says, or the event was skipped and would be again. -/
def Identities.ShowsUser (t : Identities Id) (id : Id) (email displayName : String) : Prop :=
  match t.getIdentityByID id with
  | none => t.Owned id email
  | some row =>
    row.isDeleted = false ∧ (email = "" ∨ row.email = email) ∧
        (displayName = "" ∨ row.displayName = displayName) ∨
      t.Owned id (if email ≠ "" then email else row.email)

def Identities.ShowsDeleted (t : Identities Id) (id : Id) : Prop :=
  ∀ row, t.getIdentityByID id = some row → row.isDeleted = true

/-- The table still shows what the event says. -/
def Shows (t : Identities Id) (raw : Payload) : Prop :=
  ∀ ev, raw = some ev → ev.realmName = realm → ∀ id, parse ev.userID = some id →
    (ev.type ∈ upserts → t.ShowsUser id (ev.detail "email") (ev.detail "name")) ∧
      (ev.type = "DELETE_ACCOUNT" → t.ShowsDeleted id)

end handler

section again
variable {Id : Type} [DecidableEq Id] {parse : String → Option Id} {realm : String}
variable {t : Identities Id}

theorem overwrite_eq_iff {new old : String} :
    (if new ≠ "" then new else old) = old ↔ new = "" ∨ old = new := by
  by_cases hnew : new = ""
  · simp [hnew]
  · simp [hnew, eq_comm]

theorem upsertIdentity_eq_self_iff {id : Id} {email displayName : String} :
    (∀ t', t.upsertIdentity id email false displayName = .ok t' → t' = t) ↔
      t.ShowsUser id email displayName := by
  unfold Identities.upsertIdentity Identities.ShowsUser
  cases hrow : t.getIdentityByID id with
  | none =>
    have hnew : (⟨id, email, false, displayName, "", false⟩ : Identity Id) ∉ t.rows := fun hmem => by
      simp [Identities.getIdentityByID_eq_some_iff.mpr ⟨hmem, rfl⟩] at hrow
    simp [Identities.write_eq_self_iff, hnew]
  | some row =>
    obtain ⟨hmem, rfl⟩ := Identities.getIdentityByID_eq_some_iff.mp hrow
    simp only
    rw [Identities.write_eq_self_iff rfl]
    refine or_congr ⟨fun hmem' => ?_, fun h => ?_⟩ Iff.rfl
    · have heq := Identities.eq_of_mem hmem hmem' rfl
      simp only [Identity.ext_iff, overwrite_eq_iff] at heq
      exact ⟨heq.2.2.2.2.2.symm, heq.2.1, heq.2.2.2.1⟩
    · have heq : { row with
          email := if email ≠ "" then email else row.email
          displayName := if displayName ≠ "" then displayName else row.displayName
          isDeleted := false } = row := by
        simp only [Identity.ext_iff, overwrite_eq_iff]
        exact ⟨trivial, h.2.1, trivial, h.2.2, trivial, h.1.symm⟩
      rwa [heq]

theorem upsertIdentity_error {id : Id} {email displayName : String} {err : DbError}
    (h : t.upsertIdentity id email false displayName = .error err) :
    isEmailAlreadyOwned err = true := by
  unfold Identities.upsertIdentity at h
  have hwrite : ∃ row, t.write row = .error err := by
    split at h
    · exact ⟨_, h⟩
    · exact ⟨_, h⟩
  obtain ⟨row, hwrite⟩ := hwrite
  rcases t.write_cases row with ⟨t', hok, -⟩ | ⟨herror, -⟩
  · simp [hok] at hwrite
  · cases herror.symm.trans hwrite
    rfl

theorem upsert_eq_self_iff {ev : KeycloakEvent} : upsert parse t ev = .ok t ↔
    ∀ id, parse ev.userID = some id → t.ShowsUser id (ev.detail "email") (ev.detail "name") := by
  unfold upsert
  cases hparse : parse ev.userID with
  | none => simp
  | some id =>
    simp only [Option.some.injEq, forall_eq']
    rw [← upsertIdentity_eq_self_iff]
    cases hupsert : t.upsertIdentity id (ev.detail "email") false (ev.detail "name") with
    | ok t' => simp
    | error err => simp [upsertIdentity_error hupsert]

/-- A live row is always deleted. -/
theorem softDeleteIdentity_cases (t : Identities Id) (id : Id) :
    (t.softDeleteIdentity id = .error .noRows ∧ t.ShowsDeleted id) ∨
      ∃ t', t.softDeleteIdentity id = .ok t' ∧ t' ≠ t ∧ ¬ t.ShowsDeleted id := by
  unfold Identities.softDeleteIdentity Identities.ShowsDeleted
  cases hrow : t.getIdentityByID id with
  | none => exact .inl ⟨rfl, nofun⟩
  | some row =>
    obtain ⟨hmem, rfl⟩ := Identities.getIdentityByID_eq_some_iff.mp hrow
    by_cases hdeleted : row.isDeleted = true
    · exact .inl ⟨by simp [hdeleted], by simp [hdeleted]⟩
    · right
      simp only [hdeleted]
      rcases t.write_cases { row with
          isDeleted := true, email := "", displayName := "", photoUrl := "" } with
        ⟨t', hok, hrows, -⟩ | ⟨-, hlive, -⟩
      · refine ⟨t', hok, ?_, by simp [hdeleted]⟩
        rw [Ne, Identities.eq_self_iff hrows]
        intro hmem'
        have heq := Identities.eq_of_mem hmem hmem' rfl
        exact hdeleted (congrArg Identity.isDeleted heq).symm
      · cases hlive

theorem softDelete_eq_self_iff {ev : KeycloakEvent} : softDelete parse t ev = .ok t ↔
    ∀ id, parse ev.userID = some id → t.ShowsDeleted id := by
  unfold softDelete
  cases hparse : parse ev.userID with
  | none => simp
  | some id =>
    rcases softDeleteIdentity_cases t id with ⟨herror, hshows⟩ | ⟨t', hok, hne, hshows⟩
    · simp [herror, hshows]
    · simp [hok, hne, hshows]

/-- An event that is handled changes nothing just when the table shows what it says. -/
theorem handle_eq_self_iff {raw : Payload} :
    handle parse realm t raw = .ok t ↔ Shows parse realm t raw := by
  unfold handle Shows
  cases raw with
  | none => simp
  | some ev =>
    simp only [Option.some.injEq, forall_eq']
    by_cases hrealm : ev.realmName = realm
    · by_cases hupsert : ev.type ∈ upserts
      · have hdelete : ev.type ≠ "DELETE_ACCOUNT" := by
          rintro heq
          simp [heq, upserts] at hupsert
        simp [hrealm, hupsert, hdelete, upsert_eq_self_iff]
      · by_cases hdelete : ev.type = "DELETE_ACCOUNT"
        · have hnot : "DELETE_ACCOUNT" ∉ upserts := by decide
          simp [hrealm, hdelete, hnot, softDelete_eq_self_iff]
        · simp [hrealm, hupsert, hdelete]
    · simp [hrealm]

theorem upsert_ok (t : Identities Id) (ev : KeycloakEvent) : ∃ t', upsert parse t ev = .ok t' := by
  unfold upsert
  cases parse ev.userID with
  | none => exact ⟨t, rfl⟩
  | some id =>
    cases hupsert : t.upsertIdentity id (ev.detail "email") false (ev.detail "name") with
    | ok t' => exact ⟨t', by simp [hupsert]⟩
    | error err => exact ⟨t, by simp [hupsert, upsertIdentity_error hupsert]⟩

theorem softDelete_ok (t : Identities Id) (ev : KeycloakEvent) :
    ∃ t', softDelete parse t ev = .ok t' := by
  unfold softDelete
  cases parse ev.userID with
  | none => exact ⟨t, rfl⟩
  | some id =>
    rcases softDeleteIdentity_cases t id with ⟨herror, -⟩ | ⟨t', hok, -⟩
    · exact ⟨t, by simp [herror]⟩
    · exact ⟨t', by simp [hok]⟩

/-- With the database up every event is handled. -/
theorem handle_ok (t : Identities Id) (raw : Payload) :
    ∃ t', handle parse realm t raw = .ok t' := by
  unfold handle
  cases raw with
  | none => exact ⟨t, rfl⟩
  | some ev =>
    simp only
    split_ifs
    · exact ⟨t, rfl⟩
    · exact upsert_ok t ev
    · exact softDelete_ok t ev
    · exact ⟨t, rfl⟩

theorem apply_ok (parse : String → Option Id) (realm : String) (t : Identities Id) (op : Op Id) :
    ∃ t', apply parse realm t op = .ok t' := by
  cases op with
  | event raw => exact handle_ok t raw
  | deleteAccount id =>
    simp only [apply, deleteAccount]
    cases hrow : t.getIdentityByID id with
    | none => exact ⟨t, rfl⟩
    | some row =>
      by_cases hdeleted : row.isDeleted = true
      · exact ⟨t, by simp [hdeleted]⟩
      · rcases softDeleteIdentity_cases t id with ⟨-, hshows⟩ | ⟨t', hok, -⟩
        · exact absurd (hshows row hrow) hdeleted
        · exact ⟨t', by simp [hdeleted, hok]⟩

theorem deliver_ok (parse : String → Option Id) (realm : String) (t : Identities Id)
    (ops : List (Op Id)) : ∃ t', deliver parse realm t ops = .ok t' := by
  induction ops generalizing t with
  | nil => exact ⟨t, rfl⟩
  | cons op ops ih =>
    obtain ⟨t₁, hop⟩ := apply_ok parse realm t op
    obtain ⟨t₂, hops⟩ := ih t₁
    refine ⟨t₂, ?_⟩
    simp only [deliver, foldlM_cons, hop]
    exact hops

theorem deliver_append (ops ops' : List (Op Id)) : deliver parse realm t (ops ++ ops') =
    deliver parse realm t ops >>= fun t' => deliver parse realm t' ops' :=
  foldlM_append

omit [DecidableEq Id] in
theorem firsts_append (steps steps' : List (Step Id)) :
    firsts (steps ++ steps') = firsts steps ++ firsts steps' :=
  filterMap_append

end again

/-- However events are handled again, whichever they are and whenever, the table is at every moment
the one it is when every event is handled once, if and only if it still shows what every event says
that is handled again. -/
theorem redelivery_harmless_iff {Id : Type} [DecidableEq Id] (parse : String → Option Id)
    (realm : String) (t : Identities Id) (steps : List (Step Id)) :
    (∀ done, done <+: steps →
        deliver parse realm t (done.map Step.op) = deliver parse realm t (firsts done)) ↔
      ∀ done raw, done ++ [Step.again raw] <+: steps →
        ∀ now, deliver parse realm t (firsts done) = .ok now → Shows parse realm now raw := by
  have hagain : ∀ done raw now, deliver parse realm t (firsts done) = .ok now →
      deliver parse realm t (done.map Step.op) = deliver parse realm t (firsts done) →
      (deliver parse realm t ((done ++ [Step.again raw]).map Step.op) =
          deliver parse realm t (firsts (done ++ [Step.again raw])) ↔ Shows parse realm now raw) := by
    intro done raw now hnow hdone
    have hfirsts : firsts (done ++ [Step.again raw]) = firsts done := by simp [firsts]
    have hdeliver : deliver parse realm now [Op.event raw] = handle parse realm now raw := by
      simp [deliver, apply]
    rw [hfirsts, map_append, deliver_append, hdone, hnow, ← handle_eq_self_iff, ← hdeliver]
    rfl
  constructor
  · intro h done raw hpre now hnow
    exact (hagain done raw now hnow (h done ((prefix_append _ _).trans hpre))).mp
      (h _ hpre)
  · intro h done
    induction done using List.reverseRecOn with
    | nil => exact fun _ => rfl
    | append_singleton done step ih =>
      intro hpre
      have hdone := ih ((prefix_append _ _).trans hpre)
      cases step with
      | fresh op =>
        rw [map_append, deliver_append, firsts_append, deliver_append, hdone]
        rfl
      | again raw =>
        obtain ⟨now, hnow⟩ := deliver_ok parse realm t (firsts done)
        exact (hagain done raw now hnow hdone).mpr (h done raw hpre now hnow)

/-! A registration that is handled again after the account was deleted. -/

def registered : Payload :=
  some ⟨"REGISTER", "pivox", "0", [("email", "ada@example.com"), ("name", "Ada")]⟩

def parseDigit : String → Option Nat := fun s => if s = "0" then some 0 else none

def noIdentities : Identities Nat := ⟨[], .nil, .nil⟩

theorem redelivery_revives :
    (deliver parseDigit "pivox" noIdentities [.event registered, .deleteAccount 0]).map
        Identities.rows = .ok [⟨0, "", false, "", "", true⟩] ∧
      (deliver parseDigit "pivox" noIdentities
          [.event registered, .deleteAccount 0, .event registered]).map Identities.rows =
        .ok [⟨0, "ada@example.com", false, "Ada", "", false⟩] := by
  decide

end Pivox.IdentitySync
