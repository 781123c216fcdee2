import Mathlib.Data.List.Nodup

/-!
The identities table: its key, its index of unique e-mails and the two statements that write it.
The times at which a row was written are left out.
-/

namespace Pivox.IdentitySync
open List
variable {Id : Type}

@[ext] structure Identity (Id : Type) where
  id : Id
  email : String
  emailVerified : Bool
  displayName : String
  photoUrl : String
  isDeleted : Bool
  deriving DecidableEq, Repr

/-- What idx_identities_email_unique is against; deleted rows and blank e-mails are not in it. -/
def Identity.SharesEmail (a b : Identity Id) : Prop :=
  a.isDeleted = false ∧ b.isDeleted = false ∧ a.email ≠ "" ∧ a.email = b.email

instance (a b : Identity Id) : Decidable (a.SharesEmail b) :=
  inferInstanceAs (Decidable (_ ∧ _ ∧ _ ∧ _))

theorem Identity.SharesEmail.symm {a b : Identity Id} (h : a.SharesEmail b) : b.SharesEmail a :=
  ⟨h.2.1, h.1, h.2.2.2 ▸ h.2.2.1, h.2.2.2.symm⟩

@[ext] structure Identities (Id : Type) where
  rows : List (Identity Id)
  key : rows.Pairwise (·.id ≠ ·.id)
  unique : rows.Pairwise fun a b => ¬ a.SharesEmail b

inductive DbError where
  | uniqueViolation (constraint : String)
  | noRows
  deriving DecidableEq, Repr

variable [DecidableEq Id]

namespace Identities

def getIdentityByID (t : Identities Id) (id : Id) : Option (Identity Id) := t.rows.find? (·.id = id)

/- A row takes the place of the row of its id. -/
def put (rows : List (Identity Id)) (row : Identity Id) : List (Identity Id) :=
  if ∃ r ∈ rows, r.id = row.id then rows.map fun r => if r.id = row.id then row else r
  else rows ++ [row]

theorem pairwise_put {R : Identity Id → Identity Id → Prop} (hsymm : ∀ a b, R a b → R b a)
    {rows : List (Identity Id)} {row : Identity Id}
    (hkey : rows.Pairwise (·.id ≠ ·.id)) (hrows : rows.Pairwise R)
    (hrow : ∀ r ∈ rows, r.id ≠ row.id → R row r) : (put rows row).Pairwise R := by
  unfold put
  split
  · rw [pairwise_map]
    refine (hkey.and hrows).imp_of_mem fun {a b} ha hb hab => ?_
    by_cases hai : a.id = row.id
    · have hbi : b.id ≠ row.id := fun hbi => hab.1 (hai.trans hbi.symm)
      simpa [hai, hbi] using hrow b hb hbi
    · by_cases hbi : b.id = row.id
      · simpa [hai, hbi] using hsymm _ _ (hrow a ha hai)
      · simpa [hai, hbi] using hab.2
  · rename_i hnew
    rw [pairwise_append]
    refine ⟨hrows, pairwise_singleton _ _, fun a ha b hb => ?_⟩
    rw [mem_singleton.mp hb]
    exact hsymm _ _ (hrow a ha fun hai => hnew ⟨a, ha, hai⟩)

/-- A statement that writes one row, and no other constraint to violate than the e-mails'. -/
def write (t : Identities Id) (row : Identity Id) : Except DbError (Identities Id) :=
  if h : ∀ r ∈ t.rows, r.id ≠ row.id → ¬ row.SharesEmail r then
    .ok ⟨put t.rows row,
      pairwise_put (fun _ _ hne => hne.symm) t.key t.key fun _ _ hne => hne.symm,
      pairwise_put (fun _ _ hns hs => hns hs.symm) t.key t.unique h⟩
  else .error (.uniqueViolation "idx_identities_email_unique")

def upsertIdentity (t : Identities Id) (id : Id) (email : String) (emailVerified : Bool)
    (displayName : String) : Except DbError (Identities Id) :=
  match t.getIdentityByID id with
  | none => t.write ⟨id, email, emailVerified, displayName, "", false⟩
  | some row => t.write { row with
      email := if email ≠ "" then email else row.email
      displayName := if displayName ≠ "" then displayName else row.displayName
      isDeleted := false }

def softDeleteIdentity (t : Identities Id) (id : Id) : Except DbError (Identities Id) :=
  match t.getIdentityByID id with
  | none => .error .noRows
  | some row =>
    if row.isDeleted then .error .noRows
    else t.write { row with isDeleted := true, email := "", displayName := "", photoUrl := "" }

/-- Another live row has the e-mail. -/
def Owned (t : Identities Id) (id : Id) (email : String) : Prop :=
  email ≠ "" ∧ ∃ r ∈ t.rows, r.id ≠ id ∧ r.isDeleted = false ∧ r.email = email

section
variable {t : Identities Id} {row : Identity Id}

theorem getIdentityByID_eq_some_iff {id : Id} :
    t.getIdentityByID id = some row ↔ row ∈ t.rows ∧ row.id = id := by
  constructor
  · intro h
    exact ⟨mem_of_find?_eq_some h, by simpa using find?_some h⟩
  · rintro ⟨hmem, rfl⟩
    cases hfind : t.getIdentityByID row.id with
    | none => simpa using find?_eq_none.mp hfind row hmem
    | some row' =>
      have hid : row'.id = row.id := by simpa using find?_some hfind
      have hnodup : (t.rows.map (·.id)).Nodup := pairwise_map.mpr t.key
      rw [inj_on_of_nodup_map hnodup (mem_of_find?_eq_some hfind) hmem hid]

theorem eq_of_mem {row' : Identity Id} (hmem : row ∈ t.rows) (hmem' : row' ∈ t.rows)
    (hid : row'.id = row.id) : row' = row := by
  have hrow := getIdentityByID_eq_some_iff.mpr ⟨hmem, rfl⟩
  rw [getIdentityByID_eq_some_iff.mpr ⟨hmem', hid⟩] at hrow
  exact Option.some.inj hrow

theorem put_eq_self_iff : put t.rows row = t.rows ↔ row ∈ t.rows := by
  constructor
  · intro h
    rw [← h]
    unfold put
    split
    · rename_i hex
      obtain ⟨r, hr, hid⟩ := hex
      exact mem_map.mpr ⟨r, hr, by simp [hid]⟩
    · simp
  · intro hmem
    have hex : ∃ r ∈ t.rows, r.id = row.id := ⟨row, hmem, rfl⟩
    rw [put, if_pos hex, map_congr_left (g := id) ?_, map_id]
    intro r hr
    split
    · rename_i hid
      exact (eq_of_mem hmem hr hid).symm
    · rfl

theorem write_cases (t : Identities Id) (row : Identity Id) :
    (∃ t', t.write row = .ok t' ∧ t'.rows = put t.rows row ∧
      ∀ r ∈ t.rows, r.id ≠ row.id → ¬ row.SharesEmail r) ∨
    t.write row = .error (.uniqueViolation "idx_identities_email_unique") ∧
      row.isDeleted = false ∧ t.Owned row.id row.email := by
  unfold write
  split
  · rename_i h
    exact .inl ⟨_, rfl, rfl, h⟩
  · rename_i h
    simp only [not_forall, not_not] at h
    obtain ⟨r, hr, hid, hlive, hlive', hne, heq⟩ := h
    exact .inr ⟨rfl, hlive, hne, r, hr, hid, hlive', heq.symm⟩

theorem eq_self_iff {t' : Identities Id} (hrows : t'.rows = put t.rows row) :
    t' = t ↔ row ∈ t.rows := by
  rw [← put_eq_self_iff, ← hrows]
  exact Identities.ext_iff

theorem write_eq_self_iff (hlive : row.isDeleted = false) :
    (∀ t', t.write row = .ok t' → t' = t) ↔ row ∈ t.rows ∨ t.Owned row.id row.email := by
  rcases t.write_cases row with ⟨t', hok, hrows, hfree⟩ | ⟨herror, -, howned⟩
  · have hnot : ¬ t.Owned row.id row.email := by
      rintro ⟨hne, r, hr, hid, hlive', heq⟩
      exact hfree r hr hid ⟨hlive, hlive', hne, heq.symm⟩
    simp only [hok, Except.ok.injEq, forall_eq', hnot, or_false]
    exact eq_self_iff hrows
  · simp [herror, howned]

end

end Identities

end Pivox.IdentitySync
