import Pivox.Organizations.Members

/-!
The owners of an organization as the code's own queries count them, and what changes of its rows
leave of them.
-/

namespace Pivox.Organizations
open ReadCommitted

variable {db : Db store}

/-- The binding that the owner queries count. -/
def Counted (db : Db store) (orgId : Id) (p : Principal) : Prop :=
  ∃ m, orgMemberRow db orgId p = some m ∧ countsAsOwner db p m = true

def IsActive (db : Db store) (orgId : Id) : Prop :=
  ∃ o, db.lookup (Key.organization orgId) = some (.live o) ∧ o.state = .active

/-- Every ACTIVE organization has an owner, by the query that its members are guarded with. -/
def Owned (db : Db store) : Prop :=
  ∀ orgId, IsActive db orgId → 0 < answer (.countOwnersByOrg orgId) db

theorem orgMembers_nodup (db : Db store) : (orgMembers db).Nodup := by
  refine nodup_collected (fun r => ⟨.orgMember r.1 r.2.1, r.2.2⟩) fun e r h => ?_
  split at h <;> cases h
  rfl

theorem countOwners_pos {orgId : Id} {holds : Principal → Bool} :
    0 < countOwners db orgId holds ↔ ∃ p, holds p = true ∧ Counted db orgId p := by
  simp only [countOwners, List.countP_pos_iff, Bool.and_eq_true, decide_eq_true_eq]
  constructor
  · rintro ⟨⟨o, p, m⟩, hmem, ⟨rfl, hp⟩, hm⟩
    exact ⟨p, hp, m, mem_orgMembers.mp hmem, hm⟩
  · rintro ⟨p, hp, m, hrow, hm⟩
    exact ⟨⟨orgId, p, m⟩, mem_orgMembers.mpr hrow, ⟨rfl, hp⟩, hm⟩

theorem length_le_one {α : Type} {l : List α} (hl : l.Nodup) (h : ∀ a ∈ l, ∀ b ∈ l, a = b) :
    l.length ≤ 1 := by
  match l with
  | [] => exact Nat.zero_le 1
  | [_] => exact Nat.le_refl 1
  | a :: b :: rest =>
    have heq : a = b := h a (by simp) b (by simp)
    simp [heq] at hl

/- The bindings of one principal are one. -/
theorem countOwners_le_one {orgId : Id} {holds : Principal → Bool} (p : Principal)
    (h : ∀ q, holds q = true → Counted db orgId q → q = p) : countOwners db orgId holds ≤ 1 := by
  rw [countOwners, List.countP_eq_length_filter]
  refine length_le_one ((orgMembers_nodup db).filter _) ?_
  rintro ⟨o, q, m⟩ hr ⟨o', q', m'⟩ hr'
  simp only [List.mem_filter, Bool.and_eq_true, decide_eq_true_eq] at hr hr'
  obtain ⟨hmem, ⟨rfl, hq⟩, hm⟩ := hr
  obtain ⟨hmem', ⟨rfl, hq'⟩, hm'⟩ := hr'
  obtain rfl := h q hq ⟨m, mem_orgMembers.mp hmem, hm⟩
  obtain rfl := h q' hq' ⟨m', mem_orgMembers.mp hmem', hm'⟩
  rw [mem_orgMembers] at hmem hmem'
  rw [hmem, Option.some.injEq] at hmem'
  rw [hmem']

/- Who counts depends on the binding, its role, and the group that it binds. -/
theorem Counted.congr {db' : Db store} {orgId : Id} {p : Principal} {m : Member}
    (hm : orgMemberRow db orgId p = some m) (hcounts : countsAsOwner db p m = true)
    (hm' : orgMemberRow db' orgId p = orgMemberRow db orgId p)
    (hrole : roleRow db' m.roleId = roleRow db m.roleId)
    (hgroup : ∀ g, p = .group g → groupRow db' g = groupRow db g) : Counted db' orgId p := by
  refine ⟨m, hm'.trans hm, ?_⟩
  cases p with
  | user _ => simpa only [countsAsOwner, isOwnerRole, hrole] using hcounts
  | group g => simpa only [countsAsOwner, isOwnerRole, isActiveGroup, hrole, hgroup g rfl] using hcounts

theorem owned_iff : Owned db ↔ ∀ orgId, IsActive db orgId → ∃ p, Counted db orgId p := by
  simp only [Owned, answer, countOwners_pos, true_and]

/-! What the guards of the code are for -/

/-- Of two counted owners one is another. -/
theorem other_of_count {orgId : Id} (h : 2 ≤ countOwners db orgId fun _ => true) (p : Principal) :
    ∃ q, q ≠ p ∧ Counted db orgId q := by
  by_contra hnone
  have hle : countOwners db orgId (fun _ => true) ≤ 1 := by
    refine countOwners_le_one p fun q _ hq => ?_
    by_contra hne
    exact hnone ⟨q, hne, hq⟩
  omega

theorem other_of_excluding {orgId userId : Id}
    (h : countOwners db orgId (· ≠ .user userId) ≠ 0) :
    ∃ q, q ≠ .user userId ∧ Counted db orgId q := by
  obtain ⟨q, hq, hcounted⟩ := countOwners_pos.mp (Nat.pos_of_ne_zero h)
  exact ⟨q, by simpa using hq, hcounted⟩

/-- An owner who is not listed as sole owner is not the only one. -/
theorem other_of_not_sole {orgId userId : Id} (h : isSoleOwner db userId orgId = false)
    {p : Principal} (hp : Counted db orgId p) : ∃ q, q ≠ .user userId ∧ Counted db orgId q := by
  by_contra hnone
  have honly : ∀ q, Counted db orgId q → q = .user userId := by
    intro q hq
    by_contra hne
    exact hnone ⟨q, hne, hq⟩
  obtain rfl := honly p hp
  have husers : countOwners db orgId Principal.isUser = 1 := by
    have hpos : 0 < countOwners db orgId Principal.isUser :=
      countOwners_pos.mpr ⟨.user userId, rfl, hp⟩
    have hle : countOwners db orgId Principal.isUser ≤ 1 :=
      countOwners_le_one _ fun q _ hq => honly q hq
    omega
  have hself : countOwners db orgId (· = .user userId) = 1 := by
    have hpos : 0 < countOwners db orgId (· = .user userId) :=
      countOwners_pos.mpr ⟨.user userId, by simp, hp⟩
    have hle : countOwners db orgId (· = .user userId) ≤ 1 :=
      countOwners_le_one _ fun q _ hq => honly q hq
    omega
  have hgroups : countOwners db orgId (fun p => !p.isUser) = 0 := by
    by_contra hne
    obtain ⟨q, hq, hcounted⟩ := countOwners_pos.mp (Nat.pos_of_ne_zero hne)
    rw [honly q hcounted] at hq
    cases hq
  simp [isSoleOwner, husers, hself, hgroups] at h

/- An ACTIVE organization has no delete_time, so the sole-owner query looks at it. -/
theorem not_sole_of_active {orgId userId : Id}
    (h : answer (.listSoleOwnerOrgsForIdentity userId) db = []) (hactive : IsActive db orgId) :
    isSoleOwner db userId orgId = false := by
  obtain ⟨o, ho, hstate⟩ := hactive
  rw [answer, List.map_eq_nil_iff, List.filter_eq_nil_iff] at h
  have hnot := h (orgId, o) (mem_organizations.mpr ho)
  simpa [o.active hstate] using hnot

/-- A binding with another role name is not counted. -/
theorem not_counted_of_role {orgId : Id} {p : Principal}
    (h : ∀ m name, memberWithRole db orgId p = some (m, name) → name ≠ roleOwner) :
    ¬ Counted db orgId p := by
  rintro ⟨m, hm, hcounts⟩
  simp only [countsAsOwner, isOwnerRole, Bool.and_eq_true] at hcounts
  cases hr : roleRow db m.roleId with
  | none => simp [hr] at hcounts
  | some r =>
    simp only [hr, Bool.and_eq_true, decide_eq_true_eq] at hcounts
    exact h m r.name (by simp [memberWithRole, hm, hr]) hcounts.1.2

end Pivox.Organizations
