import Pivox.Organizations.Owners
import Pivox.ReadCommitted.Outline

/-!
The last-owner contract: the guards that the operations on members read, what the commits of the
others may not undo, and which writes keep every ACTIVE organization owned.
-/

namespace Pivox.Organizations
open ReadCommitted

inductive MemberOp where
  | createMember (orgId caller : Id) (req : MemberRequest)
  | updateMember (orgId : Id) (req : MemberRequest)
  | deleteMember (orgId : Id) (req : Option Principal)
  | transferOwnership (req : Option (String × Id))
  | deleteUser (orgId : Id) (req : Option Id)
  | deleteAccount (args : DeleteAccountArgs)
  | deleteOrg (args : DeleteOrgArgs)
  | undeleteOrg (args : UndeleteOrgArgs)

def memberCode : MemberOp → Prog store
  | .createMember orgId caller req => (createMember orgId caller req).run
  | .updateMember orgId req => (updateMember orgId req).run
  | .deleteMember orgId req => (deleteMember orgId req).run
  | .transferOwnership req => (transferOwnership req).run
  | .deleteUser orgId req => (deleteUser orgId req).run
  | .deleteAccount args => (deleteAccount args).run
  | .deleteOrg args => (deleteOrg args).run
  | .undeleteOrg args => (undeleteOrg args).run

/- The queries by which an operation makes sure that an owner is left when it is done. -/
def guards : MemberOp → Query → Bool
  | .updateMember _ (some (_, slug)), .countOwnersByOrg _ => slug ≠ roleOwner
  | .updateMember _ (some (_, slug)), .getOrgMember _ _ => slug ≠ roleOwner
  | .deleteMember _ _, .countOwnersByOrg _ => true
  | .deleteMember _ _, .getOrgMember _ _ => true
  | .deleteUser _ _, .countOrgOwnersExcludingUser _ _ => true
  | .deleteAccount _, .listSoleOwnerOrgsForIdentity _ => true
  | _, _ => false

/- The answers with which the code goes on to the removal. -/
def passes (db : Db store) : Query → Bool
  | .countOwnersByOrg orgId => 2 ≤ countOwners db orgId fun _ => true
  | .getOrgMember orgId p => (memberWithRole db orgId p).all fun r => r.2 ≠ roleOwner
  | .countOrgOwnersExcludingUser orgId userId =>
    0 < countOwners db orgId (· ≠ .user userId)
  | .listSoleOwnerOrgsForIdentity identityId =>
    (answer (.listSoleOwnerOrgsForIdentity identityId) db).isEmpty
  | _ => true

/- A guard that the session has read and that passes before a step does so after it. -/
def GuardsPass (log : Log store MemberOp) (db db' : Db store) : Prop :=
  ∀ q a, (.read q a : Event store) ∈ log.events → guards log.op q = true → passes db q = true →
    passes db' q = true

def isActive (db : Db store) (orgId : Id) : Bool :=
  (organizations db).any fun r => r.1 = orgId && r.2.state = .active

def roleOf (db : Db store) (roleId orgId : Id) : Bool :=
  (roleRow db roleId).any fun r => r.orgId = orgId

def groupOf (db : Db store) (p : Principal) (orgId : Id) : Bool :=
  match p with
  | .user _ => false
  | .group g => (groupRow db g).any fun r => r.orgId = orgId

/- An owner that does not go when the other organization is purged with its roles and groups. -/
def ownedApart (db : Db store) (orgId purged : Id) : Bool :=
  (orgMembers db).any fun r => r.1 = orgId && countsAsOwner db r.2.1 r.2.2 &&
    !roleOf db r.2.2.roleId purged && !groupOf db r.2.1 purged

/- A commit restores only organizations that have an owner, and purges one only when the ACTIVE
   others have owners apart from it. -/
def fits (db db' : Db store) : Bool :=
  ((organizations db').all fun r => r.2.state ≠ .active || isActive db r.1 ||
    0 < countOwners db r.1 fun _ => true) &&
  (organizations db).all fun r => db'.lookup (Key.organization r.1) ≠ some .gone ||
    (organizations db).all fun o => o.1 = r.1 || o.2.state ≠ .active || ownedApart db o.1 r.1

theorem isActive_eq_true {db : Db store} {orgId : Id} :
    isActive db orgId = true ↔ IsActive db orgId := by
  simp only [isActive, List.any_eq_true, Bool.and_eq_true, decide_eq_true_eq]
  constructor
  · rintro ⟨⟨id, o⟩, hmem, rfl, hstate⟩
    exact ⟨o, mem_organizations.mp hmem, hstate⟩
  · rintro ⟨o, ho, hstate⟩
    exact ⟨⟨orgId, o⟩, mem_organizations.mpr ho, rfl, hstate⟩

theorem counted_of_fits {db db' : Db store} (h : fits db db' = true) (hdb : Owned db) {orgId : Id}
    (hactive : IsActive db' orgId) : ∃ p, Counted db orgId p := by
  obtain ⟨o, ho, hstate⟩ := hactive
  simp only [fits, Bool.and_eq_true, List.all_eq_true] at h
  have hrow := h.1 (orgId, o) (mem_organizations.mpr ho)
  simp only [hstate, ne_eq, not_true_eq_false, decide_false, Bool.false_or, Bool.or_eq_true,
    decide_eq_true_eq, isActive_eq_true] at hrow
  obtain hbefore | hpos := hrow
  · exact owned_iff.mp hdb orgId hbefore
  · obtain ⟨p, -, hp⟩ := countOwners_pos.mp hpos
    exact ⟨p, hp⟩

theorem apart_of_fits {db db' : Db store} (h : fits db db' = true) {purged orgId : Id}
    {o : Organization} (hlive : db.lookup (Key.organization purged) = some (.live o))
    (hgone : db'.lookup (Key.organization purged) = some .gone) (hne : orgId ≠ purged)
    (hactive : IsActive db orgId) :
    ∃ p m, orgMemberRow db orgId p = some m ∧ countsAsOwner db p m = true ∧
      roleOf db m.roleId purged = false ∧ groupOf db p purged = false := by
  obtain ⟨o', ho', hstate⟩ := hactive
  simp only [fits, Bool.and_eq_true, List.all_eq_true] at h
  have hrow := h.2 (purged, o) (mem_organizations.mpr hlive)
  simp only [hgone, ne_eq, not_true_eq_false, decide_false, Bool.false_or, List.all_eq_true] at hrow
  have hapart := hrow (orgId, o') (mem_organizations.mpr ho')
  simp only [hne, hstate, decide_false, not_true_eq_false, Bool.false_or, ownedApart,
    List.any_eq_true, Bool.and_eq_true, decide_eq_true_eq, Bool.not_eq_true'] at hapart
  obtain ⟨⟨o'', p, m⟩, hmem, ⟨⟨rfl, hcounts⟩, hrole⟩, hgroup⟩ := hapart
  exact ⟨p, m, mem_orgMembers.mp hmem, hcounts, hrole, hgroup⟩

def GoneKept (db db' : Db store) : Prop :=
  ∀ orgId, db.lookup (Key.organization orgId) = some .gone →
    db'.lookup (Key.organization orgId) = some .gone

/- A role goes only with its organization. -/
def RolesKept (db db' : Db store) : Prop :=
  ∀ id r, roleRow db id = some r → roleRow db' id = some r ∨
    db'.lookup (Key.organization r.orgId) = some .gone

structure Guarded (db db' : Db store) : Prop where
  owned : Owned db'
  gone : GoneKept db db'
  roles : RolesKept db db'

structure Relied (log : Log store MemberOp) (db db' : Db store) : Prop where
  guards : GuardsPass log db db'
  gone : GoneKept db db'
  roles : RolesKept db db'

theorem Relied.trans {log : Log store MemberOp} {a b c : Db store} (h : Relied log a b)
    (h' : Relied log b c) : Relied log a c where
  guards q a hq hg hp := h'.guards q a hq hg (h.guards q a hq hg hp)
  gone orgId ho := h'.gone orgId (h.gone orgId ho)
  roles id r hr := by
    obtain hb | hb := h.roles id r hr
    · exact h'.roles id r hb
    · exact .inr (h'.gone _ hb)

def ownerContract : Contract store MemberOp where
  Inv := Owned
  rely := Relied
  guar _ := Guarded
  allow _ _ _ := True
  accept _ _ _ := True
  fit _ db db' := fits db db' = true
  spared := GuardsPass
  rely_refl _ _ := ⟨fun _ _ _ _ h => h, fun _ h => h, fun _ _ h => .inl h⟩
  rely_trans _ _ _ _ h h' := h.trans h'
  rely_mono _ _ _ _ h := ⟨fun q a hq => h.guards q a (.tail _ hq), h.gone, h.roles⟩
  inv_guar _ _ _ _ h := h.owned
  rely_guar _ _ _ _ _ h hs := ⟨hs, h.gone, h.roles⟩

/-! What a transaction has written -/

/- The rows that the owner queries do not look at. -/
def neutral : Key → Bool
  | .organization _ | .role _ | .group _ | .orgMember _ _ => false
  | _ => true

theorem ne_of_neutral {k k' : Key} (hk : neutral k = true) (hk' : neutral k' = false) : k' ≠ k := by
  rintro rfl
  simp [hk] at hk'

/- Of the rows that matter only bindings are written, as `f` says of the old and the new row. -/
structure MemberWrites (f : Id → Principal → Option Member → Prop) (own : Pending store) : Prop where
  organization : ∀ id, own.lookup (Key.organization id) = none
  role : ∀ id, own.lookup (Key.role id) = none
  group : ∀ id, own.lookup (Key.group id) = none
  member : ∀ orgId p r, own.lookup (Key.orgMember orgId p) = some r → f orgId p r

variable {f : Id → Principal → Option Member → Prop} {own : Pending store} {db : Db store}

theorem memberWrites_empty : MemberWrites f ∅ :=
  ⟨fun _ => rfl, fun _ => rfl, fun _ => rfl, fun _ _ _ h => by simp at h⟩

theorem MemberWrites.neutral (h : MemberWrites f own) {k : Key} (hk : neutral k = true)
    (r : Option (Row k)) : MemberWrites f (own.insert k r) where
  organization id := (AList.lookup_insert_ne (ne_of_neutral hk rfl)).trans (h.organization id)
  role id := (AList.lookup_insert_ne (ne_of_neutral hk rfl)).trans (h.role id)
  group id := (AList.lookup_insert_ne (ne_of_neutral hk rfl)).trans (h.group id)
  member orgId p r hr := h.member orgId p r
    ((AList.lookup_insert_ne (ne_of_neutral hk rfl)).symm.trans hr)

theorem MemberWrites.insert (h : MemberWrites f own) {orgId : Id} {p : Principal}
    {r : Option Member} (hr : f orgId p r) :
    MemberWrites f (own.insert (Key.orgMember orgId p) r) where
  organization id := (AList.lookup_insert_ne
    (show Key.organization id ≠ Key.orgMember orgId p from nofun)).trans (h.organization id)
  role id := (AList.lookup_insert_ne
    (show Key.role id ≠ Key.orgMember orgId p from nofun)).trans (h.role id)
  group id := (AList.lookup_insert_ne
    (show Key.group id ≠ Key.orgMember orgId p from nofun)).trans (h.group id)
  member orgId' p' r' hr' := by
    by_cases heq : Key.orgMember orgId' p' = Key.orgMember orgId p
    · cases heq
      rw [AList.lookup_insert, Option.some.injEq] at hr'
      exact hr' ▸ hr
    · rw [AList.lookup_insert_ne heq] at hr'
      exact h.member orgId' p' r' hr'

namespace MemberWrites
variable (h : MemberWrites f own)
include h

theorem organization_eq (orgId : Id) : (overlay own db).lookup (Key.organization orgId) =
    db.lookup (Key.organization orgId) :=
  @lookup_overlay_of_none store own db (.organization orgId) (h.organization orgId)

theorem roleRow_eq (id : Id) : roleRow (overlay own db) id = roleRow db id :=
  @lookup_overlay_of_none store own db (.role id) (h.role id)

theorem groupRow_eq (id : Id) : groupRow (overlay own db) id = groupRow db id :=
  @lookup_overlay_of_none store own db (.group id) (h.group id)

theorem isActive_iff {orgId : Id} : IsActive (overlay own db) orgId ↔ IsActive db orgId := by
  rw [IsActive, IsActive, h.organization_eq]

theorem countsAsOwner_eq (p : Principal) (m : Member) :
    countsAsOwner (overlay own db) p m = countsAsOwner db p m := by
  simp only [countsAsOwner, isOwnerRole, isActiveGroup, h.roleRow_eq, h.groupRow_eq]

theorem counted_of_unwritten {orgId : Id} {p : Principal}
    (hown : own.lookup (Key.orgMember orgId p) = none) (hp : Counted db orgId p) :
    Counted (overlay own db) orgId p := by
  obtain ⟨m, hm, hcounts⟩ := hp
  refine ⟨m, ?_, (h.countsAsOwner_eq p m).trans hcounts⟩
  exact (@lookup_overlay_of_none store own db (.orgMember orgId p) hown).trans hm

theorem counted_of_written {orgId : Id} {p : Principal} {m : Member}
    (hown : own.lookup (Key.orgMember orgId p) = some (some m))
    (hcounts : countsAsOwner db p m = true) : Counted (overlay own db) orgId p :=
  ⟨m, @lookup_overlay_of_some store own db (.orgMember orgId p) _ hown,
    (h.countsAsOwner_eq p m).trans hcounts⟩

/-- Bindings that are written leave the organizations owned when each ACTIVE organization that has a
counted one written has an owner left. -/
theorem guarded (hdb : Owned db)
    (hleft : ∀ orgId p r, IsActive db orgId → own.lookup (Key.orgMember orgId p) = some r →
      f orgId p r → Counted db orgId p → ∃ q, Counted (overlay own db) orgId q) :
    Guarded db (overlay own db) where
  owned := by
    refine owned_iff.mpr fun orgId hactive => ?_
    rw [h.isActive_iff] at hactive
    obtain ⟨q, hq⟩ := owned_iff.mp hdb orgId hactive
    cases hown : own.lookup (Key.orgMember orgId q) with
    | none => exact ⟨q, h.counted_of_unwritten hown hq⟩
    | some r => exact hleft orgId q r hactive hown (h.member orgId q r hown) hq
  gone orgId ho := (h.organization_eq orgId).trans ho
  roles id _ hr := .inl ((h.roleRow_eq id).trans hr)

/-- The removal of one principal's bindings, when others are counted beside it. -/
theorem guarded_of_other (hdb : Owned db) {p : Principal} (hf : ∀ o q r, f o q r → q = p)
    (hother : ∀ orgId r, f orgId p r → IsActive db orgId → Counted db orgId p →
      ∃ q, q ≠ p ∧ Counted db orgId q) : Guarded db (overlay own db) := by
  refine h.guarded hdb fun orgId q r hactive _ hfq hq => ?_
  obtain rfl := hf orgId q r hfq
  obtain ⟨q', hne, hq'⟩ := hother orgId r hfq hactive hq
  refine ⟨q', h.counted_of_unwritten ?_ hq'⟩
  cases hown : own.lookup (Key.orgMember orgId q') with
  | none => rfl
  | some r' => exact absurd (hf orgId q' r' (h.member orgId q' r' hown)) hne

end MemberWrites

end Pivox.Organizations
