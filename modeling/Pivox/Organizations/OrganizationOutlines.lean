import Pivox.Organizations.MemberOutlines

/-!
Outlines of DeleteOrganization and UndeleteOrganization. Their COMMIT changes the state of one
organization, or purges it with its roles, its groups and the bindings that refer to either.
-/

namespace Pivox.Organizations
open ReadCommitted

variable {α : Type} {own : Pending store} {db : Db store}

/- The organization is marked as purged by this transaction. -/
abbrev Purges (own : Pending store) (orgId : Id) : Prop :=
  own.lookup (Key.organization orgId) = some (some .gone)

/- Of the rows that matter only those of one organization are written, and other than its own row
   only once that is purged. -/
def OrgWrite (orgId : Id) (own : Pending store) (db : Db store) : (k : Key) → Option (Row k) → Prop
  | .organization id, r => id = orgId ∧ r ≠ none ∧
    ∃ o, db.lookup (Key.organization id) = some (.live o)
  | .role id, r => r = none ∧ Purges own orgId ∧ ∃ x, roleRow db id = some x ∧ x.orgId = orgId
  | .group id, r => r = none ∧ Purges own orgId ∧ ∃ g, groupRow db id = some g ∧ g.orgId = orgId
  | .orgMember o p, _ => Purges own orgId ∧
    (o = orgId ∨ ∃ g, p = .group g ∧ own.lookup (Key.group g) = some none)
  | _, _ => True

def OrgWrites (orgId : Id) (own : Pending store) (db : Db store) : Prop :=
  ∀ k r, own.lookup k = some r → OrgWrite orgId own db k r

theorem orgWrites_empty (orgId : Id) (db : Db store) : OrgWrites orgId ∅ db :=
  fun _ _ h => by simp at h

theorem orgWrite_of_neutral {orgId : Id} {k : Key} (hk : neutral k = true) (r : Option (Row k)) :
    OrgWrite orgId own db k r := by
  cases k <;> trivial

theorem OrgWrites.insert {orgId : Id} (h : OrgWrites orgId own db) {k : Key} {r : Option (Row k)}
    (hnew : OrgWrite orgId own db k r)
    (hpurges : Purges own orgId → Purges (own.insert k r) orgId)
    (hgroups : ∀ g, own.lookup (Key.group g) = some none →
      (own.insert k r).lookup (Key.group g) = some none) : OrgWrites orgId (own.insert k r) db := by
  have hmono : ∀ k' r', OrgWrite orgId own db k' r' → OrgWrite orgId (own.insert k r) db k' r' := by
    intro k' r' hw
    cases k' with
    | organization id => exact hw
    | role id => exact ⟨hw.1, hpurges hw.2.1, hw.2.2⟩
    | group id => exact ⟨hw.1, hpurges hw.2.1, hw.2.2⟩
    | orgMember o p =>
      exact ⟨hpurges hw.1, hw.2.imp id fun ⟨g, hp, hgone⟩ => ⟨g, hp, hgroups g hgone⟩⟩
    | _ => trivial
  intro k' r' hr
  refine hmono k' r' ?_
  by_cases heq : k' = k
  · subst heq
    rw [AList.lookup_insert, Option.some.injEq] at hr
    exact hr ▸ hnew
  · rw [AList.lookup_insert_ne heq] at hr
    exact h k' r' hr

/-- A COMMIT that fits leaves the organizations guarded, whatever it did to this one. -/
theorem OrgWrites.guarded {orgId : Id} (h : OrgWrites orgId own db) (hdb : Owned db)
    (hfits : fits db (overlay own db) = true) : Guarded db (overlay own db) := by
  have hkeep : ∀ k, own.lookup k = none → (overlay own db).lookup k = db.lookup k :=
    fun k hk => @lookup_overlay_of_none store own db k hk
  refine ⟨owned_iff.mpr fun id hactive => ?_, fun id hgone => ?_, fun id r hr => ?_⟩
  · by_cases hpurges : Purges own orgId
    · have hgone : (overlay own db).lookup (Key.organization orgId) = some .gone :=
        @lookup_overlay_of_some store own db (.organization orgId) _ hpurges
      have hne : id ≠ orgId := by
        rintro rfl
        obtain ⟨o, ho, -⟩ := hactive
        cases hgone.symm.trans ho
      have hbefore : IsActive db id := by
        cases hown : own.lookup (Key.organization id) with
        | none => exact hactive.imp fun o ho => ⟨(hkeep _ hown).symm.trans ho.1, ho.2⟩
        | some r => exact absurd (h _ r hown).1 hne
      obtain ⟨-, -, o, hlive⟩ := h _ _ hpurges
      obtain ⟨p, m, hm, hcounts, hrole, hgroup⟩ := apart_of_fits hfits hlive hgone hne hbefore
      have hapart : ∀ g, p = .group g → own.lookup (Key.group g) = none := by
        rintro g rfl
        cases hown : own.lookup (Key.group g) with
        | none => rfl
        | some r =>
          obtain ⟨-, -, g', hg', horg⟩ := h _ r hown
          simp [groupOf, hg', horg] at hgroup
      refine ⟨p, .congr hm hcounts (hkeep _ ?_) (hkeep _ ?_) fun g hp => hkeep _ (hapart g hp)⟩
      · cases hown : own.lookup (Key.orgMember id p) with
        | none => rfl
        | some r =>
          obtain ⟨-, rfl | ⟨g, hp, hg⟩⟩ := h _ r hown
          · exact absurd rfl hne
          · cases (hapart g hp).symm.trans hg
      · cases hown : own.lookup (Key.role m.roleId) with
        | none => rfl
        | some r =>
          obtain ⟨-, -, x, hx, horg⟩ := h _ r hown
          simp [roleOf, hx, horg] at hrole
    · obtain ⟨p, m, hm, hcounts⟩ := counted_of_fits hfits hdb hactive
      refine ⟨p, .congr hm hcounts (hkeep _ ?_) (hkeep _ ?_) fun g _ => hkeep _ ?_⟩
      · cases hown : own.lookup (Key.orgMember id p) with
        | none => rfl
        | some r => exact absurd (h _ r hown).1 hpurges
      · cases hown : own.lookup (Key.role m.roleId) with
        | none => rfl
        | some r => exact absurd (h _ r hown).2.1 hpurges
      · cases hown : own.lookup (Key.group g) with
        | none => rfl
        | some r => exact absurd (h _ r hown).2.1 hpurges
  · cases hown : own.lookup (Key.organization id) with
    | none => exact (hkeep _ hown).trans hgone
    | some r =>
      obtain ⟨-, -, o, hlive⟩ := h _ r hown
      cases hgone.symm.trans hlive
  · cases hown : own.lookup (Key.role id) with
    | none => exact .inl ((hkeep _ hown).trans hr)
    | some r' =>
      obtain ⟨-, hpurges, x, hx, rfl⟩ := h _ r' hown
      obtain rfl := Option.some.inj (hx.symm.trans hr)
      exact .inr (@lookup_overlay_of_some store own db (.organization x.orgId) _ hpurges)

def orgWrote (orgId : Id) : Assertion ownerContract where
  holds own _ db := OrgWrites orgId own db
  later own _ db db' h hl := by
    intro k r hr
    have hkept : db'.lookup k = db.lookup k := by
      refine hl.own k ?_
      rw [← AList.lookup_isSome, hr]
      rfl
    have hw := h k r hr
    cases k with
    | organization id => exact ⟨hw.1, hw.2.1, hw.2.2.imp fun o ho => hkept.trans ho⟩
    | role id => exact ⟨hw.1, hw.2.1, hw.2.2.imp fun x hx => ⟨hkept.trans hx.1, hx.2⟩⟩
    | group id => exact ⟨hw.1, hw.2.1, hw.2.2.imp fun g hg => ⟨hkept.trans hg.1, hg.2⟩⟩
    | orgMember o p => exact hw
    | _ => trivial
  add _ _ _ _ h := h

theorem blind_orgWrote (orgId : Id) : Blind (orgWrote orgId) :=
  fun _ _ _ _ r hk h => h.insert (orgWrite_of_neutral hk r)
    (fun hp => (AList.lookup_insert_ne (ne_of_neutral hk rfl)).trans hp)
    fun _ hg => (AList.lookup_insert_ne (ne_of_neutral hk rfl)).trans hg

/- What a transaction of the organization knows once it has purged it. -/
def purged (orgId : Id) : Assertion ownerContract :=
  ⟨fun own _ _ => Purges own orgId, fun _ _ _ _ h _ => h, fun _ _ _ _ h => h⟩

theorem blind_purged (orgId : Id) : Blind (purged orgId) :=
  fun _ _ _ _ _ hk h => (AList.lookup_insert_ne (ne_of_neutral hk rfl)).trans h

def groupGone (g : Id) : Assertion ownerContract :=
  ⟨fun own _ _ => own.lookup (Key.group g) = some none, fun _ _ _ _ h _ => h, fun _ _ _ _ h => h⟩

theorem blind_groupGone (g : Id) : Blind (groupGone g) :=
  fun _ _ _ _ _ hk h => (AList.lookup_insert_ne (ne_of_neutral hk rfl)).trans h

/-! The cascade -/

/- The organization is purged, and its rows are being removed. -/
def cascading (orgId : Id) : Assertion ownerContract := (orgWrote orgId).and (purged orgId)

theorem blind_cascading (orgId : Id) : Blind (cascading orgId) :=
  (blind_orgWrote orgId).and (blind_purged orgId)

theorem execOrganization_cases {stmt : OrganizationStmt} {cur : Option (Slot Organization)}
    {new : Option (Slot Organization)} (h : execOrganization stmt cur = some new) :
    ∃ o r, cur = some (.live o) ∧ new = some r := by
  obtain _ | o | _ := cur
  · cases stmt <;> cases h
  · cases stmt <;> simp only [execOrganization] at h <;> split at h <;> cases h <;>
      exact ⟨o, _, rfl, rfl⟩
  · cases stmt <;> cases h

theorem hits_organization (orgId : Id) (stmt : OrganizationStmt) :
    @Outline.Hits store MemberOp ownerContract (orgWrote orgId) .top (.organization orgId) stmt
      fun _ => .top := by
  intro own log db new _ hown _ hx
  refine ⟨?_, trivial⟩
  obtain ⟨o, r, hcur, rfl⟩ := execOrganization_cases hx
  have hpurges : ¬ Purges own orgId := by
    intro hpurges
    rw [@lookup_overlay_of_some store own db (.organization orgId) _ hpurges] at hcur
    cases hcur
  refine OrgWrites.insert hown (k := .organization orgId) ⟨rfl, by simp, ?_⟩
    (fun hp => absurd hp hpurges) fun _ hg => (AList.lookup_insert_ne (by simp)).trans hg
  cases hlook : own.lookup (Key.organization orgId) with
  | some r' => exact (hown _ r' hlook).2.2
  | none =>
    exact ⟨o, (@lookup_overlay_of_none store own db (.organization orgId) hlook).symm.trans hcur⟩

theorem cascading_member {orgId o : Id} {p : Principal} {own : Pending store}
    {log : Log store MemberOp} {db : Db store} (h : (cascading orgId).holds own log db)
    (hp : o = orgId ∨ ∃ g, p = .group g ∧ own.lookup (Key.group g) = some none)
    (r : Option Member) : (cascading orgId).holds (own.insert (Key.orgMember o p) r) log db := by
  have hpurges : Purges (own.insert (Key.orgMember o p) r) orgId :=
    (AList.lookup_insert_ne (by simp)).trans h.2
  exact ⟨OrgWrites.insert h.1 (k := .orgMember o p) ⟨h.2, hp⟩ (fun _ => hpurges)
    fun _ hg => (AList.lookup_insert_ne (by simp)).trans hg, hpurges⟩

theorem hits_role (orgId id : Id) :
    @Outline.Hits store MemberOp ownerContract (cascading orgId) .top (.role id) (.cascade orgId)
      fun _ => .top := by
  intro own log db new _ h _ hx
  refine ⟨?_, trivial⟩
  cases hcur : (overlay own db).lookup (Key.role id) with
  | none => simp [hcur, execRole] at hx
  | some x =>
    simp only [hcur, execRole, Option.ite_none_right_eq_some, Option.some.injEq] at hx
    obtain ⟨horg, rfl⟩ := hx
    have hpurges : Purges (own.insert (Key.role id) none) orgId :=
      (AList.lookup_insert_ne (by simp)).trans h.2
    refine ⟨OrgWrites.insert h.1 (k := .role id) ⟨rfl, h.2, x, ?_, horg⟩ (fun _ => hpurges)
      fun _ hg => (AList.lookup_insert_ne (by simp)).trans hg, hpurges⟩
    cases hlook : own.lookup (Key.role id) with
    | none => exact (@lookup_overlay_of_none store own db (.role id) hlook).symm.trans hcur
    | some r =>
      rw [@lookup_overlay_of_some store own db (.role id) _ hlook, (h.1 _ r hlook).1] at hcur
      cases hcur

theorem hits_group (orgId id : Id) :
    @Outline.Hits store MemberOp ownerContract (cascading orgId) .top (.group id) (.cascade orgId)
      fun _ => groupGone id := by
  intro own log db new _ h _ hx
  cases hcur : (overlay own db).lookup (Key.group id) with
  | none => simp [hcur, execGroup] at hx
  | some g =>
    simp only [hcur, execGroup, Option.ite_none_right_eq_some, Option.some.injEq] at hx
    obtain ⟨horg, rfl⟩ := hx
    have hpurges : Purges (own.insert (Key.group id) none) orgId :=
      (AList.lookup_insert_ne (by simp)).trans h.2
    refine ⟨⟨OrgWrites.insert h.1 (k := .group id) ⟨rfl, h.2, g, ?_, horg⟩ (fun _ => hpurges)
      fun g' hg => ?_, hpurges⟩, AList.lookup_insert own⟩
    · cases hlook : own.lookup (Key.group id) with
      | none => exact (@lookup_overlay_of_none store own db (.group id) hlook).symm.trans hcur
      | some r =>
        rw [@lookup_overlay_of_some store own db (.group id) _ hlook, (h.1 _ r hlook).1] at hcur
        cases hcur
    · by_cases heq : Key.group g' = Key.group id
      · cases heq
        exact AList.lookup_insert own
      · exact (AList.lookup_insert_ne heq).trans hg

theorem aside_cascadeFrom {k : Key} (hk : neutral k = true) (stmt : Stmt k) {next : Service Unit}
    (hnext : Aside next) : Aside (cascadeFrom k stmt next) := by
  refine (aside_writeRow hk _ stmt).attempt.bind fun r => ?_
  split
  · exact hnext
  · exact aside_pure ()
  · exact aside_throw _

theorem aside_purgeSpaceOf (orgId id : Id) : Aside (purgeSpaceOf orgId id) :=
  aside_cascadeFrom rfl _ ((aside_deleteSpaceMembersWhere _).bind fun _ => (aside_query _).bind
    fun _ => aside_execAll (fun _ => rfl) _ _)

theorem outline_groupCascade (orgId id : Id) :
    Outline (cascading orgId) (groupGone id) (groupCascade id) fun _ => .top := by
  have haside : ∀ {m : Service Unit}, Aside m →
      Outline (cascading orgId) (groupGone id) m fun _ => groupGone id :=
    fun hm => hm.frame ((blind_cascading _).and (blind_groupGone _))
  refine (haside (aside_deleteGroupMembersWhere _)).bind fun _ => ?_
  refine (outline_deleteOrgMembersWhere fun o p own log db hp h hg => ?_).bind fun _ =>
    (haside (aside_deleteSpaceMembersWhere _)).conseq (fun _ _ _ _ _ h => h)
      fun _ _ _ _ _ _ _ => trivial
  exact ⟨cascading_member h (.inr ⟨id, of_decide_eq_true hp, hg⟩) none,
    (AList.lookup_insert_ne (by simp)).trans hg⟩

theorem outline_purgeGroupOf (orgId id : Id) :
    Outline (cascading orgId) .top (purgeGroupOf orgId id) fun _ => .top := by
  have hwrite : Outline (cascading orgId) .top (writeRow .noRows (.group id) (.cascade orgId))
      fun _ => groupGone id :=
    @Outline.write store MemberOp Err ownerContract (cascading orgId) .top .database .noRows
      (.group id) (.cascade orgId) _ (hits_group orgId id)
  refine hwrite.attempt.bind fun r => ?_
  split
  · exact outline_groupCascade orgId id
  · exact .ret ()
  · exact .throw _

theorem outline_purgeRolesOf (orgId : Id) :
    Outline (cascading orgId) .top (purgeRolesOf orgId) fun _ => .top := by
  refine ((aside_query (.rolesReferenced orgId)).inside _ (blind_cascading _)).bind
    fun (referenced : Bool) => ?_
  cases referenced with
  | true => exact .throw _
  | false =>
    refine ((aside_query _).inside _ (blind_cascading _)).bind fun ids => Outline.forEach fun id _ => ?_
    exact @Outline.exec store MemberOp Err ownerContract (cascading orgId) .top .database
      (.role id) (.cascade orgId) (hits_role orgId id)

theorem outline_organizationCascade (orgId : Id) :
    Outline (cascading orgId) .top (organizationCascade orgId) fun _ => .top := by
  have haside : ∀ {α : Type} {m : Service α}, Aside m →
      Outline (cascading orgId) .top m fun _ => .top :=
    fun hm => hm.inside _ (blind_cascading _)
  refine (haside (aside_query _)).bind fun ids => ?_
  refine (haside (aside_forEach (aside_purgeSpaceOf orgId) ids)).bind fun _ => ?_
  refine (haside (aside_query _)).bind fun ids => ?_
  refine (Outline.forEach fun id _ => outline_purgeGroupOf orgId id).bind fun _ => ?_
  refine (outline_deleteOrgMembersWhere fun o p own log db hp h _ => ?_).bind fun _ => ?_
  · exact ⟨cascading_member h (.inl (of_decide_eq_true hp)) none, trivial⟩
  · refine (outline_purgeRolesOf orgId).bind fun _ => haside ?_
    refine (aside_query _).bind fun ids => (aside_execAll (fun _ => rfl) _ ids).bind fun _ => ?_
    refine (aside_execRow rfl _).bind fun _ => ?_
    exact (aside_query _).bind fun ids => aside_execAll (fun _ => rfl) _ ids

/-! The workers -/

theorem aside_cancelRunningOpsForOrg (orgId : Id) : Aside (cancelRunningOpsForOrg orgId) :=
  (aside_query _).bind fun _ => aside_execAll (fun _ => rfl) _ _

theorem aside_jobCompleteTx : Aside jobCompleteTx := by
  refine (aside_ask _).bind fun (completed : Bool) => ?_
  cases completed with
  | true => exact aside_pure ()
  | false => exact aside_throw _

theorem aside_completeOperationTx (id : Id) (payload : Payload) :
    Aside (completeOperationTx id payload) := by
  refine (aside_ask _).bind fun result => ?_
  cases result with
  | none => exact aside_throw _
  | some result => exact (aside_completeOperation _ _).bind fun _ => aside_jobCompleteTx

theorem aside_failOperationTx (id : Id) (message : String) : Aside (failOperationTx id message) :=
  (aside_failOperation _ _ _).bind fun _ => aside_jobCompleteTx

theorem outline_writeOrganization {orgId : Id} (stmt : OrganizationStmt) :
    Outline (orgWrote orgId) .top (writeRow .noRows (.organization orgId) stmt) fun _ => .top :=
  @Outline.write store MemberOp Err ownerContract (orgWrote orgId) .top .database .noRows
    (.organization orgId) stmt _ (hits_organization orgId stmt)

theorem outline_changeOrganization {orgId : Id} {stmt : Time → OrganizationStmt} :
    Outline (orgWrote orgId) .top (do
      let now ← ask .now
      returned (← writeRow .noRows (.organization orgId) (stmt now))) fun _ => .top := by
  refine (@Outline.ask store MemberOp Err ownerContract _ .top Ask.now).bind fun now => ?_
  exact (outline_writeOrganization (stmt now)).bind fun row =>
    (aside_returned row).inside _ (blind_orgWrote orgId)

theorem outline_purgeOrganization (orgId : Id) (etag : Etag) :
    Outline (orgWrote orgId) .top (purgeOrganization orgId etag) fun _ => .top := by
  have hwrite : Outline (orgWrote orgId) .top
      (writeRow .noRows (.organization orgId) (.purgeOrganization etag)) fun _ => purged orgId := by
    refine @Outline.write store MemberOp Err ownerContract (orgWrote orgId) .top .database .noRows
      (.organization orgId) (.purgeOrganization etag) _ fun own log db new hinv hown htop hx => ?_
    refine ⟨(hits_organization orgId _ own log db new hinv hown htop hx).1, ?_⟩
    have hnew : new = some .gone := by
      obtain ⟨o, r, hcur, rfl⟩ := execOrganization_cases hx
      rw [hcur] at hx
      simp only [execOrganization, Option.ite_none_right_eq_some, Option.some.injEq] at hx
      rw [← hx.2]
    exact hnew ▸ AList.lookup_insert own
  refine hwrite.bind fun _ => ?_
  exact (outline_organizationCascade orgId).frame.conseq (fun _ _ _ _ _ h => h)
    fun _ _ _ _ _ _ _ => trivial

theorem between_orgTx (orgId : Id) {P : Assertion ownerContract} {body : Service Unit}
    (hbody : Outline (orgWrote orgId) .top body fun _ => .top) :
    Between P (runInTx body) fun _ => .top :=
  between_runInTx (orgWrote orgId) (fun _ => .top) (fun _ _ _ => orgWrites_empty orgId _)
    (hbody.conseq (fun _ _ _ _ _ _ => trivial) fun _ _ _ _ _ _ h => h)
    fun _ _ _ _ hdb h _ hfits => OrgWrites.guarded h hdb hfits

theorem safe_deleteOrg (args : DeleteOrgArgs) (db : Db store) :
    Safe ownerContract (deleteOrg args).run .idle ∅ (.start (.deleteOrg args)) db := by
  refine safe_member (between_orgTx args.orgId ?_) db
  have haside : ∀ {m : Service Unit} {P : Assertion ownerContract}, Aside m →
      Outline (orgWrote args.orgId) P m fun _ => .top :=
    fun hm => (hm.inside _ (blind_orgWrote _)).conseq (fun _ _ _ _ _ _ => trivial)
      fun _ _ _ _ _ _ h => h
  refine (haside (aside_cancelRunningOpsForOrg _)).bind fun _ => ?_
  split
  · refine (outline_purgeOrganization _ _).attempt.bind fun r => ?_
    split
    · exact haside (aside_failOperationTx _ _)
    · exact .throw _
    · exact haside (aside_completeOperationTx _ _)
  · refine outline_changeOrganization.attempt.bind fun r => ?_
    split
    · exact haside (aside_failOperationTx _ _)
    · exact .throw _
    · exact haside (aside_completeOperationTx _ _)

theorem safe_undeleteOrg (args : UndeleteOrgArgs) (db : Db store) :
    Safe ownerContract (undeleteOrg args).run .idle ∅ (.start (.undeleteOrg args)) db := by
  refine safe_member (between_orgTx args.orgId ?_) db
  have haside : ∀ {m : Service Unit} {P : Assertion ownerContract}, Aside m →
      Outline (orgWrote args.orgId) P m fun _ => .top :=
    fun hm => (hm.inside _ (blind_orgWrote _)).conseq (fun _ _ _ _ _ _ => trivial)
      fun _ _ _ _ _ _ h => h
  refine outline_changeOrganization.attempt.bind fun r => ?_
  split
  · exact haside (aside_completeOperationTx _ _)
  · exact haside (aside_failOperationTx _ _)
  · exact .throw _

end Pivox.Organizations
