import Pivox.Organizations.Asides

/-!
Outlines of the operations on members and accounts. Each operation that takes an owner away has read
before that another is left; at READ COMMITTED that is so at its COMMIT only if no other operation
has made the guard that it read fail since.
-/

namespace Pivox.Organizations
open ReadCommitted

variable {α : Type} {J P : Assertion ownerContract} {op : MemberOp}

/-! What an operation knows between its statements -/

def wrote (f : Id → Principal → Option Member → Prop) : Assertion ownerContract :=
  ⟨fun own _ _ => MemberWrites f own, fun _ _ _ _ h _ => h, fun _ _ _ _ h => h⟩

/- Nothing is written yet. -/
def opening (op : MemberOp) : Assertion ownerContract := (Assertion.about op).and .unwritten

/- A guard was read, and its answer let the operation go on. -/
def passed (q : Query) : Assertion ownerContract where
  holds _ log db :=
    guards log.op q = true ∧ (∃ a, (.read q a : Event store) ∈ log.events) ∧ passes db q = true
  later _ _ _ _ h hl := by
    obtain ⟨hg, ⟨a, ha⟩, hp⟩ := h
    exact ⟨hg, ⟨a, ha⟩, hl.rely.guards q a ha hg hp⟩
  add _ _ _ _ h := ⟨h.1, h.2.1.imp fun _ ha => .tail _ ha, h.2.2⟩

def systemRole (orgId roleId : Id) (name : String) : Assertion ownerContract where
  holds _ _ db := (∃ r, roleRow db roleId = some r ∧ r.orgId = orgId ∧ r.name = name ∧
    r.isSystem = true) ∨ db.lookup (Key.organization orgId) = some .gone
  later _ _ _ _ h hl := by
    obtain ⟨r, hr, rfl, hrest⟩ | hgone := h
    · exact (hl.rely.roles roleId r hr).imp (fun hr' => ⟨r, hr', rfl, hrest⟩) id
    · exact .inr (hl.rely.gone orgId hgone)
  add _ _ _ _ h := h

/- The principal's binding is written, with the owner role. -/
def promoted (orgId : Id) (p : Principal) : Assertion ownerContract where
  holds own log db := ∃ m, own.lookup (Key.orgMember orgId p) = some (some m) ∧
    (systemRole orgId m.roleId roleOwner).holds own log db
  later own log db db' h hl := by
    obtain ⟨m, hown, hrole⟩ := h
    exact ⟨m, hown, (systemRole orgId m.roleId roleOwner).later own log db db' hrole hl⟩
  add _ _ _ _ h := h

theorem isOwnerRole_of_system {orgId roleId : Id} {own : Pending store}
    {log : Log store MemberOp} {db : Db store} (hactive : IsActive db orgId)
    (h : (systemRole orgId roleId roleOwner).holds own log db) : isOwnerRole db roleId = true := by
  obtain ⟨r, hr, -, hname, hsystem⟩ | hgone := h
  · simpa [isOwnerRole, hr, hsystem, roleOwner] using hname
  · obtain ⟨o, ho, -⟩ := hactive
    cases hgone.symm.trans ho

theorem blind_wrote (f : Id → Principal → Option Member → Prop) : Blind (wrote f) :=
  fun _ _ _ _ r hk h => MemberWrites.neutral h hk r

theorem blind_passed (q : Query) : Blind (passed q) := fun _ _ _ _ _ _ h => h

/-! Reads -/

theorem outline_guard {q : Query} (hg : guards op q = true) (R : Result q → Prop)
    (hpass : ∀ db, R (answer q db) → passes db q = true) :
    Outline J (opening op) (query q) fun a => Assertion.given (R a) (passed q) := by
  refine outline_query ?_
  rintro own log db a - ⟨rfl, rfl⟩ rfl hR
  exact ⟨hg, ⟨_, .head _⟩, hpass db hR⟩

theorem outline_getOrgMember {orgId : Id} {p : Principal}
    (hg : guards op (.getOrgMember orgId p) = true) :
    Outline J (opening op) (getOrgMember orgId p) fun cur =>
      Assertion.given (cur.2 ≠ roleOwner) (passed (.getOrgMember orgId p)) := by
  refine (outline_guard hg (fun row => ∀ r ∈ row, r.2 ≠ roleOwner) fun db h => ?_).bind fun row =>
    ?_
  · exact (Option.all_eq_true_iff_get _ _).mpr fun hr => by
      simpa using h _ (Option.get_mem hr)
  · cases row with
    | none => exact .throw _
    | some cur =>
      refine .conseq .pure (fun own log db _ _ h => ?_) fun _ _ _ _ _ _ h => h
      intro hne
      exact h fun r hr => by simpa [← Option.mem_some.mp hr] using hne

theorem outline_guardLastOwner {orgId : Id} {applies : Bool} {message : String}
    (hg : guards op (.countOwnersByOrg orgId) = true) :
    Outline J (opening op) (guardLastOwner applies orgId message) fun _ =>
      Assertion.given (applies = true) (passed (.countOwnersByOrg orgId)) := by
  cases applies with
  | false =>
    exact .conseq .pure (fun _ _ _ _ _ _ h => by cases h) fun _ _ _ _ _ _ h => h
  | true =>
    have hread : Outline J (opening op) (query (.countOwnersByOrg orgId)) fun count : Nat =>
        Assertion.given (2 ≤ count) (passed (.countOwnersByOrg orgId)) :=
      outline_guard hg (fun count : Nat => 2 ≤ count) fun db h => decide_eq_true h
    refine (outline_mapError _ hread).bind fun (count : Nat) => ?_
    by_cases hle : count ≤ 1
    · rw [if_pos hle]
      exact .throw _
    · rw [if_neg hle]
      exact .conseq .pure (fun _ _ _ _ _ h _ => h (by omega)) fun _ _ _ _ _ _ h => h

theorem outline_getSystemRole {f : Id → Principal → Option Member → Prop} {orgId : Id}
    {name : String} (hJ : ∀ own log db, J.holds own log db → MemberWrites f own) :
    Outline J P (getSystemRole orgId name) fun role =>
      (Assertion.always (role.2.name = name)).and (systemRole orgId role.1 name) := by
  let R : Option (Id × Role) → Assertion ownerContract
    | none => .top
    | some role => (Assertion.always (role.2.name = name)).and (systemRole orgId role.1 name)
  have hread : Outline J P (query (.getSystemRole orgId name)) R := by
    refine outline_query fun own log db row hown _ hrow => ?_
    cases row with
    | none => trivial
    | some role =>
      have hmem := List.mem_of_find?_eq_some hrow
      have hrole := List.find?_some hrow
      simp only [Bool.and_eq_true, decide_eq_true_eq] at hrole
      rw [mem_roles, (hJ own log db hown).roleRow_eq] at hmem
      exact ⟨hrole.1.2, .inl ⟨role.2, hmem, hrole.1.1, hrole.1.2, hrole.2⟩⟩
  exact hread.bind fun row => outline_found fun _ _ _ _ h => h

theorem outline_updateOrgMemberRole {Q : Assertion ownerContract} {orgId roleId : Id}
    {p : Principal} (hhit : ∀ own log db (m : Member), m.roleId = roleId → J.holds own log db →
      P.holds own log db → J.holds (own.insert (Key.orgMember orgId p) (some m)) log db ∧
        Q.holds (own.insert (Key.orgMember orgId p) (some m)) log db) :
    Outline J P (updateOrgMemberRole orgId p roleId) fun _ => Q := by
  refine (@Outline.ask store MemberOp Err ownerContract J P Ask.now).bind fun now => ?_
  refine Outline.bind (@Outline.write store MemberOp Err ownerContract J P .database .noRows
    (.orgMember orgId p) (.updateRole roleId now) (fun _ => Q) ?_)
    fun _ => .ret ()
  intro own log db new _ hJ hP hx
  cases hcur : (overlay own db).lookup (Key.orgMember orgId p) with
  | none => simp [hcur, execMember] at hx
  | some m =>
    simp only [hcur, execMember, Option.some.injEq] at hx
    subst hx
    exact hhit own log db _ rfl hJ hP

/-! Transactions -/

/-- A transaction of an operation is safe when its COMMIT leaves the organizations guarded. -/
theorem between_runInTx (J : Assertion ownerContract) (R : α → Assertion ownerContract)
    {body : Service α}
    (hstart : ∀ log db, P.holds ∅ log db → J.holds ∅ log db) (hbody : Outline J P body R)
    (hcommit : ∀ a own log db, Owned db → J.holds own log db → (R a).holds own log db →
      fits db (overlay own db) = true → Guarded db (overlay own db)) :
    Between P (runInTx body) fun _ => .top :=
  Between.transaction hbody hstart fun a own log db hinv hJ hR =>
    ⟨hcommit a own log db hinv hJ hR, trivial⟩

theorem safe_member {m : Service α} (h : Between (opening op) m fun _ => .top) (db : Db store) :
    Safe ownerContract m.run .idle ∅ (.start op) db :=
  h.run ⟨rfl, rfl⟩

/- The bindings written so far were not there before. -/
def created : Assertion ownerContract where
  holds own _ db := MemberWrites (fun _ _ _ => True) own ∧
    ∀ orgId p r, own.lookup (Key.orgMember orgId p) = some r → orgMemberRow db orgId p = none
  later own log db db' h hl := by
    refine ⟨h.1, fun orgId p r hr => ?_⟩
    have hmem : Key.orgMember orgId p ∈ own := by
      rw [← AList.lookup_isSome, hr]
      rfl
    exact (hl.own _ hmem).trans (h.2 orgId p r hr)
  add _ _ _ _ h := h

theorem blind_created : Blind created := by
  intro own log db k r hk h
  refine ⟨MemberWrites.neutral h.1 hk r, fun orgId p r' hr' => h.2 orgId p r' ?_⟩
  exact (AList.lookup_insert_ne (ne_of_neutral hk rfl)).symm.trans hr'

theorem created_empty {log : Log store MemberOp} {db : Db store} : created.holds ∅ log db :=
  ⟨memberWrites_empty, fun _ _ _ h => by simp at h⟩

theorem outline_create {orgId : Id} (p : Principal) (roleId caller : Id) (now : Time) :
    Outline created .top (writeRow .database (.orgMember orgId p) (.create roleId (some caller) now))
      fun _ => .top := by
  refine @Outline.write store MemberOp Err ownerContract created .top .database .database
    (.orgMember orgId p) (.create roleId (some caller) now) _ fun own log db new _ h _ hx => ?_
  refine ⟨⟨h.1.insert trivial, fun o q r hr => ?_⟩, trivial⟩
  by_cases heq : Key.orgMember o q = Key.orgMember orgId p
  · cases heq
    cases hcur : (overlay own db).lookup (Key.orgMember orgId p) with
    | some m => simp [hcur, execMember] at hx
    | none =>
      cases hown : own.lookup (Key.orgMember orgId p) with
      | some r' => exact h.2 orgId p r' hown
      | none => exact (@lookup_overlay_of_none store own db (.orgMember orgId p) hown).symm.trans hcur
  · exact h.2 o q r ((AList.lookup_insert_ne heq).symm.trans hr)

theorem aside_getSystemRole (orgId : Id) (name : String) : Aside (getSystemRole orgId name) :=
  (aside_query _).bind fun row => aside_found row

theorem aside_guardLastOwner (applies : Bool) (orgId : Id) (message : String) :
    Aside (guardLastOwner applies orgId message) := by
  cases applies with
  | false => exact aside_pure ()
  | true =>
    refine ((aside_query _).mapError _).bind fun (count : Nat) => ?_
    by_cases hle : count ≤ 1
    · rw [if_pos hle]
      exact aside_throw _
    · rw [if_neg hle]
      exact aside_pure ()

theorem safe_createMember (orgId caller : Id) (req : MemberRequest) (db : Db store) :
    Safe ownerContract (createMember orgId caller req).run .idle ∅
      (.start (.createMember orgId caller req)) db := by
  refine safe_member ?_ db
  cases req with
  | none => exact .throw _
  | some r =>
    obtain ⟨p, slug⟩ := r
    refine between_runInTx created (fun _ => .top) (fun _ _ _ => created_empty) ?_
      fun _ own log db hinv h _ _ => ?_
    · refine Outline.bind (outline_mapError _ (Outline.conseq
        ((aside_getSystemRole orgId slug).inside _ blind_created) (fun _ _ _ _ _ _ => trivial)
        fun _ _ _ _ _ _ h => h)) fun role => ?_
      refine (@Outline.ask store MemberOp Err ownerContract created .top Ask.now).bind fun now => ?_
      exact (outline_mapError _ (outline_create p role.1 caller now)).bind fun _ => .ret ()
    · refine h.1.guarded hinv fun o q r _ hr _ hq => ?_
      obtain ⟨m, hm, -⟩ := hq
      cases (h.2 o q r hr).symm.trans hm

/- The last owner is not lost with the principal's binding: it is not an owner's, or not the last. -/
def notLast (orgId : Id) (p : Principal) : Assertion ownerContract :=
  (passed (.countOwnersByOrg orgId)).or (passed (.getOrgMember orgId p))

theorem other_of_notLast {orgId : Id} {p : Principal} {own : Pending store}
    {log : Log store MemberOp} {db : Db store} (h : (notLast orgId p).holds own log db)
    (hp : Counted db orgId p) : ∃ q, q ≠ p ∧ Counted db orgId q := by
  obtain ⟨-, -, hcount⟩ | ⟨-, -, hrole⟩ := h
  · exact other_of_count (of_decide_eq_true hcount) p
  · refine absurd hp (not_counted_of_role fun m name hm => ?_)
    simpa [passes, hm] using hrole

/- Only this binding is written. -/
def wroteOne (orgId : Id) (p : Principal) : Assertion ownerContract :=
  wrote fun o q _ => o = orgId ∧ q = p

theorem guarded_of_notLast {orgId : Id} {p : Principal} {own : Pending store}
    {log : Log store MemberOp} {db : Db store} (hdb : Owned db)
    (hown : (wroteOne orgId p).holds own log db) (h : (notLast orgId p).holds own log db) :
    Guarded db (overlay own db) := by
  refine MemberWrites.guarded_of_other hown hdb (fun _ _ _ hf => hf.2) ?_
  rintro o r ⟨rfl, -⟩ - hp
  exact other_of_notLast h hp

/-- The two reads before a binding stops being an owner's. -/
theorem outline_guarded {orgId : Id} {p : Principal} {message : String}
    {demotes : Member × String → Bool} {D : Prop} {rest : Service α}
    {Q : α → Assertion ownerContract}
    (hdemotes : D → ∀ cur, cur.2 = roleOwner → demotes cur = true)
    (hcount : guards op (.countOwnersByOrg orgId) = true)
    (hrole : guards op (.getOrgMember orgId p) = true)
    (hrest : Outline J (Assertion.given D (notLast orgId p)) rest Q) :
    Outline J (opening op) (do
      let cur ← mapError handleResourceError (getOrgMember orgId p)
      guardLastOwner (demotes cur) orgId message
      rest) Q := by
  let known (cur : Member × String) : Assertion ownerContract :=
    Assertion.given (cur.2 ≠ roleOwner) (passed (.getOrgMember orgId p))
  have hcur : Outline J (opening op) (mapError handleResourceError (getOrgMember orgId p))
      fun cur => (known cur).and (opening op) :=
    (outline_mapError _ (outline_getOrgMember hrole)).also.conseq
      (fun _ _ _ _ _ h => ⟨h, h⟩) fun _ _ _ _ _ _ h => h
  refine hcur.bind fun cur => ?_
  have hguard : Outline J ((known cur).and (opening op)) (guardLastOwner (demotes cur) orgId message)
      fun _ => (Assertion.given (demotes cur = true) (passed (.countOwnersByOrg orgId))).and (known cur) :=
    (outline_guardLastOwner hcount).also.conseq (fun _ _ _ _ _ h => ⟨h.2, h.1⟩)
      fun _ _ _ _ _ _ h => h
  refine hguard.bind fun _ => hrest.conseq (fun own log db _ _ h hD => ?_) fun _ _ _ _ _ _ h => h
  by_cases howner : cur.2 = roleOwner
  · exact .inl (h.1 (hdemotes hD cur howner))
  · exact .inr (h.2 howner)

theorem between_demote {orgId : Id} {p : Principal} {slug : String} (hslug : slug ≠ roleOwner) :
    Between (opening (.updateMember orgId (some (p, slug)))) (updateMember orgId (some (p, slug)))
      fun _ => .top := by
  let op : MemberOp := .updateMember orgId (some (p, slug))
  let named (role : Id × Role) : Assertion ownerContract := .always (role.2.name = slug)
  refine between_runInTx (wroteOne orgId p) (fun _ => notLast orgId p)
    (fun _ _ _ => memberWrites_empty) ?_ fun _ _ _ _ hdb hown h _ => guarded_of_notLast hdb hown h
  have hrole : Outline (wroteOne orgId p) (opening op)
      (mapError handleResourceError (getSystemRole orgId slug))
      fun role => (opening op).and (named role) := by
    refine Outline.conseq (Outline.also (J := wroteOne orgId p) (P := .top) (outline_mapError _
      (outline_getSystemRole fun _ _ _ h => h.1))) (fun _ _ _ _ _ h => ⟨trivial, h⟩)
      fun _ _ _ _ _ _ h => ⟨h.2, h.1.1⟩
  refine hrole.bind fun role => ?_
  have hupdate : Outline ((wroteOne orgId p).and (named role))
      (Assertion.given (role.2.name = slug) (notLast orgId p))
      (mapError handleResourceError (updateOrgMemberRole orgId p role.1))
      fun _ => notLast orgId p := by
    refine outline_mapError _ (outline_updateOrgMemberRole fun own log db m _ hJ h => ?_)
    exact ⟨⟨MemberWrites.insert hJ.1 ⟨rfl, rfl⟩, hJ.2⟩, h hJ.2⟩
  refine Outline.conseq (Outline.also (outline_guarded (fun hname cur howner => ?_) ?_ ?_ hupdate))
    (fun _ _ _ _ _ h => h) fun _ _ _ _ _ _ h => h.1
  · simpa [howner, hname] using hslug
  · exact decide_eq_true hslug
  · exact decide_eq_true hslug

theorem between_promote {orgId : Id} {p : Principal} :
    Between (opening op) (updateMember orgId (some (p, roleOwner))) fun _ => .top := by
  let owns (role : Id × Role) : Assertion ownerContract := systemRole orgId role.1 roleOwner
  refine between_runInTx (wroteOne orgId p) (fun _ => promoted orgId p)
    (fun _ _ _ => memberWrites_empty) ?_ fun _ own log db hdb hown h _ => ?_
  · have hrole : Outline (wroteOne orgId p) (opening op)
        (mapError handleResourceError (getSystemRole orgId roleOwner)) owns :=
      outline_mapError _ ((outline_getSystemRole fun _ _ _ h => h).conseq (fun _ _ _ _ _ h => h)
        fun _ _ _ _ _ _ h => h.2)
    refine hrole.bind fun role => ?_
    have haside : ∀ m : Service (Member × String), Aside m →
        Outline (wroteOne orgId p) (owns role) m fun _ => owns role :=
      fun m hm => hm.frame ((blind_wrote _).and fun _ _ _ _ _ _ h => h)
    refine (haside _ (((aside_query _).bind aside_found).mapError _)).bind fun cur => ?_
    refine ((aside_guardLastOwner _ _ _).frame ((blind_wrote _).and fun _ _ _ _ _ _ h => h)).bind
      fun _ => outline_mapError _ (outline_updateOrgMemberRole fun own log db m hm hJ h => ?_)
    exact ⟨MemberWrites.insert hJ ⟨rfl, rfl⟩, m, AList.lookup_insert own, hm ▸ h⟩
  · refine MemberWrites.guarded hown hdb ?_
    rintro o q r hactive - ⟨rfl, rfl⟩ ⟨_, -, hcounts⟩
    obtain ⟨m, hm, hrole⟩ := h
    refine ⟨q, MemberWrites.counted_of_written hown hm ?_⟩
    simp only [countsAsOwner, Bool.and_eq_true] at hcounts ⊢
    exact ⟨isOwnerRole_of_system hactive hrole, hcounts.2⟩

theorem safe_updateMember (orgId : Id) (req : MemberRequest) (db : Db store) :
    Safe ownerContract (updateMember orgId req).run .idle ∅
      (.start (.updateMember orgId req)) db := by
  refine safe_member ?_ db
  cases req with
  | none => exact .throw _
  | some r =>
    obtain ⟨p, slug⟩ := r
    by_cases hslug : slug = roleOwner
    · rw [hslug]
      exact between_promote
    · exact between_demote hslug

theorem safe_deleteMember (orgId : Id) (req : Option Principal) (db : Db store) :
    Safe ownerContract (deleteMember orgId req).run .idle ∅ (.start (.deleteMember orgId req)) db := by
  refine safe_member ?_ db
  cases req with
  | none => exact .throw _
  | some p =>
    refine between_runInTx (wroteOne orgId p) (fun _ => notLast orgId p)
      (fun _ _ _ => memberWrites_empty) ?_ fun _ _ _ _ hdb hown h _ => guarded_of_notLast hdb hown h
    refine outline_guarded (D := True) (fun _ cur h => by simpa using h) rfl rfl ?_
    refine Outline.bind (@Outline.write store MemberOp Err ownerContract _ _ .database .notFound
      (.orgMember orgId p) .delete (fun _ => notLast orgId p) ?_) fun _ => .ret ()
    exact fun own log db new _ hJ h _ => ⟨MemberWrites.insert hJ ⟨rfl, rfl⟩, h trivial⟩

theorem aside_previousOwner (owners : List Principal) : Aside (previousOwner owners) := by
  unfold previousOwner
  split
  · exact aside_throw _
  · split
    · exact aside_throw _
    · exact aside_pure _
    · exact aside_throw _

theorem safe_transferOwnership (req : Option (String × Id)) (db : Db store) :
    Safe ownerContract (transferOwnership req).run .idle ∅ (.start (.transferOwnership req)) db := by
  refine safe_member ?_ db
  cases req with
  | none => exact .throw _
  | some r =>
    obtain ⟨slug, newOwner⟩ := r
    refine Between.bind (R := fun _ => .top) (Between.conseq
      (((aside_query _).bind aside_found).mapError _).between (fun _ _ _ => trivial)
      fun _ _ _ h => h) fun org => ?_
    refine between_runInTx (wrote fun o _ _ => o = org.1) (fun _ => promoted org.1 (.user newOwner))
      (fun _ _ _ => memberWrites_empty) ?_ fun _ own log db hdb hown h _ => ?_
    · have haside : ∀ {α : Type} {m : Service α} {P : Assertion ownerContract}, Blind P → Aside m →
          Outline (wrote fun o _ _ => o = org.1) P m fun _ => P :=
        fun hP hm => hm.frame ((blind_wrote _).and hP)
      have hblind : Blind .top := fun _ _ _ _ _ _ _ => trivial
      refine (haside hblind (((aside_query _).bind aside_found).mapError _)).bind fun target => ?_
      split
      · exact .throw _
      refine (haside hblind ((aside_query _).mapError _)).bind fun owners => ?_
      refine (haside hblind (aside_previousOwner owners)).bind fun prev => ?_
      refine (outline_mapError _ (outline_getSystemRole fun _ _ _ h => h)).bind fun owner => ?_
      refine (haside ?_ ((aside_getSystemRole _ _).mapError _)).bind fun admin => ?_
      · exact fun _ _ _ _ _ _ h => h
      refine (outline_mapError _ (outline_updateOrgMemberRole (Q := systemRole org.1 owner.1 roleOwner)
        fun own log db m _ hJ h => ?_)).bind fun _ => outline_mapError _
        (outline_updateOrgMemberRole fun own log db m hm hJ h => ?_)
      · exact ⟨MemberWrites.insert hJ rfl, h.2⟩
      · exact ⟨MemberWrites.insert hJ rfl, m, AList.lookup_insert own, hm ▸ h⟩
    · refine MemberWrites.guarded hown hdb ?_
      rintro o q r hactive - rfl -
      obtain ⟨m, hm, hrole⟩ := h
      refine ⟨.user newOwner, MemberWrites.counted_of_written hown hm ?_⟩
      simpa [countsAsOwner] using isOwnerRole_of_system hactive hrole

/-! Users and accounts -/

theorem aside_execAll {β : Type} {k : β → Key} (hk : ∀ b, neutral (k b) = true)
    (stmt : ∀ b, Stmt (k b)) (bs : List β) :
    Aside (Script.forEach (fun b => execRow (k b) (stmt b)) bs) :=
  aside_forEach (fun b => aside_execRow (hk b) (stmt b)) bs

theorem aside_deleteSpaceMembersWhere (holds : Id → Principal → Bool) :
    Aside (deleteSpaceMembersWhere holds) :=
  (aside_query _).bind fun _ => aside_execAll (fun _ => rfl) _ _

theorem aside_deleteGroupMembersWhere (holds : Id → Id → Bool) :
    Aside (deleteGroupMembersWhere holds) :=
  (aside_query _).bind fun _ => aside_execAll (fun _ => rfl) _ _

theorem safe_deleteUser (orgId : Id) (req : Option Id) (db : Db store) :
    Safe ownerContract (deleteUser orgId req).run .idle ∅ (.start (.deleteUser orgId req)) db := by
  refine safe_member ?_ db
  cases req with
  | none => exact .throw _
  | some userId =>
    let left : Assertion ownerContract := passed (.countOrgOwnersExcludingUser orgId userId)
    refine between_runInTx (wroteOne orgId (.user userId)) (fun _ => left)
      (fun _ _ _ => memberWrites_empty) ?_ fun _ own log db hdb hown h _ => ?_
    · have hread : Outline (wroteOne orgId (.user userId)) (opening (.deleteUser orgId (some userId)))
          (query (.countOrgOwnersExcludingUser orgId userId)) fun n : Nat =>
            Assertion.given (0 < n) left :=
        outline_guard (q := .countOrgOwnersExcludingUser orgId userId) rfl (fun n : Nat => 0 < n)
          fun db h => decide_eq_true h
      refine (outline_mapError _ hread).bind fun (n : Nat) => ?_
      by_cases hn : n = 0
      · rw [if_pos hn]
        exact .throw _
      rw [if_neg hn]
      have haside : ∀ {m : Service Unit}, Aside m →
          Outline (wroteOne orgId (.user userId)) left m fun _ => left :=
        fun hm => hm.frame ((blind_wrote _).and (blind_passed _))
      refine Outline.bind (R := fun _ => left) (Outline.conseq (@Outline.exec store MemberOp Err
        ownerContract _ left .database (.orgMember orgId (.user userId)) .delete ?_)
        (fun own log db _ _ h => h (Nat.pos_of_ne_zero hn)) fun _ _ _ _ _ _ h => h) fun _ => ?_
      · exact fun own log db new _ hJ h _ => ⟨MemberWrites.insert hJ ⟨rfl, rfl⟩, h⟩
      refine (haside ((aside_query _).bind fun _ => aside_deleteSpaceMembersWhere _)).bind fun _ => ?_
      exact haside ((aside_query _).bind fun _ => aside_deleteGroupMembersWhere _)
    · obtain ⟨-, -, hpos⟩ := h
      refine MemberWrites.guarded_of_other hown hdb (fun _ _ _ hf => hf.2) ?_
      rintro o r ⟨rfl, -⟩ - -
      exact other_of_excluding (Nat.ne_of_gt (of_decide_eq_true hpos))

/- What a statement on the bindings of some rows does to each. -/
theorem outline_deleteOrgMembersWhere {holds : Id → Principal → Bool}
    (hhit : ∀ orgId p own log db, holds orgId p = true → J.holds own log db → P.holds own log db →
      J.holds (own.insert (Key.orgMember orgId p) none) log db ∧
        P.holds (own.insert (Key.orgMember orgId p) none) log db) :
    Outline J P (deleteOrgMembersWhere holds) fun _ => P := by
  let P' (rows : List (Id × Principal)) : Assertion ownerContract :=
    P.and (.always (∀ r ∈ rows, holds r.1 r.2 = true))
  have hread : Outline J P (query (.orgMembersWhere holds)) P' := by
    refine outline_query ?_
    rintro own log db rows _ hP rfl
    refine ⟨P.add own log db _ hP, fun r hr => ?_⟩
    obtain ⟨row, hrow, rfl⟩ := List.mem_map.mp hr
    exact (List.mem_filter.mp hrow).2
  refine hread.bind fun rows => ?_
  suffices h : Outline J (P' rows) (Script.forEach (fun r => execRow (.orgMember r.1 r.2) .delete)
      rows) fun _ => P' rows from h.conseq (fun _ _ _ _ _ h => h) fun _ _ _ _ _ _ h => h.1
  refine Outline.forEach fun r hr => @Outline.exec store MemberOp Err ownerContract J (P' rows)
    .database (.orgMember r.1 r.2) .delete fun own log db new _ hJ h hx => ?_
  have hnew : new = none := by
    cases hcur : (overlay own db).lookup (Key.orgMember r.1 r.2) with
    | none => simp [hcur, execMember] at hx
    | some m => simpa [hcur, execMember] using hx.symm
  subst hnew
  obtain ⟨hJ', hP'⟩ := hhit r.1 r.2 own log db (h.2 r hr) hJ h.1
  exact ⟨hJ', hP', h.2⟩

theorem between_revokeMemberships {args : DeleteAccountArgs} :
    Between (passed (.listSoleOwnerOrgsForIdentity args.identityId))
      (revokeMemberships args.identityId) fun _ => .top := by
  refine between_runInTx (wrote fun _ q _ => q = .user args.identityId)
    (fun _ => passed (.listSoleOwnerOrgsForIdentity args.identityId))
    (fun _ _ _ => memberWrites_empty) ?_ fun _ own log db hdb hown h _ => ?_
  · refine (outline_deleteOrgMembersWhere fun orgId p own log db hp hJ h => ?_).bind fun _ =>
      (aside_deleteSpaceMembersWhere _).frame ((blind_wrote _).and (blind_passed _))
    exact ⟨MemberWrites.insert hJ (of_decide_eq_true hp), h⟩
  · obtain ⟨-, -, hempty⟩ := h
    refine MemberWrites.guarded_of_other hown hdb (fun _ _ _ hf => hf) ?_
    rintro o r - hactive hp
    exact other_of_not_sole (not_sole_of_active (List.isEmpty_iff.mp hempty) hactive) hp

theorem aside_failOperation (id : Id) (code : Nat) (message : String) :
    Aside (failOperation id code message) :=
  (aside_writeRow rfl _ _).bind fun row => aside_returned row

theorem aside_completeOperation (id : Id) (result : Json) : Aside (completeOperation id result) :=
  (aside_writeRow rfl _ _).bind fun row => aside_returned row

theorem aside_failAccountOp (args : DeleteAccountArgs) (code : Nat) (message : String) :
    Aside (failAccountOp args code message) :=
  (aside_failOperation _ _ _).bind fun _ => aside_pure ()

theorem aside_completeAccountOp (args : DeleteAccountArgs) : Aside (completeAccountOp args) := by
  refine (aside_ask _).bind fun result => ?_
  cases result with
  | none => exact aside_throw _
  | some result => exact (aside_completeOperation _ _).bind fun _ => aside_pure ()

theorem between_deleteRecords (identityId : Id) :
    Between (@Assertion.top store MemberOp ownerContract) (deleteRecords identityId)
      fun _ => .top := by
  refine between_runInTx (wrote fun _ _ _ => False) (fun _ => .top)
    (fun _ _ _ => memberWrites_empty) ?_ fun _ own log db hdb hown _ _ => ?_
  · refine Aside.inside ?_ _ (blind_wrote _)
    refine (((aside_query _).bind aside_found).mapError _).bind fun ident => ?_
    split
    · exact aside_pure ()
    · exact ((aside_ask _).bind fun _ => (aside_writeRow rfl _ _).bind fun _ =>
        aside_pure ()).mapError _
  · exact MemberWrites.guarded hown hdb fun _ _ _ _ _ h => h.elim

theorem safe_deleteAccount (args : DeleteAccountArgs) (db : Db store) :
    Safe ownerContract (deleteAccount args).run .idle ∅ (.start (.deleteAccount args)) db := by
  refine safe_member ?_ db
  have hread : Between (opening (.deleteAccount args))
      (query (.listSoleOwnerOrgsForIdentity args.identityId)) fun orgs : List Organization =>
        Assertion.given (orgs = []) (passed (.listSoleOwnerOrgsForIdentity args.identityId)) := by
    refine @Between.read store MemberOp Err ownerContract _ .database
      (.listSoleOwnerOrgsForIdentity args.identityId) _ ?_
    rintro ⟨op, events⟩ db - ⟨hop, -⟩ hempty
    cases hop
    exact ⟨rfl, ⟨_, .head _⟩, List.isEmpty_iff.mpr hempty⟩
  have haside : ∀ {m : Service Unit} {P : Assertion ownerContract}, Aside m →
      Between P m fun _ => .top :=
    fun hm => Between.conseq hm.between (fun _ _ _ => trivial) fun _ _ _ h => h
  refine hread.bind fun (orgs : List Organization) => ?_
  by_cases horgs : orgs = []
  · rw [if_neg (not_not.mpr horgs)]
    refine Between.bind (R := fun _ => .top) (Between.conseq between_revokeMemberships
      (fun _ _ h => h horgs) fun _ _ _ h => h) fun _ => ?_
    refine (between_deleteRecords args.identityId).attempt.bind fun r => ?_
    split
    · split
      · exact haside (aside_failAccountOp _ _ _)
      · split
        · exact haside (aside_failAccountOp _ _ _)
        · exact .throw _
    · exact .throw _
    · exact haside (aside_completeAccountOp args)
  · rw [if_pos horgs]
    exact haside (aside_failAccountOp _ _ _)

end Pivox.Organizations
