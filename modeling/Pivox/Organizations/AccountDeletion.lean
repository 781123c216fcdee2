import Pivox.Organizations.Lifecycle
import Pivox.Organizations.Permissions

/-!
What the deletion of an account leaves of its access: its own bindings are gone when the operation
succeeds, those of its groups are not looked at.
-/

namespace Pivox.Organizations
open ReadCommitted Transition
variable {α β : Type}

/- The deletion of an account, among any other programs on the same tables. -/
inductive AccountOp where
  | deleteAccount (args : DeleteAccountArgs)
  | other (code : Prog store)

def accountCode : AccountOp → Prog store
  | .deleteAccount args => (deleteAccount args).run
  | .other code => code

/- The identity's own bindings. -/
def isBindingOf (identity : Id) : Key → Bool
  | .orgMember _ p => p = .user identity
  | .spaceMember _ p => p = .user identity
  | _ => false

def Unbound (identity : Id) (db : Db store) : Prop :=
  ∀ k, isBindingOf identity k = true → db.lookup k = none

def AddsNone (identity : Id) (db db' : Db store) : Prop :=
  ∀ k, isBindingOf identity k = true → db.lookup k = none → db'.lookup k = none

/- Done, and without an error. -/
def Succeeded (db : Db store) (id : Id) : Prop :=
  ∃ o, db.lookup (Key.operation id) = some (.live o) ∧ o.done = true ∧ o.errorCode = none

def succeeded : Option (Slot Operation) → Bool
  | some (.live o) => o.done && o.errorCode = none
  | _ => false

instance (db : Db store) (id : Id) : Decidable (Succeeded db id) :=
  decidable_of_iff (succeeded (db.lookup (Key.operation id)) = true) <| by
    constructor
    · intro h
      cases hrow : db.lookup (Key.operation id) with
      | none => simp [hrow, succeeded] at h
      | some row =>
        cases row with
        | gone => simp [hrow, succeeded] at h
        | live o => exact ⟨o, hrow, by simpa [hrow, succeeded] using h⟩
    · rintro ⟨o, ho, hdone, hcode⟩
      simp [ho, succeeded, hdone, hcode]

structure Concludes (args : DeleteAccountArgs) (db db' : Db store) : Prop where
  unbound : Unbound args.identityId db'
  frame : ∀ k, (∀ id, k ≠ .operation id) → db'.lookup k = db.lookup k

/-- The commit by which a session's own operation succeeds finds and leaves its identity unbound. -/
def accountContract : Contract store AccountOp where
  Inv _ := True
  rely log db db' := ∀ args, log.op = .deleteAccount args → AddsNone args.identityId db db'
  guar log db db' := ∀ args, log.op = .deleteAccount args → ¬ Succeeded db args.operationId →
    Succeeded db' args.operationId → Concludes args db db'
  allow _ _ _ := True
  accept _ _ _ := True
  fit _ _ _ := True
  spared log db db' := ∀ args, log.op = .deleteAccount args → AddsNone args.identityId db db'
  rely_refl _ _ _ _ _ _ h := h
  rely_trans _ _ _ _ h h' args hargs k hk hnone := h' args hargs k hk (h args hargs k hk hnone)
  rely_mono _ _ _ _ h := h
  inv_guar _ _ _ _ _ := trivial
  rely_guar _ _ _ _ _ _ h := h

section session
variable {args : DeleteAccountArgs} {p q : Key → Prop}

/- Of the keys that `p` holds of, none is a binding of the identity. -/
def vacant (args : DeleteAccountArgs) (p : Key → Prop) : Assertion accountContract where
  holds own log db := log.op = .deleteAccount args ∧
    ∀ k, isBindingOf args.identityId k = true → p k → (overlay own db).lookup k = none
  later own log db db' h hl := by
    obtain ⟨hop, hvacant⟩ := h
    refine ⟨hop, fun k hk hp => ?_⟩
    cases hown : own.lookup k with
    | some r =>
      have hsame (d : Db store) := @lookup_overlay_of_some store own d k r hown
      exact (hsame db').trans ((hsame db).symm.trans (hvacant k hk hp))
    | none =>
      have hsame (d : Db store) := @lookup_overlay_of_none store own d k hown
      have hbefore := (hsame db).symm.trans (hvacant k hk hp)
      exact (hsame db').trans (hl.rely args hop k hk hbefore)
  add _ _ _ _ h := h

def noOperation : Assertion accountContract :=
  .wrote fun own => ∀ id, own.lookup (Key.operation id) = none

theorem noOperation_insert {own : Pending store} {log : Log store AccountOp} {db : Db store} {k : Key}
    (hk : ∀ id, k ≠ .operation id) (h : noOperation.holds own log db)
    (r : Option (Row k)) : noOperation.holds (own.insert k r) log db :=
  fun id => (AList.lookup_insert_ne (Ne.symm (hk id))).trans (h id)

theorem vacant_insert {own : Pending store} {log : Log store AccountOp} {db : Db store} {k : Key}
    (hk : isBindingOf args.identityId k = false) (h : (vacant args p).holds own log db)
    (r : Option (Row k)) : (vacant args p).holds (own.insert k r) log db := by
  refine ⟨h.1, fun k' hk' hp => ?_⟩
  have hne : k' ≠ k := by
    rintro rfl
    simp [hk] at hk'
  exact (lookup_overlay_insert_ne own db r hne).trans (h.2 k' hk' hp)

theorem outline_deleteAll {key : β → Key} {stmt : ∀ b, Stmt (key b)}
    (hop : ∀ b id, key b ≠ .operation id)
    (hhit : ∀ b row new, store.exec (key b) (stmt b) row = some new → new = none)
    (hmiss : ∀ b row, store.exec (key b) (stmt b) row = none → row = none) (bs : List β) :
    Outline noOperation (vacant args fun k => p k ∨ q k ∧ ∀ b ∈ bs, k ≠ key b)
      (Script.forEach (fun b => execRow (key b) (stmt b)) bs)
      fun _ => vacant args fun k => p k ∨ q k := by
  let rest (bs : List β) := vacant args fun k => p k ∨ q k ∧ ∀ b ∈ bs, k ≠ key b
  have hone (b : β) (bs : List β) : Outline noOperation (rest (b :: bs))
      (execRow (key b) (stmt b)) fun _ => rest bs := by
    refine @Outline.exec_cases store AccountOp Err accountContract noOperation (rest (b :: bs))
      .database (key b) (stmt b) (rest bs) ?_ ?_
    · intro own log db new _ hJ hrest hx
      obtain rfl := hhit b _ new hx
      refine ⟨noOperation_insert (hop b) hJ _, hrest.1, fun k hk hp => ?_⟩
      by_cases heq : k = key b
      · subst heq
        exact lookup_overlay_insert own db (key b) none
      · rw [lookup_overlay_insert_ne own db _ heq]
        refine hrest.2 k hk (hp.imp id fun hq => ⟨hq.1, fun b' hb' => ?_⟩)
        obtain rfl | hb' := List.mem_cons.mp hb'
        · exact heq
        · exact hq.2 b' hb'
    · intro own log db _ hrest hx
      refine ⟨hrest.1, fun k hk hp => ?_⟩
      by_cases heq : k = key b
      · subst heq
        exact hmiss b _ hx
      · refine hrest.2 k hk (hp.imp id fun hq => ⟨hq.1, fun b' hb' => ?_⟩)
        obtain rfl | hb' := List.mem_cons.mp hb'
        · exact heq
        · exact hq.2 b' hb'
  have hall : Outline noOperation (rest bs) (Script.forEach (fun b => execRow (key b) (stmt b)) bs)
      fun _ => rest [] := Outline.forEach_rest hone
  refine hall.conseq (fun _ _ _ _ _ h => h) fun _ own log db _ _ h => ⟨h.1, fun k hk hp => ?_⟩
  exact h.2 k hk (hp.imp id fun hq => ⟨hq, fun _ hb => by cases hb⟩)

theorem execMember_delete {row new : Option Member} (h : execMember .delete row = some new) :
    new = none := by
  cases row <;> simp [execMember] at h
  exact h.symm

theorem execMember_delete_none {row : Option Member} (h : execMember .delete row = none) :
    row = none := by
  cases row <;> simp [execMember] at h
  rfl

theorem outline_deleteOrgMembers : Outline noOperation (vacant args p)
    (deleteOrgMembersWhere fun _ r => r = .user args.identityId)
    fun _ => vacant args fun k => p k ∨ ∃ orgId, k = .orgMember orgId (.user args.identityId) := by
  have hread : Outline noOperation (vacant args p)
      (query (.orgMembersWhere fun _ r => r = .user args.identityId)) fun rows : List (Id × Principal) =>
        vacant args fun k => p k ∨ (∃ orgId, k = .orgMember orgId (.user args.identityId)) ∧
          ∀ r ∈ rows, k ≠ .orgMember r.1 r.2 := by
    refine @Outline.read store AccountOp Err accountContract noOperation (vacant args p) .database
      (.orgMembersWhere fun _ r => r = .user args.identityId) _ fun own log db _ _ h => ⟨h.1, ?_⟩
    rintro k hk (hp | ⟨⟨orgId, rfl⟩, hrows⟩)
    · exact h.2 k hk hp
    · cases hrow : (overlay own db).lookup (Key.orgMember orgId (.user args.identityId)) with
      | none => rfl
      | some m =>
        have hmem : (orgId, Principal.user args.identityId, m) ∈ orgMembers (overlay own db) :=
          mem_orgMembers.mpr hrow
        refine absurd rfl (hrows (orgId, .user args.identityId) ?_)
        exact List.mem_map.mpr ⟨_, List.mem_filter.mpr ⟨hmem, by simp⟩, rfl⟩
  exact hread.bind fun rows => @outline_deleteAll (Id × Principal) args p
    (fun k => ∃ orgId, k = .orgMember orgId (.user args.identityId))
    (fun r => .orgMember r.1 r.2) (fun _ => .delete) (fun _ _ => by simp)
    (fun _ _ _ h => execMember_delete h) (fun _ _ h => execMember_delete_none h) rows

theorem outline_deleteSpaceMembers : Outline noOperation (vacant args p)
    (deleteSpaceMembersWhere fun _ r => r = .user args.identityId)
    fun _ => vacant args fun k => p k ∨ ∃ spaceId, k = .spaceMember spaceId (.user args.identityId) := by
  have hread : Outline noOperation (vacant args p)
      (query (.spaceMembersWhere fun _ r => r = .user args.identityId)) fun rows : List (Id × Principal) =>
        vacant args fun k => p k ∨ (∃ spaceId, k = .spaceMember spaceId (.user args.identityId)) ∧
          ∀ r ∈ rows, k ≠ .spaceMember r.1 r.2 := by
    refine @Outline.read store AccountOp Err accountContract noOperation (vacant args p) .database
      (.spaceMembersWhere fun _ r => r = .user args.identityId) _ fun own log db _ _ h => ⟨h.1, ?_⟩
    rintro k hk (hp | ⟨⟨spaceId, rfl⟩, hrows⟩)
    · exact h.2 k hk hp
    · cases hrow : (overlay own db).lookup (Key.spaceMember spaceId (.user args.identityId)) with
      | none => rfl
      | some m =>
        have hmem : (spaceId, Principal.user args.identityId, m) ∈ spaceMembers (overlay own db) :=
          mem_spaceMembers.mpr hrow
        refine absurd rfl (hrows (spaceId, .user args.identityId) ?_)
        exact List.mem_map.mpr ⟨_, List.mem_filter.mpr ⟨hmem, by simp⟩, rfl⟩
  exact hread.bind fun rows => @outline_deleteAll (Id × Principal) args p
    (fun k => ∃ spaceId, k = .spaceMember spaceId (.user args.identityId))
    (fun r => .spaceMember r.1 r.2) (fun _ => .delete) (fun _ _ => by simp)
    (fun _ _ _ h => execMember_delete h) (fun _ _ h => execMember_delete_none h) rows

/-! The phases -/

/- A commit without writes to operations ends none. -/
theorem not_succeeded_overlay {own : Pending store} {db : Db store} {id : Id}
    (h : own.lookup (Key.operation id) = none) (hdb : ¬ Succeeded db id) :
    ¬ Succeeded (overlay own db) id := by
  rintro ⟨o, ho, hdone⟩
  exact hdb ⟨o, (@lookup_overlay_of_none store own db (.operation id) h).symm.trans ho, hdone⟩

theorem between_runInTx_vacant {body : Service α}
    (hbody : Outline noOperation (vacant args p) body fun _ => vacant args q) :
    Between (vacant args p) (runInTx body) fun _ => vacant args q := by
  refine Between.transaction hbody (fun _ _ _ _ => rfl) fun _ own log db _ hJ hR => ⟨?_, hR⟩
  rintro - args' - hbefore hafter
  exact absurd hafter (not_succeeded_overlay (hJ args'.operationId) hbefore)

theorem between_revokeMemberships_vacant :
    Between (vacant args fun _ => False) (revokeMemberships args.identityId)
      fun _ => vacant args fun _ => True := by
  have hbody : Outline noOperation (vacant args fun _ => False)
      (do
        deleteOrgMembersWhere fun _ r => r = .user args.identityId
        deleteSpaceMembersWhere fun _ r => r = .user args.identityId)
      fun _ => vacant args fun _ => True := by
    refine outline_deleteOrgMembers.bind fun _ => outline_deleteSpaceMembers.conseq
      (fun _ _ _ _ _ h => h) fun _ own log db _ _ h => ⟨h.1, fun k hk _ => h.2 k hk ?_⟩
    cases k with
    | orgMember orgId r => exact .inl (.inr ⟨orgId, by rw [of_decide_eq_true hk]⟩)
    | spaceMember spaceId r => exact .inr ⟨spaceId, by rw [of_decide_eq_true hk]⟩
    | _ => cases hk
  exact between_runInTx_vacant hbody

theorem between_deleteRecords_vacant :
    Between (vacant args p) (deleteRecords args.identityId) fun _ => vacant args p := by
  refine between_runInTx_vacant ?_
  have hread : Outline noOperation (vacant args p) (query (.getIdentityByID args.identityId))
      fun _ => vacant args p :=
    @Outline.read store AccountOp Err accountContract noOperation (vacant args p) .database
      (.getIdentityByID args.identityId) _ fun _ _ _ _ _ h => h
  have hwrite (now : Time) : Outline noOperation (vacant args p)
      (writeRow .noRows (.identity args.identityId) (.softDeleteIdentity now))
      fun _ => vacant args p :=
    @Outline.write store AccountOp Err accountContract noOperation (vacant args p) .database
      .noRows (.identity args.identityId) (.softDeleteIdentity now) _
      fun own log db new _ hJ h _ =>
        ⟨@noOperation_insert own log db (.identity args.identityId) (fun _ => by simp) hJ new,
          @vacant_insert args p own log db (.identity args.identityId) rfl h new⟩
  have hask : Outline noOperation (vacant args p) (ask .now) fun _ => vacant args p :=
    @Outline.ask store AccountOp Err accountContract noOperation (vacant args p) .now
  have hfound (row : Option Identity) : Outline noOperation (vacant args p) (found row)
      fun _ => vacant args p :=
    outline_found (R := fun _ => vacant args p) fun _ _ _ _ h => h
  refine (outline_mapError _ (hread.bind hfound)).bind fun ident => ?_
  split
  · exact .ret ()
  · exact outline_mapError _ (hask.bind fun now => (hwrite now).bind fun _ => .ret ())

/- Ending an operation with an error is no success. -/
theorem between_failAccountOp {P : Assertion accountContract} (code : Nat) (message : String) :
    Between P (failAccountOp args code message) fun _ => .top := by
  have hwrite : Between P
      (writeRow .noRows (.operation args.operationId) (.failOperation code message)) fun _ => .top := by
    refine @Between.write store AccountOp Err accountContract P .database .noRows
      (.operation args.operationId) (.failOperation code message) _ fun log db new _ _ hx => ⟨?_, trivial⟩
    rintro - args' - hbefore ⟨o, ho, hdone, hcode⟩
    by_cases heq : args'.operationId = args.operationId
    · rw [heq] at ho
      have hput := (@lookup_put store db (.operation args.operationId) new).symm.trans ho
      subst hput
      cases hrow : db.lookup (Key.operation args.operationId) with
      | none => simp [hrow, execOperation] at hx
      | some row =>
        cases row with
        | gone => simp [hrow, execOperation] at hx
        | live o' =>
          simp only [hrow, execOperation, Option.some.injEq, Slot.live.injEq] at hx
          subst hx
          cases hcode
    · have hne : Key.operation args'.operationId ≠ Key.operation args.operationId := by simpa using heq
      exact absurd ⟨o, (@lookup_put_ne store db _ _ new hne).symm.trans ho, hdone, hcode⟩ hbefore
  exact (hwrite.bind fun _ => between_returned).bind fun _ => .ret ()

theorem between_completeAccountOp :
    Between (vacant args fun _ => True) (completeAccountOp args) fun _ => .top := by
  have hask : Between (vacant args fun _ => True) (ask (.marshalResult .empty))
      fun _ => vacant args fun _ => True :=
    @Between.ask store AccountOp Err accountContract (vacant args fun _ => True)
      (.marshalResult .empty)
  have hwrite (result : Json) : Between (vacant args fun _ => True)
      (writeRow .noRows (.operation args.operationId) (.completeOperation result)) fun _ => .top := by
    refine @Between.write store AccountOp Err accountContract _ .database .noRows
      (.operation args.operationId) (.completeOperation result) _ fun log db new _ hvacant _ => ⟨?_, trivial⟩
    rintro - args' hargs' - -
    have hop : log.op = .deleteAccount args := hvacant.1
    cases hop.symm.trans hargs'
    have hframe : ∀ k, (∀ id, k ≠ .operation id) →
        (put db (Key.operation args.operationId) new).lookup k = db.lookup k :=
      fun k hk => @lookup_put_ne store db _ k new (hk _)
    refine ⟨fun k hk => (hframe k ?_).trans (hvacant.2 k hk trivial), hframe⟩
    rintro id rfl
    cases hk
  refine hask.bind fun result => ?_
  cases result with
  | none => exact .throw _
  | some result => exact ((hwrite result).bind fun _ => between_returned).bind fun _ => .ret ()

theorem safe_deleteAccount_vacant (args : DeleteAccountArgs) (db : Db store) :
    Safe accountContract (deleteAccount args).run .idle ∅ (.start (.deleteAccount args)) db := by
  have hstart : (vacant args fun _ => False).holds ∅ (.start (.deleteAccount args)) db :=
    ⟨rfl, fun _ _ h => h.elim⟩
  refine Between.run (Q := fun _ => .top) ?_ hstart
  have hread : Between (vacant args fun _ => False)
      (query (.listSoleOwnerOrgsForIdentity args.identityId)) fun _ => vacant args fun _ => False :=
    @Between.read store AccountOp Err accountContract _ .database
      (.listSoleOwnerOrgsForIdentity args.identityId) _ fun _ _ _ h => h
  refine hread.bind fun (orgs : List Organization) => ?_
  split
  · exact between_failAccountOp _ _
  refine between_revokeMemberships_vacant.bind fun _ => ?_
  refine between_deleteRecords_vacant.attempt.bind fun r => ?_
  split
  · split
    · exact between_failAccountOp _ _
    · split
      · exact between_failAccountOp _ _
      · exact .throw _
  · exact .throw _
  · exact between_completeAccountOp

end session

/-! The access that is left -/

def EffectiveNowhere (cat : Catalog) (db : AList Row) (identity : Id) : Prop :=
  (∀ orgId, effectiveOrgPermissions cat db orgId (some identity) = []) ∧
    ∀ spaceId, effectiveSpacePermissions cat db spaceId (some identity) = []

/- No group that the identity is in is bound to a role with a permission. -/
def GroupsGrantNothing (cat : Catalog) (db : AList Row) (identity : Id) : Prop :=
  ∀ g, (g, identity) ∈ groupMembers db → ∀ scope m,
    (scope, .group g, m) ∈ orgMembers db ++ spaceMembers db → ∀ name, ¬ cat.Carries m.roleId name

variable {cat : Catalog} {identity : Id} {db db' : Db store}

theorem effectiveNowhere_iff_holds : EffectiveNowhere cat db identity ↔
    (∀ orgId name, ¬ HoldsAtOrg cat db orgId identity name) ∧
      ∀ spaceId name, ¬ HoldsAtSpace cat db spaceId identity name := by
  simp only [EffectiveNowhere, List.eq_nil_iff_forall_not_mem, mem_effectiveOrgPermissions,
    mem_effectiveSpacePermissions]

/-- Without bindings of its own an identity has what its groups have. -/
theorem effectiveNowhere_iff (h : Unbound identity db) :
    EffectiveNowhere cat db identity ↔ GroupsGrantNothing cat db identity := by
  rw [effectiveNowhere_iff_holds]
  constructor
  · rintro ⟨horgs, hspaces⟩ g hg scope m hmember name hcarries
    obtain horg | hspace := List.mem_append.mp hmember
    · exact horgs scope name ⟨_, m, horg, hg, hcarries⟩
    · exact hspaces scope name (.inl ⟨_, m, hspace, hg, hcarries⟩)
  · intro hgroups
    have horg (orgId : Id) (name : String) : ¬ HoldsAtOrg cat db orgId identity name := by
      rintro ⟨r, m, hmember, hspeaks, hcarries⟩
      cases r with
      | user id =>
        have hid : id = identity := hspeaks
        subst hid
        have hnone := h (.orgMember orgId (.user id)) (decide_eq_true rfl)
        cases hnone.symm.trans (mem_orgMembers.mp hmember)
      | group g => exact hgroups g hspeaks orgId m (List.mem_append_left _ hmember) name hcarries
    refine ⟨horg, fun spaceId name => ?_⟩
    rintro (⟨r, m, hmember, hspeaks, hcarries⟩ | ⟨s, -, hinherited⟩)
    · cases r with
      | user id =>
        have hid : id = identity := hspeaks
        subst hid
        have hnone := h (.spaceMember spaceId (.user id)) (decide_eq_true rfl)
        have hrow := mem_spaceMembers.mp hmember
        cases hnone.symm.trans hrow
      | group g => exact hgroups g hspeaks spaceId m (List.mem_append_right _ hmember) name hcarries
    · exact horg s.orgId name hinherited

theorem groupsGrantNothing_congr (h : ∀ k, (∀ id, k ≠ .operation id) → db'.lookup k = db.lookup k) :
    GroupsGrantNothing cat db' identity ↔ GroupsGrantNothing cat db identity := by
  have hgroups (g : Id) : (g, identity) ∈ groupMembers db' ↔ (g, identity) ∈ groupMembers db := by
    rw [mem_groupMembers, mem_groupMembers, h (.groupMember g identity) (fun _ => nofun)]
  have hmembers (scope g : Id) (m : Member) :
      (scope, .group g, m) ∈ orgMembers db' ++ spaceMembers db' ↔
        (scope, .group g, m) ∈ orgMembers db ++ spaceMembers db := by
    simp only [List.mem_append, mem_orgMembers, mem_spaceMembers, orgMemberRow]
    rw [h (.orgMember scope (.group g)) (fun _ => nofun),
      h (.spaceMember scope (.group g)) (fun _ => nofun)]
  simp only [GroupsGrantNothing, hgroups, hmembers]

/-! Runs -/

def addsNone (identity : Id) (db db' : Db store) : Bool :=
  db'.keys.all fun k => !isBindingOf identity k || (db.lookup k).isSome

def sparesAccount : AccountOp → Db store → Db store → Bool
  | .deleteAccount args => addsNone args.identityId
  | .other _ => fun _ _ => true

/-- While the deletion of an account is under way, no other commit binds its identity anew. -/
def SparesAccounts (st : State store AccountOp) : Label store AccountOp → Prop
  | .spawn _ => True
  | .act p a => ∀ st' ∈ step accountCode st (.act p a), ∀ t ∈ st.sessions.eraseIdx p,
    t.code.isDone = false → sparesAccount t.log.op st.db st'.db = true

instance (st : State store AccountOp) : (l : Label store AccountOp) → Decidable (SparesAccounts st l)
  | .spawn _ => inferInstanceAs (Decidable True)
  | .act _ _ => inferInstanceAs (Decidable (∀ st' ∈ _, ∀ t ∈ _, _ → _))

theorem addsNone_iff : addsNone identity db db' = true ↔ AddsNone identity db db' := by
  simp only [addsNone, List.all_eq_true, Bool.or_eq_true, Bool.not_eq_true', Option.isSome_iff_ne_none]
  constructor
  · intro h k hk hnone
    by_contra hsome
    have hmem : k ∈ db' := AList.lookup_isSome.mp (Option.isSome_iff_ne_none.mpr hsome)
    obtain hno | hrow := h k hmem
    · simp [hk] at hno
    · exact hrow hnone
  · intro h k hmem
    by_contra hno
    simp only [not_or, Bool.not_eq_false, not_not] at hno
    exact absurd (h k hno.1 hno.2) (Option.isSome_iff_ne_none.mp (AList.lookup_isSome.mpr hmem))

theorem SparesAccounts.meets {st : State store AccountOp} {l : Label store AccountOp}
    (h : SparesAccounts st l) : accountContract.Meets accountCode st l where
  allows _ _ _ _ _ _ _ _ _ _ := trivial
  accepts _ _ _ _ := trivial
  fits _ _ _ _ _ _ _ _ := trivial
  spares st' p q a t hl hstep hpq ht hd args hargs := by
    subst hl
    have hmem : t ∈ st.sessions.eraseIdx p :=
      List.mem_eraseIdx_iff_getElem?.mpr ⟨q, hpq.symm, ht⟩
    have hspares := h st' hstep t hmem hd
    rw [hargs] at hspares
    exact addsNone_iff.mp hspares

theorem accountContract_safe (op : AccountOp) (db : Db store) :
    Safe accountContract (accountCode op) .idle ∅ (.start op) db := by
  cases op with
  | deleteAccount args => exact safe_deleteAccount_vacant args db
  | other code =>
    refine safe_of_guar fun log hop _ _ args hargs => ?_
    cases hop.symm.trans hargs

/-- When the deletion of an account succeeds, its identity has no permission left exactly if its
groups have none. -/
theorem account_access_revoked {db : Db store} {st st' : State store AccountOp} {p : Nat}
    {a : Act store} {s : Session store AccountOp} {args : DeleteAccountArgs} (cat : Catalog)
    (hrun : Runs (step accountCode) SparesAccounts (.rest db) st)
    (hspares : SparesAccounts st (.act p a)) (hstep : step accountCode st (.act p a) = some st')
    (hp : st.sessions[p]? = some s) (hop : s.log.op = .deleteAccount args)
    (hbefore : ¬ Succeeded st.db args.operationId) (hafter : Succeeded st'.db args.operationId) :
    EffectiveNowhere cat st'.db args.identityId ↔ GroupsGrantNothing cat st.db args.identityId := by
  have hrest : (State.rest db).Ok accountContract := State.ok_rest trivial
  have hok := hrest.runs (fun op db _ => accountContract_safe op db) (fun _ _ h => h.meets) hrun
  obtain ⟨-, heq | ⟨p', s', a', hl, hp', hguar⟩⟩ :=
    hok.step (fun op db _ => accountContract_safe op db) hspares.meets hstep
  · exact absurd (heq ▸ hafter) hbefore
  · cases hl
    cases hp.symm.trans hp'
    have hconcludes := hguar args hop hbefore hafter
    rw [effectiveNowhere_iff hconcludes.unbound, groupsGrantNothing_congr hconcludes.frame]

/- A member of an organization, also in one of its groups. -/
def oneMember : Db store :=
  ((((((∅ : Db store).insert (Key.role 2) ⟨1, "viewer", true⟩).insert
    (Key.orgMember 1 (.user 3)) ⟨2, none, 1, (0, 0)⟩).insert
    (Key.group 4) ⟨1, .active⟩).insert (Key.groupMember 4 3) ()).insert
    (Key.identity 3) ⟨"a@b.c", "A", "", false, none⟩).insert
    (Key.operation 5) (.live ⟨"accounts/me", false, none, none, none, none, none, none, some 3, 9⟩)

/- The group is bound too. -/
def groupMember : Db store := oneMember.insert (Key.orgMember 1 (.group 4)) ⟨2, none, 1, (0, 0)⟩

def viewers : Catalog := ⟨[(2, 6)], [(6, "organizations.read")]⟩

def accountTrace : List (Label store AccountOp) :=
  [.spawn (.deleteAccount ⟨5, 3⟩), .run 0, .run 0, .run 0, .run 0, .run 0, .run 0, .run 0, .run 0,
    .told 0 .now 7, .run 0, .run 0, .told 0 (.marshalResult .empty) (some "{}")]

def lastPhase (db : Db store) : Option (State store AccountOp) :=
  exec (step accountCode) (.rest db) accountTrace

def deleted (db : Db store) : Option (State store AccountOp) :=
  (lastPhase db).bind fun st => step accountCode st (.run 0)

theorem account_access_revoked_member :
    EffectiveNowhere viewers ((deleted oneMember).get (by decide)).db 3 ∧
      GroupsGrantNothing viewers ((lastPhase oneMember).get (by decide)).db 3 := by
  have hgroups : GroupsGrantNothing viewers ((lastPhase oneMember).get (by decide)).db 3 := by
    intro g _ scope m hmember
    have hnone : orgMembers ((lastPhase oneMember).get (by decide)).db ++
        spaceMembers ((lastPhase oneMember).get (by decide)).db = [] := by decide
    rw [hnone] at hmember
    cases hmember
  exact ⟨(@account_access_revoked oneMember _ _ 0 .run _ ⟨5, 3⟩ viewers
    (Runs.of_exec accountTrace (Option.some_get _).symm (by decide)) (by decide)
    rfl rfl rfl (by decide) (by decide)).mpr hgroups, hgroups⟩

theorem account_access_not_revoked :
    ¬ ∀ (cat : Catalog) (db : Db store) (st st' : State store AccountOp) (p : Nat) (a : Act store)
      (s : Session store AccountOp) (args : DeleteAccountArgs),
      Runs (step accountCode) SparesAccounts (.rest db) st → SparesAccounts st (.act p a) →
      step accountCode st (.act p a) = some st' → st.sessions[p]? = some s →
      s.log.op = .deleteAccount args → ¬ Succeeded st.db args.operationId →
      Succeeded st'.db args.operationId → EffectiveNowhere cat st'.db args.identityId := by
  intro h
  have hnowhere : EffectiveNowhere viewers ((deleted groupMember).get (by decide)).db 3 :=
    h viewers groupMember ((lastPhase groupMember).get (by decide)) _ 0 .run _ ⟨5, 3⟩
      (Runs.of_exec accountTrace (Option.some_get _).symm (by decide)) (by decide)
      rfl rfl rfl (by decide) (by decide)
  exact absurd (hnowhere.1 1) (by decide)

end Pivox.Organizations
