import Pivox.Organizations.Lifecycle

/-!
What the programs of the service ask of a rowwise contract: that it grants the statements they make.
-/

namespace Pivox.Organizations
open ReadCommitted

variable {Op α : Type} {R : Rowwise store Op} {op : Op}

/- The statements of the programs below; the two others are left to those who make them. -/
def Ordinary : (k : Key) → Stmt k → Prop
  | .domain _, .markDomainVerified _ => False
  | .domain _, .deleteDomain _ => False
  | _, _ => True

/-- In a session about `op` the contract grants every ordinary statement. -/
def Grants (R : Rowwise store Op) (op : Op) : Prop :=
  ∀ (k : Key) (stmt : Stmt k), Ordinary k stmt → R.Lawful op k stmt

theorem Grants.operation (h : Grants R op) (id : Id) (stmt : OperationStmt) :
    R.Lawful op (.operation id) stmt := h (.operation id) stmt trivial

/- The statement that the tick makes, and the one that removes a domain. -/
def GrantsVerified (R : Rowwise store Op) (op : Op) : Prop :=
  ∀ id now, R.Lawful op (.domain id) (.markDomainVerified now)

def GrantsRemoval (R : Rowwise store Op) (op : Op) : Prop :=
  ∀ id orgId, R.Lawful op (.domain id) (.deleteDomain orgId)

theorem kept_query (q : Query) : R.KeptBy op (query q) :=
  @Rowwise.kept_read store Op Err R .database op q

theorem kept_ask (q : Ask) : R.KeptBy op (ask q) :=
  @Rowwise.kept_ask store Op Err R op q

theorem kept_runInTx {body : Service α} (h : R.KeptBy op body) : R.KeptBy op (runInTx body) :=
  Rowwise.kept_transaction h.body

theorem kept_execAll {β : Type} {k : β → Key} {stmt : ∀ b, Stmt (k b)}
    (h : ∀ b, R.Lawful op (k b) (stmt b)) (bs : List β) :
    R.KeptBy op (Script.forEach (fun b => execRow (k b) (stmt b)) bs) :=
  Rowwise.kept_forEach (fun b => Rowwise.kept_exec (h b)) bs

theorem kept_marshalMetadata (metadata : Option Metadata) :
    R.KeptBy op (marshalMetadata metadata) := by
  cases metadata with
  | none => exact Rowwise.kept_pure none
  | some m =>
    refine (kept_ask _).bind fun json => ?_
    cases json with
    | none => exact Rowwise.kept_throw _
    | some json => exact Rowwise.kept_pure _

theorem kept_getOperation (id : Id) : R.KeptBy op (getOperation id) :=
  (kept_query _).bind fun row => kept_found row

theorem kept_getDomainByID (id orgId : Id) : R.KeptBy op (getDomainByID id orgId) :=
  (kept_query _).bind fun row => kept_found row

theorem kept_getIdentityByID (id : Id) : R.KeptBy op (getIdentityByID id) :=
  (kept_query _).bind fun row => kept_found row

theorem kept_jobCompleteTx : R.KeptBy op jobCompleteTx := by
  refine (kept_ask _).bind fun completed => ?_
  cases completed with
  | true => exact Rowwise.kept_pure ()
  | false => exact Rowwise.kept_throw _

theorem kept_verifyDomains (hverified : GrantsVerified R op) : R.KeptBy op verifyDomains := by
  refine (kept_query _).bind fun pending => Rowwise.kept_forEach (fun d => ?_) pending
  refine (kept_ask _).bind fun records => ?_
  split
  · refine Rowwise.KeptBy.bind (Rowwise.KeptBy.attempt ?_) fun _ => Rowwise.kept_pure ()
    exact (kept_ask _).bind fun now => (Rowwise.kept_write (hverified d.1 now)).bind
      fun row => kept_returned row
  · exact Rowwise.kept_pure ()

theorem kept_cascadeFrom {key : Key} {stmt : Stmt key} {next : Service Unit}
    (hstmt : R.Lawful op key stmt) (hnext : R.KeptBy op next) :
    R.KeptBy op (cascadeFrom key stmt next) := by
  refine (Rowwise.kept_write hstmt).attempt.bind fun res => ?_
  split
  · exact hnext
  · exact Rowwise.kept_pure ()
  · exact Rowwise.kept_throw _

section grants
variable (h : Grants R op)
include h

theorem kept_operationRow (missing : Err) (id : Id) (stmt : OperationStmt) :
    R.KeptBy op (do returned (← writeRow missing (.operation id) stmt) : Service Operation) :=
  (Rowwise.kept_write (h.operation id stmt)).bind fun row => kept_returned row

theorem kept_createOperation (id : Id) (p : CreateOperationParams) :
    R.KeptBy op (createOperation id p) :=
  (kept_ask _).bind fun _ => kept_operationRow h _ _ _

theorem kept_completeOperation (id : Id) (result : Json) :
    R.KeptBy op (completeOperation id result) :=
  kept_operationRow h _ _ _

theorem kept_failOperation (id : Id) (code : Nat) (message : String) :
    R.KeptBy op (failOperation id code message) :=
  kept_operationRow h _ _ _

theorem kept_cancelRunningOpsForOrg (orgId : Id) :
    R.KeptBy op (cancelRunningOpsForOrg orgId) :=
  (kept_query _).bind fun ids => kept_execAll (fun id => h.operation id _) ids

theorem kept_cancelDomainOpsForDomain (domainResource : String) :
    R.KeptBy op (cancelDomainOpsForDomain domainResource) :=
  (kept_query _).bind fun ids => kept_execAll (fun id => h.operation id _) ids

theorem kept_newLro (parent : String) (opts : NewLroOpts) : R.KeptBy op (newLro parent opts) := by
  refine (kept_marshalMetadata _).bind fun metadata => (kept_ask _).bind fun down => ?_
  cases down with
  | true => exact Rowwise.kept_throw _
  | false =>
    refine Rowwise.kept_transaction (Rowwise.KeptBy.body ?_)
    refine Rowwise.KeptBy.bind ?_ fun id =>
      (kept_mapError _ (kept_createOperation h id _)).bind fun created =>
        (kept_ask _).bind fun queued => ?_
    · cases opts.operationId with
      | some id => exact Rowwise.kept_pure id
      | none => exact kept_ask Ask.newId
    · cases queued with
      | true => exact Rowwise.kept_pure created
      | false => exact Rowwise.kept_throw _

theorem kept_deleteOperation (name : Option Id) : R.KeptBy op (deleteOperation name) := by
  cases name with
  | none => exact Rowwise.kept_throw _
  | some id =>
    refine (kept_mapError _ (kept_getOperation id)).bind fun o => ?_
    cases o.done with
    | true => exact kept_mapError _ (Rowwise.kept_exec (h.operation id _))
    | false => exact Rowwise.kept_throw _

theorem kept_cancelOperation (name : Option Id) : R.KeptBy op (cancelOperation name) := by
  cases name with
  | none => exact Rowwise.kept_throw _
  | some id =>
    refine (Rowwise.kept_write (h.operation id _)).attempt.bind fun res => ?_
    split
    · exact Rowwise.kept_pure ()
    · refine (kept_getOperation id).attempt.bind fun found => ?_
      cases found with
      | ok _ => exact Rowwise.kept_pure ()
      | error _ => exact Rowwise.kept_throw _
    · exact Rowwise.kept_throw _

theorem kept_recoverPending : R.KeptBy op recoverPending :=
  (kept_query _).bind fun ids => Rowwise.kept_forEach
    (fun id => (kept_failOperation h id _ _).attempt.bind fun _ => Rowwise.kept_pure ()) ids

theorem kept_reapOperations : R.KeptBy op reapOperations :=
  kept_runInTx ((kept_ask _).bind fun _ => (kept_query _).bind fun ids =>
    kept_execAll (fun id => h.operation id _) ids)

theorem kept_completeOperationTx (id : Id) (payload : Payload) :
    R.KeptBy op (completeOperationTx id payload) := by
  refine (kept_ask _).bind fun result => ?_
  cases result with
  | none => exact Rowwise.kept_throw _
  | some result => exact (kept_completeOperation h id result).bind fun _ => kept_jobCompleteTx

theorem kept_failOperationTx (id : Id) (message : String) :
    R.KeptBy op (failOperationTx id message) :=
  (kept_failOperation h id _ message).bind fun _ => kept_jobCompleteTx

theorem kept_createDomainRow (p : CreateDomainParams) : R.KeptBy op (createDomainRow p) := by
  refine kept_runInTx ((kept_query _).bind fun claimed => ?_)
  cases claimed with
  | true => exact Rowwise.kept_throw _
  | false =>
    exact (kept_ask _).bind fun id => (kept_ask _).bind fun now =>
      ((Rowwise.kept_write (h (.domain id) (.createDomain p now) trivial)).bind
        fun row => kept_returned row).bind fun d => Rowwise.kept_pure _

theorem kept_createDomain (scope : RequestScope) (req : CreateDomainRequest) :
    R.KeptBy op (createDomain scope req) := by
  unfold createDomain
  split
  · exact Rowwise.kept_throw _
  · split
    · exact Rowwise.kept_throw _
    · refine (kept_ask _).bind fun token => ?_
      cases token with
      | none => exact Rowwise.kept_throw _
      | some token =>
        exact (kept_mapError _ (kept_createDomainRow h _)).bind fun _ =>
          (kept_ask _).bind fun _ => kept_newLro h _ _

theorem kept_updateMeta (args : VerifyDomainArgs) (phase : CreateDomainPhase) (attempts : Nat) :
    R.KeptBy op (updateMeta args phase attempts) := by
  refine (kept_ask _).bind fun now => (kept_ask _).bind fun metadata => ?_
  cases metadata with
  | none => exact Rowwise.kept_pure ()
  | some metadata =>
    exact (Rowwise.kept_exec (h.operation _ _)).attempt.bind fun _ => Rowwise.kept_pure ()

theorem kept_failOp (args : VerifyDomainArgs) (message : String) :
    R.KeptBy op (failOp args message) :=
  (kept_failOperation h _ _ _).attempt.bind fun _ => Rowwise.kept_pure ()

theorem kept_completeVerified (args : VerifyDomainArgs) (d : Domain) (attempts : Nat) :
    R.KeptBy op (completeVerified args d attempts) := by
  refine (kept_updateMeta h _ _ _).bind fun _ => (kept_ask _).bind fun result => ?_
  cases result with
  | none => exact Rowwise.kept_throw _
  | some result => exact (kept_completeOperation h _ _).bind fun _ => Rowwise.kept_pure ()

theorem kept_markDomainFailed (id : Id) : R.KeptBy op (markDomainFailed id) :=
  (kept_ask _).bind fun now =>
    (Rowwise.kept_write (h (.domain id) (.markDomainFailed now) trivial)).bind
      fun row => kept_returned row

theorem kept_expire (args : VerifyDomainArgs) (attempts : Nat) :
    R.KeptBy op (expire args attempts) :=
  (kept_markDomainFailed h _).attempt.bind fun _ =>
    (kept_updateMeta h _ _ _).bind fun _ => kept_failOp h _ _

theorem kept_getDomainByNameForUpdate (domain : String) (orgId : Id) :
    R.KeptBy op (getDomainByNameForUpdate domain orgId) :=
  (kept_query _).bind fun row => (kept_found row).bind fun d =>
    ((Rowwise.kept_write (h (.domain d.1) (.getDomainByNameForUpdate _ _) trivial)).bind
      fun row => kept_returned row).bind fun _ => Rowwise.kept_pure _

theorem kept_check (args : VerifyDomainArgs) (attempts : Nat) :
    R.KeptBy op (check args attempts) := by
  refine (kept_getOperation _).bind fun o => ?_
  split
  · exact Rowwise.kept_pure true
  · refine (kept_getDomainByID _ _).attempt.bind fun found => ?_
    split
    · exact (kept_failOp h _ _).bind fun _ => Rowwise.kept_pure true
    · exact Rowwise.kept_throw _
    · split
      · exact (kept_completeVerified h _ _ _).bind fun _ => Rowwise.kept_pure true
      · exact (kept_failOp h _ _).bind fun _ => Rowwise.kept_pure true
      · refine (kept_ask _).bind fun now => ?_
        split
        · exact (kept_expire h _ _).bind fun _ => Rowwise.kept_pure true
        · exact (kept_updateMeta h _ _ _).bind fun _ => Rowwise.kept_pure false

theorem kept_poll (args : VerifyDomainArgs) (ticks attempts : Nat) :
    R.KeptBy op (poll args ticks attempts) := by
  induction ticks generalizing attempts with
  | zero => exact Rowwise.kept_throw _
  | succ ticks ih =>
    refine (kept_check h args attempts).bind fun terminal => ?_
    cases terminal with
    | true => exact Rowwise.kept_pure ()
    | false => exact ih _

theorem kept_verifyDomain (args : VerifyDomainArgs) : R.KeptBy op (verifyDomain args) := by
  refine (kept_check h args 1).bind fun terminal => ?_
  cases terminal with
  | true => exact Rowwise.kept_pure ()
  | false => exact (kept_ask _).bind fun ticks => kept_poll h args ticks 2

theorem kept_guardRemoval (scope : RequestScope) (req : DeleteDomainRequest) (row : Domain) :
    R.KeptBy op (guardRemoval scope req row) := by
  unfold guardRemoval
  split
  · exact Rowwise.kept_throw _
  · split
    · refine (Rowwise.kept_write (h (.ssoConfig scope.orgId) _ trivial)).attempt.bind
        fun sso => ?_
      split
      · exact Rowwise.kept_pure ()
      · exact Rowwise.kept_throw _
      · exact Rowwise.kept_pure ()
      · split
        · refine (kept_query _).bind fun count => ?_
          split
          · exact Rowwise.kept_throw _
          · exact Rowwise.kept_pure ()
        · exact Rowwise.kept_pure ()
    · exact Rowwise.kept_pure ()

theorem kept_deleteDomain (hgone : GrantsRemoval R op) (scope : RequestScope)
    (req : DeleteDomainRequest) : R.KeptBy op (deleteDomain scope req) := by
  unfold deleteDomain
  split
  · exact Rowwise.kept_throw _
  · exact kept_runInTx ((kept_mapError _ (kept_getDomainByNameForUpdate h _ _)).bind fun d =>
      (kept_guardRemoval h _ _ _).bind fun _ =>
        (kept_mapError _ (kept_cancelDomainOpsForDomain h _)).bind fun _ =>
          (kept_mapError _ (Rowwise.kept_exec (hgone d.1 _))).bind fun _ => Rowwise.kept_pure _)

theorem kept_deleteOrgMembersWhere (holds : Id → Principal → Bool) :
    R.KeptBy op (deleteOrgMembersWhere holds) :=
  (kept_query _).bind fun rows =>
    kept_execAll (fun r : Id × Principal => h (.orgMember r.1 r.2) _ trivial) rows

theorem kept_deleteSpaceMembersWhere (holds : Id → Principal → Bool) :
    R.KeptBy op (deleteSpaceMembersWhere holds) :=
  (kept_query _).bind fun rows =>
    kept_execAll (fun r : Id × Principal => h (.spaceMember r.1 r.2) _ trivial) rows

theorem kept_deleteGroupMembersWhere (holds : Id → Id → Bool) :
    R.KeptBy op (deleteGroupMembersWhere holds) :=
  (kept_query _).bind fun rows =>
    kept_execAll (fun r : Id × Id => h (.groupMember r.1 r.2) _ trivial) rows

theorem kept_spaceCascade (id : Id) : R.KeptBy op (spaceCascade id) :=
  (kept_deleteSpaceMembersWhere h _).bind fun _ => (kept_query _).bind fun ids =>
    kept_execAll (fun id => h.operation id _) ids

theorem kept_purgeSpaceOf (orgId id : Id) : R.KeptBy op (purgeSpaceOf orgId id) :=
  kept_cascadeFrom (h (.space id) _ trivial) (kept_spaceCascade h id)

theorem kept_groupCascade (id : Id) : R.KeptBy op (groupCascade id) :=
  (kept_deleteGroupMembersWhere h _).bind fun _ =>
    (kept_deleteOrgMembersWhere h _).bind fun _ => kept_deleteSpaceMembersWhere h _

theorem kept_purgeGroupOf (orgId id : Id) : R.KeptBy op (purgeGroupOf orgId id) :=
  kept_cascadeFrom (h (.group id) _ trivial) (kept_groupCascade h id)

theorem kept_purgeRolesOf (orgId : Id) : R.KeptBy op (purgeRolesOf orgId) := by
  refine (kept_query _).bind fun referenced => ?_
  cases referenced with
  | true => exact Rowwise.kept_throw _
  | false =>
    exact (kept_query _).bind fun ids => kept_execAll (fun id => h (.role id) _ trivial) ids

theorem kept_organizationCascade (hgone : GrantsRemoval R op) (orgId : Id) :
    R.KeptBy op (organizationCascade orgId) := by
  refine (kept_query _).bind fun ids =>
    (Rowwise.kept_forEach (kept_purgeSpaceOf h orgId) ids).bind fun _ => ?_
  refine (kept_query _).bind fun ids =>
    (Rowwise.kept_forEach (kept_purgeGroupOf h orgId) ids).bind fun _ => ?_
  refine (kept_deleteOrgMembersWhere h _).bind fun _ =>
    (kept_purgeRolesOf h orgId).bind fun _ => (kept_query _).bind fun ids => ?_
  refine (kept_execAll (fun id => hgone id orgId) ids).bind fun _ => ?_
  refine (Rowwise.kept_exec (h (.ssoConfig orgId) _ trivial)).bind fun _ => ?_
  exact (kept_query _).bind fun ids => kept_execAll (fun id => h.operation id _) ids

theorem kept_softDeleteOrganization (id : Id) (deletedBy : Option Id) :
    R.KeptBy op (softDeleteOrganization id deletedBy) :=
  (kept_ask _).bind fun now =>
    (Rowwise.kept_write (h (.organization id) (.softDeleteOrganization deletedBy now) trivial)).bind
      fun row => kept_returned row

theorem kept_undeleteOrganization (id : Id) : R.KeptBy op (undeleteOrganization id) :=
  (kept_ask _).bind fun now =>
    (Rowwise.kept_write (h (.organization id) (.undeleteOrganization now) trivial)).bind
      fun row => kept_returned row

theorem kept_purgeOrganization (hgone : GrantsRemoval R op) (id : Id) (etag : Etag) :
    R.KeptBy op (purgeOrganization id etag) :=
  (Rowwise.kept_write (h (.organization id) (.purgeOrganization etag) trivial)).bind
    fun _ => kept_organizationCascade h hgone id

theorem kept_deleteOrg (hgone : GrantsRemoval R op) (args : DeleteOrgArgs) :
    R.KeptBy op (deleteOrg args) := by
  refine kept_runInTx ((kept_cancelRunningOpsForOrg h _).bind fun _ => ?_)
  split
  · refine (kept_purgeOrganization h hgone _ _).attempt.bind fun res => ?_
    split
    · exact kept_failOperationTx h _ _
    · exact Rowwise.kept_throw _
    · exact kept_completeOperationTx h _ _
  · refine (kept_softDeleteOrganization h _ _).attempt.bind fun res => ?_
    split
    · exact kept_failOperationTx h _ _
    · exact Rowwise.kept_throw _
    · exact kept_completeOperationTx h _ _

theorem kept_undeleteOrg (args : UndeleteOrgArgs) : R.KeptBy op (undeleteOrg args) := by
  refine kept_runInTx ((kept_undeleteOrganization h _).attempt.bind fun res => ?_)
  split
  · exact kept_completeOperationTx h _ _
  · exact kept_failOperationTx h _ _
  · exact Rowwise.kept_throw _

theorem kept_softDeleteSpace (id : Id) (deletedBy : Option Id) :
    R.KeptBy op (softDeleteSpace id deletedBy) :=
  (kept_ask _).bind fun now =>
    (Rowwise.kept_write (h (.space id) (.softDeleteSpace deletedBy now) trivial)).bind
      fun row => kept_returned row

theorem kept_undeleteSpaceRow (id : Id) (updatedBy : Option Id) :
    R.KeptBy op (undeleteSpaceRow id updatedBy) :=
  (kept_ask _).bind fun now =>
    (Rowwise.kept_write (h (.space id) (.undeleteSpace updatedBy now) trivial)).bind
      fun row => kept_returned row

theorem kept_purgeSpace (id : Id) (etag : Etag) : R.KeptBy op (purgeSpace id etag) :=
  (Rowwise.kept_write (h (.space id) (.purgeSpace etag) trivial)).bind
    fun _ => kept_spaceCascade h id

theorem kept_deleteSpace (args : DeleteSpaceArgs) : R.KeptBy op (deleteSpace args) := by
  refine kept_runInTx ?_
  split
  · refine (kept_purgeSpace h _ _).attempt.bind fun res => ?_
    split
    · exact kept_failOperationTx h _ _
    · exact Rowwise.kept_throw _
    · exact kept_completeOperationTx h _ _
  · refine (kept_softDeleteSpace h _ _).attempt.bind fun res => ?_
    split
    · exact kept_failOperationTx h _ _
    · exact Rowwise.kept_throw _
    · exact kept_completeOperationTx h _ _

theorem kept_undeleteSpace (args : UndeleteSpaceArgs) : R.KeptBy op (undeleteSpace args) := by
  refine kept_runInTx ((kept_undeleteSpaceRow h _ _).attempt.bind fun res => ?_)
  split
  · exact kept_completeOperationTx h _ _
  · exact kept_failOperationTx h _ _
  · exact Rowwise.kept_throw _

theorem kept_revokeMemberships (identityId : Id) : R.KeptBy op (revokeMemberships identityId) :=
  kept_runInTx ((kept_deleteOrgMembersWhere h _).bind fun _ => kept_deleteSpaceMembersWhere h _)

theorem kept_deleteRecords (identityId : Id) : R.KeptBy op (deleteRecords identityId) := by
  refine kept_runInTx ((kept_mapError _ (kept_getIdentityByID _)).bind fun ident => ?_)
  split
  · exact Rowwise.kept_pure ()
  · exact kept_mapError _ ((kept_ask _).bind fun now =>
      (Rowwise.kept_write (h (.identity identityId) (.softDeleteIdentity now) trivial)).bind
        fun _ => Rowwise.kept_pure ())

theorem kept_failAccountOp (args : DeleteAccountArgs) (code : Nat) (message : String) :
    R.KeptBy op (failAccountOp args code message) :=
  (kept_failOperation h _ _ _).bind fun _ => Rowwise.kept_pure ()

theorem kept_completeAccountOp (args : DeleteAccountArgs) :
    R.KeptBy op (completeAccountOp args) := by
  refine (kept_ask _).bind fun result => ?_
  cases result with
  | none => exact Rowwise.kept_throw _
  | some result => exact (kept_completeOperation h _ _).bind fun _ => Rowwise.kept_pure ()

theorem kept_deleteAccount (args : DeleteAccountArgs) : R.KeptBy op (deleteAccount args) := by
  refine (kept_query _).bind fun orgs => ?_
  split
  · exact kept_failAccountOp h _ _ _
  · refine (kept_revokeMemberships h _).bind fun _ =>
      (kept_deleteRecords h _).attempt.bind fun res => ?_
    split
    · split
      · exact kept_failAccountOp h _ _ _
      · split
        · exact kept_failAccountOp h _ _ _
        · exact Rowwise.kept_throw _
    · exact Rowwise.kept_throw _
    · exact kept_completeAccountOp h _

end grants

end Pivox.Organizations
