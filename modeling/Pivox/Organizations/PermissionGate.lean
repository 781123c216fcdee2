import Pivox.Organizations.Permissions

/-!
The gate before the handlers: which organization or space a request is about, whether the caller has
the permission there, and how a stream passes the gate with its first message.
-/

namespace Pivox.Organizations
open ReadCommitted

/-! Scopes and what comes of a check -/

/- The two kinds that the gate knows, and the number of any other. -/
inductive ScopeKind where
  | org
  | space
  | unknown (n : Int)
  deriving DecidableEq, Repr

/- `slug` is the organization's, or the space's with the organization's beside it. -/
structure ScopeRef where
  kind : ScopeKind
  slug : String
  orgSlug : String
  deriving DecidableEq, Repr

def orgScopeRef (slug : String) : ScopeRef := ⟨.org, slug, ""⟩
def spaceScopeRef (orgSlug spaceSlug : String) : ScopeRef := ⟨.space, spaceSlug, orgSlug⟩

/- A piece of an error's text; `quoted` is a %q. -/
inductive Piece where
  | text (s : String)
  | quoted (s : String)
  deriving DecidableEq, Repr

/- An extractor's errors are its own. -/
inductive GateErr (E : Type) where
  | extract (err : E)
  | notFound (resourceType resourceName : String)
  | internal (message : String)
  | permissionDenied (message : List Piece)
  | failedPrecondition (message : List Piece)
  deriving DecidableEq, Repr

structure ResolvedOrg where
  id : Id
  slug : String
  row : Organization
  deriving DecidableEq

structure ResolvedSpace where
  id : Id
  slug : String
  row : Space
  deriving DecidableEq

/- What the gate attaches to a call's context. -/
structure Context where
  resolvedOrg : Option ResolvedOrg
  resolvedSpace : Option ResolvedSpace
  deriving DecidableEq

structure RegistryEntry (M E : Type) where
  permission : String
  extract : M → Except E ScopeRef

/- Construction panics for a method that is registered and exempt. -/
structure PermissionGate (M E : Type) where
  registry : String → Option (RegistryEntry M E)
  exempt : String → Bool
  not_both : ∀ method, exempt method = true → registry method = none

/- What each of the queries of one check reads: other calls write between them, and any may fail. -/
structure GateReads where
  organization : Option (AList Row)
  space : Option (AList Row)
  permissions : Option (Catalog × AList Row)

/-! The queries -/

def getOrganizationByNameForGate (name : String) (db : AList Row) : Option (Id × Organization) :=
  (organizations db).find? fun r => r.2.name = name

def getSpaceByNameForGate (orgId : Id) (name : String) (db : AList Row) : Option (Id × Space) :=
  (spaces db).find? fun r => r.2.orgId = orgId && r.2.name = name

variable {M E T : Type}

def gateOrganization (reads : GateReads) (slug : String) :
    Except (GateErr E) (Id × Organization) :=
  match reads.organization.map (getOrganizationByNameForGate slug) with
  | none => .error (.internal "lookup organization")
  | some none => .error (.notFound "organization" slug)
  | some (some org) => .ok org

def gateSpace (reads : GateReads) (orgId : Id) (scope : ScopeRef) :
    Except (GateErr E) (Id × Space) :=
  match reads.space.map (getSpaceByNameForGate orgId scope.slug) with
  | none => .error (.internal "lookup space")
  | some none => .error (.notFound "space" (scope.orgSlug ++ "/" ++ scope.slug))
  | some (some space) => .ok space

def gatePermission (reads : GateReads) (caller : Id) (target : Target) (permission : String)
    (denied : List Piece) : Except (GateErr E) Unit :=
  match reads.permissions with
  | none => .error (.internal "resolve permission")
  | some (cat, db) =>
    match hasPermission cat db caller target permission with
    | .error _ => .error (.internal "resolve permission")
    | .ok false => .error (.permissionDenied denied)
    | .ok true => .ok ()

/-! The check -/

def organizationsDelete : String := "organizations.delete"
def spacesDelete : String := "spaces.delete"
def usersDelete : String := "users.delete"

def isReadPermission (permission : String) : Bool := permission.endsWith ".read"

def restoreText (call : String) : String :=
  " is in DELETE_REQUESTED state; restore it via " ++ call ++
    " or wait for purge before mutating"

def enforceSoftDeleteGate (state : ResourceState) (permission orgSlug : String) :
    Except (GateErr E) Unit :=
  if state ≠ .deleteRequested then .ok ()
  else if isReadPermission permission || permission = organizationsDelete ||
      permission = usersDelete then .ok ()
  else .error (.failedPrecondition [.text "organization ", .quoted orgSlug,
    .text (restoreText "UndeleteOrganization")])

def enforceSpaceSoftDeleteGate (state : ResourceState) (permission orgSlug spaceSlug : String) :
    Except (GateErr E) Unit :=
  if state ≠ .deleteRequested then .ok ()
  else if isReadPermission permission || permission = spacesDelete then .ok ()
  else .error (.failedPrecondition [.text "space ", .quoted orgSlug, .text "/", .quoted spaceSlug,
    .text (restoreText "UndeleteSpace")])

def checkOrgScope (reads : GateReads) (ctx : Context) (permission : String) (scope : ScopeRef)
    (caller : Id) : Except (GateErr E) Context := do
  let (orgId, org) ← gateOrganization reads scope.slug
  gatePermission reads caller (orgTarget orgId) permission
    [.text "caller lacks ", .quoted permission, .text " on organization ", .quoted scope.slug]
  enforceSoftDeleteGate org.state permission scope.slug
  pure { ctx with resolvedOrg := some ⟨orgId, scope.slug, org⟩ }

def checkSpaceScope (reads : GateReads) (ctx : Context) (permission : String) (scope : ScopeRef)
    (caller : Id) : Except (GateErr E) Context := do
  let (orgId, org) ← gateOrganization reads scope.orgSlug
  let (spaceId, space) ← gateSpace reads orgId scope
  gatePermission reads caller (spaceTarget spaceId) permission
    [.text "caller lacks ", .quoted permission, .text " on space ", .quoted scope.orgSlug,
      .text "/", .quoted scope.slug]
  enforceSoftDeleteGate org.state permission scope.orgSlug
  enforceSpaceSoftDeleteGate space.state permission scope.orgSlug scope.slug
  pure { ctx with
    resolvedOrg := some ⟨orgId, scope.orgSlug, org⟩
    resolvedSpace := some ⟨spaceId, scope.slug, space⟩ }

/- The check of a unary call. -/
def PermissionGate.check (g : PermissionGate M E) (reads : GateReads) (ctx : Context) (caller : Id)
    (method : String) (req : M) : Except (GateErr E) Context :=
  if g.exempt method then .ok ctx
  else
    match g.registry method with
    | none => .error (.internal "permission gate not configured for this method")
    | some entry =>
      match entry.extract req with
      | .error err => .error (.extract err)
      | .ok scope =>
        match scope.kind with
        | .org => checkOrgScope reads ctx entry.permission scope caller
        | .space => checkSpaceScope reads ctx entry.permission scope caller
        | .unknown _ => .error (.internal "permission gate misconfigured for this method")

/-! Streams -/

structure PermissionStream (M E : Type) where
  entry : RegistryEntry M E
  caller : Id
  ctx : Context
  checked : Bool

/- How a stream comes to its handler: as it is, not at all, or behind the gate. -/
inductive OpenedStream (M E : Type) where
  | bare (ctx : Context)
  | refused (err : GateErr E)
  | wrapped (s : PermissionStream M E)

def PermissionGate.openStream (g : PermissionGate M E) (ctx : Context) (caller : Id)
    (method : String) : OpenedStream M E :=
  if g.exempt method then .bare ctx
  else
    match g.registry method with
    | none => .refused (.internal "permission gate not configured for this method")
    | some entry => .wrapped ⟨entry, caller, ctx, false⟩

inductive RecvErr (E T : Type) where
  | transport (err : T)
  | gate (err : GateErr E)
  deriving DecidableEq, Repr

/- A call of RecvMsg: what the transport has for it, and what the queries would read. -/
structure RecvCall (M T : Type) where
  transport : Except T M
  reads : GateReads

/- `checked` is set before the outcome is known. -/
def PermissionStream.recvMsg (s : PermissionStream M E) (call : RecvCall M T) :
    PermissionStream M E × Except (RecvErr E T) Unit :=
  match call.transport with
  | .error err => (s, .error (.transport err))
  | .ok m =>
    if s.checked then (s, .ok ())
    else
      let s := { s with checked := true }
      match s.entry.extract m with
      | .error err => (s, .error (.gate (.extract err)))
      | .ok scope =>
        let newCtx := match scope.kind with
          | .org => checkOrgScope call.reads s.ctx s.entry.permission scope s.caller
          | .space => checkSpaceScope call.reads s.ctx s.entry.permission scope s.caller
          | .unknown _ => .error (.internal "permission gate misconfigured for this method")
        match newCtx with
        | .error err => (s, .error (.gate err))
        | .ok ctx => ({ s with ctx }, .ok ())

/- The stream after some calls. -/
def PermissionStream.recvAll (s : PermissionStream M E) (calls : List (RecvCall M T)) :
    PermissionStream M E :=
  calls.foldl (fun s call => (s.recvMsg call).1) s

/- What a call returns after others. -/
def PermissionStream.returns (s : PermissionStream M E) (before : List (RecvCall M T))
    (call : RecvCall M T) : Except (RecvErr E T) Unit :=
  ((s.recvAll before).recvMsg call).2

/- What the transport has for a call, as a result. -/
def RecvCall.passed (call : RecvCall M T) : Except (RecvErr E T) Unit :=
  match call.transport with
  | .ok _ => .ok ()
  | .error err => .error (.transport err)

def verdict (result : Except (GateErr E) Context) : Except (RecvErr E T) Unit :=
  match result with
  | .ok _ => .ok ()
  | .error err => .error (.gate err)

/-- The call reads the stream's first message. -/
structure FirstMessage (before : List (RecvCall M T)) (call : RecvCall M T) (m : M) : Prop where
  waiting : ∀ c ∈ before, ∃ err, c.transport = .error err
  read : call.transport = .ok m

/-- A stream that the gate opens with its first message. -/
structure GatedByFirst (T : Type) (unary : GateReads → M → Except (GateErr E) Context)
    (ctx : Context) (s : PermissionStream M E) : Prop where
  waiting : ∀ before : List (RecvCall M T), (∀ c ∈ before, ∃ err, c.transport = .error err) →
    (s.recvAll before).ctx = ctx ∧
      ∀ call err, call.transport = .error err → s.returns before call = .error (.transport err)
  first : ∀ (before : List (RecvCall M T)) call m, FirstMessage before call m →
    s.returns before call = verdict (unary call.reads m)
  later : ∀ (before : List (RecvCall M T)) first m between call, FirstMessage before first m →
    s.returns (before ++ first :: between) call = call.passed
  context : ∀ (before : List (RecvCall M T)) first m between, FirstMessage before first m →
    (s.recvAll (before ++ first :: between)).ctx = (unary first.reads m).toOption.getD ctx
  nil_only : ∀ (before : List (RecvCall M T)) call, s.returns before call = .ok () →
    ∃ earlier first m between, before ++ [call] = earlier ++ first :: between ∧
      FirstMessage earlier first m ∧
      ((∃ newCtx, unary first.reads m = .ok newCtx) ∨
        between ≠ [] ∧ ∃ err, unary first.reads m = .error err ∧
          s.returns earlier first = .error (.gate err))

variable {g : PermissionGate M E} {ctx : Context} {caller : Id} {method : String}
  {s : PermissionStream M E} {call : RecvCall M T} {calls before : List (RecvCall M T)} {m : M}

theorem openStream_wrapped (hopen : g.openStream ctx caller method = .wrapped s) :
    g.exempt method = false ∧ g.registry method = some s.entry ∧
      s = ⟨s.entry, caller, ctx, false⟩ := by
  unfold PermissionGate.openStream at hopen
  split at hopen
  · cases hopen
  · rename_i hexempt
    split at hopen
    · cases hopen
    · rename_i hentry
      cases hopen
      exact ⟨by simpa using hexempt, hentry, rfl⟩

/-- The first message goes through the check of a unary call. -/
theorem recvMsg_first (hopen : g.openStream ctx caller method = .wrapped s)
    (hread : call.transport = .ok m) : s.recvMsg call =
      ({ s with
          ctx := (g.check call.reads ctx caller method m).toOption.getD ctx
          checked := true },
        verdict (g.check call.reads ctx caller method m)) := by
  obtain ⟨hexempt, hentry, hs⟩ := openStream_wrapped hopen
  have hctx : s.ctx = ctx := by rw [hs]
  have hcaller : s.caller = caller := by rw [hs]
  have hchecked : s.checked = false := by rw [hs]
  rw [PermissionStream.recvMsg, PermissionGate.check, hread, hexempt, hentry]
  simp only [hchecked, Bool.false_eq_true, if_false, hctx, hcaller]
  cases s.entry.extract m with
  | error err => simp [verdict, Except.toOption]
  | ok scope =>
    dsimp only
    generalize (match scope.kind with
      | .org => checkOrgScope call.reads ctx s.entry.permission scope caller
      | .space => checkSpaceScope call.reads ctx s.entry.permission scope caller
      | .unknown _ => Except.error (.internal "permission gate misconfigured for this method")) =
        result
    cases result with
    | error err => simp [verdict, Except.toOption]
    | ok newCtx => simp [verdict, Except.toOption]

theorem recvMsg_error {err : T} (h : call.transport = .error err) :
    s.recvMsg call = (s, .error (.transport err)) := by
  rw [PermissionStream.recvMsg, h]

theorem recvMsg_checked (h : s.checked = true) : s.recvMsg call = (s, call.passed) := by
  rw [PermissionStream.recvMsg, RecvCall.passed]
  cases call.transport with
  | error err => rfl
  | ok m => simp [h]

/-- While the transport has no message, the stream stays as it is. -/
theorem recvAll_waiting (h : ∀ c ∈ calls, ∃ err, c.transport = .error err) :
    s.recvAll calls = s := by
  induction calls with
  | nil => rfl
  | cons call calls ih =>
    obtain ⟨err, herr⟩ := h call List.mem_cons_self
    have hrest := ih fun c hc => h c (List.mem_cons_of_mem call hc)
    rw [PermissionStream.recvAll, List.foldl_cons, recvMsg_error herr]
    exact hrest

theorem recvAll_checked (h : s.checked = true) : s.recvAll calls = s := by
  induction calls with
  | nil => rfl
  | cons call calls ih =>
    rw [PermissionStream.recvAll, List.foldl_cons, recvMsg_checked h]
    exact ih

theorem recvAll_append (after : List (RecvCall M T)) :
    s.recvAll (before ++ call :: after) = ((s.recvAll before).recvMsg call).1.recvAll after := by
  rw [PermissionStream.recvAll, List.foldl_append, List.foldl_cons]
  rfl

/-- From the first message on, the stream is as the check has left it. -/
theorem recvAll_first (hopen : g.openStream ctx caller method = .wrapped s)
    (h : FirstMessage before call m) (after : List (RecvCall M T)) :
    s.recvAll (before ++ call :: after) = { s with
      ctx := (g.check call.reads ctx caller method m).toOption.getD ctx
      checked := true } := by
  rw [recvAll_append, recvAll_waiting h.waiting, recvMsg_first hopen h.read, recvAll_checked rfl]

theorem returns_first (hopen : g.openStream ctx caller method = .wrapped s)
    (h : FirstMessage before call m) :
    s.returns before call = verdict (g.check call.reads ctx caller method m) := by
  rw [PermissionStream.returns, recvAll_waiting h.waiting, recvMsg_first hopen h.read]

/-- Some call has read the first message, or none has read any. -/
theorem waiting_or_first (calls : List (RecvCall M T)) :
    (∀ c ∈ calls, ∃ err, c.transport = .error err) ∨
      ∃ earlier first m between, calls = earlier ++ first :: between ∧
        FirstMessage earlier first m := by
  induction calls with
  | nil => exact .inl fun c hc => absurd hc List.not_mem_nil
  | cons call calls ih =>
    cases hcall : call.transport with
    | ok m => exact .inr ⟨[], call, m, calls, rfl, fun c hc => absurd hc List.not_mem_nil, hcall⟩
    | error err =>
      obtain hwaiting | ⟨earlier, first, m, between, rfl, hfirst⟩ := ih
      · exact .inl (List.forall_mem_cons.mpr ⟨⟨err, hcall⟩, hwaiting⟩)
      · exact .inr ⟨call :: earlier, first, m, between, rfl,
          List.forall_mem_cons.mpr ⟨⟨err, hcall⟩, hfirst.waiting⟩, hfirst.read⟩

theorem openStream_refused {err : GateErr E} (hopen : g.openStream ctx caller method = .refused err)
    (reads : GateReads) (req : M) : g.check reads ctx caller method req = .error err := by
  unfold PermissionGate.openStream at hopen
  unfold PermissionGate.check
  split at hopen
  · cases hopen
  · rename_i hexempt
    rw [if_neg hexempt]
    split at hopen
    · cases hopen
      rfl
    · cases hopen

theorem openStream_ne_bare (hexempt : g.exempt method = false) (ctx' : Context) :
    g.openStream ctx caller method ≠ .bare ctx' := by
  unfold PermissionGate.openStream
  rw [hexempt, if_neg Bool.false_ne_true]
  cases g.registry method <;> exact nofun

theorem gatedByFirst (hopen : g.openStream ctx caller method = .wrapped s) :
    GatedByFirst T (fun reads m => g.check reads ctx caller method m) ctx s where
  waiting before hbefore := by
    rw [recvAll_waiting hbefore]
    constructor
    · rw [(openStream_wrapped hopen).2.2]
    · intro call err hcall
      rw [PermissionStream.returns, recvAll_waiting hbefore, recvMsg_error hcall]
  first before call m h := returns_first hopen h
  later before first m between call h := by
    rw [PermissionStream.returns, recvAll_first hopen h, recvMsg_checked rfl]
  context before first m between h := by
    rw [recvAll_first hopen h]
  nil_only before call hnil := by
    obtain hwaiting | ⟨earlier, first, m, between, hsplit, hfirst⟩ :=
      waiting_or_first (before ++ [call])
    · obtain ⟨err, herr⟩ := hwaiting call (by simp)
      rw [PermissionStream.returns, recvMsg_error herr] at hnil
      cases hnil
    · refine ⟨earlier, first, m, between, hsplit, hfirst, ?_⟩
      have hreturn := returns_first hopen hfirst
      cases hcheck : g.check first.reads ctx caller method m with
      | ok newCtx => exact .inl ⟨newCtx, rfl⟩
      | error err =>
        rw [hcheck, verdict] at hreturn
        refine .inr ⟨?_, err, rfl, hreturn⟩
        -- the call itself cannot be the one that has been refused
        rintro rfl
        obtain ⟨rfl, hcall⟩ := List.append_inj' hsplit rfl
        obtain rfl := List.singleton_inj.mp hcall
        rw [hnil] at hreturn
        cases hreturn

/-- A method that is not exempt has its streams refused with the error of the unary check, or opened
by their first message as the unary check of that message decides. What the transport delivers after
it is not looked at. -/
theorem stream_gate_agrees (g : PermissionGate M E) (ctx : Context) (caller : Id) (method : String)
    (hexempt : g.exempt method = false) :
    (∃ err, g.openStream ctx caller method = .refused err ∧
        ∀ reads req, g.check reads ctx caller method req = .error err) ∨
      ∃ s, g.openStream ctx caller method = .wrapped s ∧
        GatedByFirst T (fun reads m => g.check reads ctx caller method m) ctx s := by
  cases hopen : g.openStream ctx caller method with
  | bare ctx' => exact absurd hopen (openStream_ne_bare hexempt ctx')
  | refused err => exact .inl ⟨err, rfl, openStream_refused hopen⟩
  | wrapped s => exact .inr ⟨s, rfl, gatedByFirst hopen⟩

/- One method, on an organization that the message names. -/
def watchGate : PermissionGate String Empty where
  registry method :=
    if method = "Watch" then some ⟨organizationsRead, fun m => .ok (orgScopeRef m)⟩ else none
  exempt _ := false
  not_both _ h := by cases h

theorem stream_gate_agrees_watch :
    ∃ s, watchGate.openStream ⟨none, none⟩ 1 "Watch" = .wrapped s ∧
      GatedByFirst Unit (fun reads m => watchGate.check reads ⟨none, none⟩ 1 "Watch" m)
        ⟨none, none⟩ s := by
  refine (stream_gate_agrees watchGate ⟨none, none⟩ 1 "Watch" rfl).resolve_left ?_
  rintro ⟨err, hrefused, -⟩
  cases hrefused

def emptyReads : GateReads := ⟨some ∅, some ∅, some (⟨[], []⟩, ∅)⟩

/-- There is no organization. The first message is refused, and the next one comes through. -/
theorem recv_after_denial :
    ¬ ∀ (s : PermissionStream String Empty) (before : List (RecvCall String Unit)) first m between
        call,
      watchGate.openStream ⟨none, none⟩ 1 "Watch" = .wrapped s → FirstMessage before first m →
      s.returns (before ++ first :: between) call = .ok () →
      ∃ newCtx, watchGate.check first.reads ⟨none, none⟩ 1 "Watch" m = .ok newCtx := by
  intro h
  obtain ⟨newCtx, hnew⟩ := h
    ⟨⟨organizationsRead, fun m => .ok (orgScopeRef m)⟩, 1, ⟨none, none⟩, false⟩
    [] ⟨.ok "acme", emptyReads⟩ "acme" [] ⟨.ok "acme", emptyReads⟩ rfl ⟨by simp, rfl⟩ rfl
  cases hnew

/-! What the check finds -/

theorem gateOrganization_eq_ok {reads : GateReads} {slug : String} {org : Id × Organization} :
    (gateOrganization reads slug : Except (GateErr E) _) = .ok org ↔
      ∃ db, reads.organization = some db ∧ getOrganizationByNameForGate slug db = some org := by
  unfold gateOrganization
  cases reads.organization with
  | none => simp
  | some db => cases hfound : getOrganizationByNameForGate slug db <;> simp [hfound]

theorem gatePermission_eq_ok {reads : GateReads} {target : Target} {permission : String}
    {denied : List Piece} :
    (gatePermission reads caller target permission denied : Except (GateErr E) Unit) = .ok () ↔
      ∃ cat db, reads.permissions = some (cat, db) ∧
        hasPermission cat db caller target permission = .ok true := by
  unfold gatePermission
  cases reads.permissions with
  | none => simp
  | some r =>
    obtain ⟨cat, db⟩ := r
    cases hperm : hasPermission cat db caller target permission with
    | error message => simp [hperm]
    | ok allowed => cases allowed <;> simp [hperm]

theorem gateSpace_eq_ok {reads : GateReads} {orgId : Id} {scope : ScopeRef} {space : Id × Space} :
    (gateSpace reads orgId scope : Except (GateErr E) _) = .ok space ↔
      ∃ db, reads.space = some db ∧ getSpaceByNameForGate orgId scope.slug db = some space := by
  unfold gateSpace
  cases reads.space with
  | none => simp
  | some db => cases hfound : getSpaceByNameForGate orgId scope.slug db <;> simp [hfound]

/- Reading goes on while an organization or a space is being deleted, and so do the `passing`. -/
def PassesSoftDelete (state : ResourceState) (permission : String) (passing : List String) : Prop :=
  state = .deleteRequested → isReadPermission permission = true ∨ permission ∈ passing

theorem enforceSoftDeleteGate_eq_ok {state : ResourceState} {permission orgSlug : String} :
    (enforceSoftDeleteGate state permission orgSlug : Except (GateErr E) Unit) = .ok () ↔
      PassesSoftDelete state permission [organizationsDelete, usersDelete] := by
  unfold enforceSoftDeleteGate PassesSoftDelete
  cases state with
  | active => simp
  | deleteRequested => simp [or_iff_not_imp_left]

theorem enforceSpaceSoftDeleteGate_eq_ok {state : ResourceState}
    {permission orgSlug spaceSlug : String} :
    (enforceSpaceSoftDeleteGate state permission orgSlug spaceSlug : Except (GateErr E) Unit) =
      .ok () ↔ PassesSoftDelete state permission [spacesDelete] := by
  unfold enforceSpaceSoftDeleteGate PassesSoftDelete
  cases state with
  | active => simp
  | deleteRequested => simp [or_iff_not_imp_left]

/-- A request on an organization passes where the caller holds the permission there, unless the
organization is being deleted. -/
theorem checkOrgScope_eq_ok {reads : GateReads} {permission : String} {scope : ScopeRef}
    {newCtx : Context} :
    (checkOrgScope reads ctx permission scope caller : Except (GateErr E) Context) = .ok newCtx ↔
      ∃ db orgId org cat db', reads.organization = some db ∧
        getOrganizationByNameForGate scope.slug db = some (orgId, org) ∧
        reads.permissions = some (cat, db') ∧ HoldsAtOrg cat db' orgId caller permission ∧
        PassesSoftDelete org.state permission [organizationsDelete, usersDelete] ∧
        newCtx = { ctx with resolvedOrg := some ⟨orgId, scope.slug, org⟩ } := by
  unfold checkOrgScope
  simp only [bind_eq_ok, gateOrganization_eq_ok]
  constructor
  · rintro ⟨⟨orgId, org⟩, ⟨db, hdb, horg⟩, ⟨⟩, hperm, ⟨⟩, hstate, hctx⟩
    obtain ⟨cat, db', hperms, hholds⟩ := gatePermission_eq_ok.mp hperm
    exact ⟨db, orgId, org, cat, db', hdb, horg, hperms, hasPermission_org.mp hholds,
      enforceSoftDeleteGate_eq_ok.mp hstate, (Except.ok.inj hctx).symm⟩
  · rintro ⟨db, orgId, org, cat, db', hdb, horg, hperms, hholds, hstate, rfl⟩
    exact ⟨(orgId, org), ⟨db, hdb, horg⟩, (),
      gatePermission_eq_ok.mpr ⟨cat, db', hperms, hasPermission_org.mpr hholds⟩, (),
      enforceSoftDeleteGate_eq_ok.mpr hstate, rfl⟩

/-- A request on a space passes where the caller holds the permission there, by itself or through
the organization, unless one of the two is being deleted. -/
theorem checkSpaceScope_eq_ok {reads : GateReads} {permission : String} {scope : ScopeRef}
    {newCtx : Context} :
    (checkSpaceScope reads ctx permission scope caller : Except (GateErr E) Context) = .ok newCtx ↔
      ∃ db orgId org db' spaceId space cat db'', reads.organization = some db ∧
        getOrganizationByNameForGate scope.orgSlug db = some (orgId, org) ∧
        reads.space = some db' ∧
        getSpaceByNameForGate orgId scope.slug db' = some (spaceId, space) ∧
        reads.permissions = some (cat, db'') ∧ HoldsAtSpace cat db'' spaceId caller permission ∧
        PassesSoftDelete org.state permission [organizationsDelete, usersDelete] ∧
        PassesSoftDelete space.state permission [spacesDelete] ∧
        newCtx = { ctx with
          resolvedOrg := some ⟨orgId, scope.orgSlug, org⟩
          resolvedSpace := some ⟨spaceId, scope.slug, space⟩ } := by
  unfold checkSpaceScope
  simp only [bind_eq_ok, gateOrganization_eq_ok]
  constructor
  · rintro ⟨⟨orgId, org⟩, ⟨db, hdb, horg⟩, ⟨spaceId, space⟩, hspace, ⟨⟩, hperm, ⟨⟩, hstate, ⟨⟩,
      hspaceState, hctx⟩
    obtain ⟨db', hdb', hspace⟩ := gateSpace_eq_ok.mp hspace
    obtain ⟨cat, db'', hperms, hholds⟩ := gatePermission_eq_ok.mp hperm
    exact ⟨db, orgId, org, db', spaceId, space, cat, db'', hdb, horg, hdb', hspace, hperms,
      hasPermission_space.mp hholds, enforceSoftDeleteGate_eq_ok.mp hstate,
      enforceSpaceSoftDeleteGate_eq_ok.mp hspaceState, (Except.ok.inj hctx).symm⟩
  · rintro ⟨db, orgId, org, db', spaceId, space, cat, db'', hdb, horg, hdb', hspace, hperms, hholds,
      hstate, hspaceState, rfl⟩
    exact ⟨(orgId, org), ⟨db, hdb, horg⟩, (spaceId, space),
      gateSpace_eq_ok.mpr ⟨db', hdb', hspace⟩, (),
      gatePermission_eq_ok.mpr ⟨cat, db'', hperms, hasPermission_space.mpr hholds⟩, (),
      enforceSoftDeleteGate_eq_ok.mpr hstate, (),
      enforceSpaceSoftDeleteGate_eq_ok.mpr hspaceState, rfl⟩

end Pivox.Organizations
