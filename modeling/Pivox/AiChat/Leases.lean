import Pivox.AiChat.Turns

/-!
The lease of a conversation. Until it runs out its holder is alone, so a call that comes to its
transactions in time finds the lease its own; nothing else makes it come in time.
-/

namespace Pivox.AiChat
open Transition
variable {K : Type}

/-- Between the lease and the last of the transactions. -/
def Phase.underway : Phase → Bool
  | .persistingInbound | .txA | .streaming | .persistingReply | .txB => true
  | _ => false

structure Leased (s : State K) : Prop where
  fresh : s.created = false → s.conversation = none ∧ ∀ c, (s.calls c).phase.underway = false
  held : ∀ c, (s.calls c).phase.underway = true → ∀ conv, s.conversation = some conv →
    conv.lockHolder = some c ∧ conv.lockExpiresAt = some (s.calls c).leaseEnd ∨
      (s.calls c).leaseEnd < s.now
  silent : ∀ c, (s.calls c).alarmed = false

/-- A step that leaves the lease alone. -/
structure LeaseKept (s s' : State K) : Prop where
  created : s'.created = s.created
  conversation : ∀ conv', s'.conversation = some conv' → ∃ conv, s.conversation = some conv ∧
    conv'.lockHolder = conv.lockHolder ∧ conv'.lockExpiresAt = conv.lockExpiresAt
  now : s.now ≤ s'.now
  underway : ∀ c, (s'.calls c).phase.underway = true →
    (s.calls c).phase.underway = true ∧ (s'.calls c).leaseEnd = (s.calls c).leaseEnd
  alarmed : ∀ c, (s'.calls c).alarmed = (s.calls c).alarmed

section steps
variable {s s' : State K} {c : K} {call : Call}

theorem Leased.kept (h : Leased s) (hkept : LeaseKept s s') : Leased s' where
  fresh hcreated := by
    obtain ⟨hnone, hcalls⟩ := h.fresh (hkept.created.symm.trans hcreated)
    constructor
    · cases hconv : s'.conversation with
      | none => rfl
      | some conv' =>
        obtain ⟨conv, hconv, -⟩ := hkept.conversation conv' hconv
        cases hnone.symm.trans hconv
    · intro c
      refine Bool.eq_false_of_not_eq_true fun hc => ?_
      cases (hcalls c).symm.trans (hkept.underway c hc).1
  held c hc conv' hconv' := by
    obtain ⟨hunderway, hend⟩ := hkept.underway c hc
    obtain ⟨conv, hconv, hholder, hexpires⟩ := hkept.conversation conv' hconv'
    have hnow := hkept.now
    rw [hend, hholder, hexpires]
    refine (h.held c hunderway conv hconv).imp id fun hlt => ?_
    omega
  silent c := (hkept.alarmed c).trans (h.silent c)

theorem LeaseKept.setCall [DecidableEq K] (hunderway : call.phase.underway = true →
      (s.calls c).phase.underway = true ∧ call.leaseEnd = (s.calls c).leaseEnd)
    (halarmed : call.alarmed = (s.calls c).alarmed) : LeaseKept s (s.setCall c call) where
  created := rfl
  conversation conv hconv := ⟨conv, hconv, rfl, rfl⟩
  now := Nat.le_refl _
  underway d := by
    by_cases hd : d = c
    · subst hd
      simpa using hunderway
    · rw [setCall_of_ne hd]
      exact fun hunderway => ⟨hunderway, rfl⟩
  alarmed d := by
    by_cases hd : d = c
    · simp [hd, halarmed]
    · rw [setCall_of_ne hd]

theorem LeaseKept.trans {s'' : State K} (h : LeaseKept s s') (h' : LeaseKept s' s'') :
    LeaseKept s s'' where
  created := h'.created.trans h.created
  conversation conv'' hconv'' := by
    obtain ⟨conv', hconv', hholder', hexpires'⟩ := h'.conversation conv'' hconv''
    obtain ⟨conv, hconv, hholder, hexpires⟩ := h.conversation conv' hconv'
    exact ⟨conv, hconv, hholder'.trans hholder, hexpires'.trans hexpires⟩
  now := Nat.le_trans h.now h'.now
  underway c hc := by
    obtain ⟨hc', hend'⟩ := h'.underway c hc
    obtain ⟨hc'', hend⟩ := h.underway c hc'
    exact ⟨hc'', hend'.trans hend⟩
  alarmed c := (h'.alarmed c).trans (h.alarmed c)

/-- The row is written apart from its lease, or its lock changes hands. -/
theorem LeaseKept.of_row (hcreated : s'.created = s.created)
    (hconv : s'.conversation = s.conversation ∨ s'.conversation = none ∨
      ∃ conv conv', s.conversation = some conv ∧ s'.conversation = some conv' ∧
        conv'.lockHolder = conv.lockHolder ∧ conv'.lockExpiresAt = conv.lockExpiresAt)
    (hnow : s.now ≤ s'.now) (hcalls : s'.calls = s.calls) : LeaseKept s s' where
  created := hcreated
  conversation conv' hconv' := by
    rcases hconv with heq | hnone | ⟨conv, conv'', hconv, heq, hholder, hexpires⟩
    · exact ⟨conv', heq.symm.trans hconv', rfl, rfl⟩
    · cases hnone.symm.trans hconv'
    · cases heq.symm.trans hconv'
      exact ⟨conv, hconv, hholder, hexpires⟩
  now := hnow
  underway c hc := by
    rw [hcalls] at hc ⊢
    exact ⟨hc, rfl⟩
  alarmed c := by rw [hcalls]

section events
variable [DecidableEq K]

/-- A lease is taken over only when it has run out. -/
theorem Leased.acquire (h : Leased s) {now clock : Nat} {answered : Bool}
    (hstep : step s (.acquire c now clock answered) = some s') : Leased s' := by
  simp only [step.eq_def, stepCall.eq_def, Option.ite_none_right_eq_some] at hstep
  obtain ⟨⟨hphase, hnow, -⟩, hstep⟩ := hstep
  split at hstep
  · cases hstep
    exact h.kept (LeaseKept.setCall (by simp [Phase.underway]) rfl)
  · rename_i conv' hacquire
    obtain ⟨conv, hconv, hacquire⟩ := Option.bind_eq_some_iff.mp hacquire
    simp only [Conversation.acquireConversationLease, Option.ite_none_right_eq_some,
      Option.some.injEq] at hacquire
    obtain ⟨hfree, rfl⟩ := hacquire
    have hout : ∀ d, d ≠ c → (s.calls d).phase.underway = true → (s.calls d).leaseEnd < s.now := by
      intro d hd hunderway
      rcases h.held d hunderway conv hconv with ⟨hholder, hexpires⟩ | hlt
      · rw [hholder, hexpires] at hfree
        simp only [reduceCtorEq, Option.any_some, decide_eq_true_eq, Option.some.injEq, hd,
          or_false, false_or] at hfree
        omega
      · exact hlt
    have hcreated : s.created = false → False := fun hnot => by
      cases (h.fresh hnot).1.symm.trans hconv
    have htaken : ∀ call : Call, call.alarmed = (s.calls c).alarmed →
        (call.phase.underway = true → call.leaseEnd = now + leaseTTL) →
        Leased ((s.setConversation { conv with
          lockHolder := some c, lockExpiresAt := some (now + leaseTTL) }).setCall c call) := by
      intro call halarmed hend
      constructor
      · exact fun hnot => absurd hnot hcreated
      · intro d hunderway _ heq
        cases heq
        by_cases hd : d = c
        · subst hd
          rw [setCall_self] at hunderway ⊢
          exact .inl ⟨rfl, congrArg some (hend hunderway).symm⟩
        · rw [setCall_of_ne hd] at hunderway ⊢
          exact .inr (hout d hd hunderway)
      · intro d
        by_cases hd : d = c
        · simpa [hd, halarmed] using h.silent c
        · rw [setCall_of_ne hd]
          exact h.silent d
    split at hstep
    · cases hstep
      exact htaken _ rfl fun _ => rfl
    · cases hstep
      exact htaken _ rfl (by simp [Phase.underway])

theorem Leased.extend (h : Leased s) {now : Nat} {answered : Bool}
    (hstep : step s (.extend c now answered) = some s') : Leased s' := by
  simp only [step.eq_def, stepHeartbeat.eq_def, Option.ite_none_right_eq_some] at hstep
  obtain ⟨-, hstep⟩ := hstep
  split at hstep
  · rename_i conv' hextend
    cases hstep
    obtain ⟨conv, hconv, hextend⟩ := Option.bind_eq_some_iff.mp hextend
    simp only [Conversation.heartbeatConversationLease, Option.ite_none_right_eq_some,
      Option.some.injEq] at hextend
    obtain ⟨⟨hholder, -⟩, rfl⟩ := hextend
    constructor
    · intro hnot
      cases (h.fresh hnot).1.symm.trans hconv
    · intro d hunderway _ heq
      cases heq
      by_cases hd : d = c
      · subst hd
        rw [setCall_self]
        exact .inl ⟨hholder, rfl⟩
      · rw [setCall_of_ne hd] at hunderway ⊢
        rcases h.held d hunderway conv hconv with ⟨hheld, -⟩ | hlt
        · exact absurd (Option.some.inj (hheld.symm.trans hholder)) hd
        · exact .inr hlt
    · intro d
      by_cases hd : d = c
      · simpa [hd] using h.silent c
      · rw [setCall_of_ne hd]
        exact h.silent d
  · split at hstep <;> cases hstep <;> exact h.kept (LeaseKept.setCall (fun hc => ⟨hc, rfl⟩) rfl)

/-- A lease is released by its holder, who is done with it. -/
theorem Leased.release (h : Leased s) (hstep : step s (.release c) = some s') : Leased s' := by
  simp only [step.eq_def, stepCall.eq_def, Option.ite_none_right_eq_some, Option.some.injEq] at hstep
  obtain ⟨⟨hphase, -⟩, rfl⟩ := hstep
  have hdone : ∀ d, d = c → (s.calls d).phase.underway = true → False := by
    rintro d rfl hunderway
    simp [hphase, Phase.underway] at hunderway
  have hcall : ∀ d, ((({ s with conversation := s.conversation.map fun conv =>
      conv.releaseConversationLease c } : State K).setPhase c .done).calls d).phase.underway = true →
        d ≠ c := by
    rintro d hunderway rfl
    simp [State.setPhase, Phase.underway] at hunderway
  constructor
  · intro hnot
    obtain ⟨hnone, hcalls⟩ := h.fresh hnot
    refine ⟨by simp [State.setPhase, hnone], fun d => ?_⟩
    by_cases hd : d = c
    · simp [State.setPhase, hd, Phase.underway]
    · simpa [State.setPhase, setCall_of_ne hd] using hcalls d
  · intro d hunderway conv' hconv'
    have hd := hcall d hunderway
    obtain ⟨conv, hconv, rfl⟩ := Option.map_eq_some_iff.mp hconv'
    simp only [State.setPhase, setCall_of_ne hd] at hunderway ⊢
    refine (h.held d hunderway conv hconv).imp (fun hheld => ?_) id
    have hnot : conv.lockHolder ≠ some c := by
      rw [hheld.1]
      exact fun heq => hd (Option.some.inj heq)
    simpa [Conversation.releaseConversationLease, hnot] using hheld
  · intro d
    by_cases hd : d = c
    · simpa [State.setPhase, hd] using h.silent c
    · simpa [State.setPhase, setCall_of_ne hd] using h.silent d

/-- In time, the lease is found to be the call's own. -/
theorem Leased.lock (h : Leased s) (htimely : s.now ≤ (s.calls c).leaseEnd)
    (hstep : step s (.lock c) = some s') : Leased s' := by
  simp only [step.eq_def, stepCall.eq_def] at hstep
  split at hstep
  · cases hstep
  · rename_i side tx hpersisting
    have hunderway : (s.calls c).phase.underway = true := by
      cases hphase : (s.calls c).phase <;> simp_all [Phase.persisting, Phase.underway]
    simp only [Option.ite_none_right_eq_some] at hstep
    obtain ⟨-, hstep⟩ := hstep
    split at hstep
    · cases hstep
      exact h.kept (LeaseKept.setCall (by simp [Phase.underway]) rfl)
    · rename_i conv hconv
      have hholder : conv.lockHolder = some c := by
        rcases h.held c hunderway conv hconv with ⟨hholder, -⟩ | hlt
        · exact hholder
        · omega
      simp only [hholder, if_true, Option.some.injEq] at hstep
      subst hstep
      have hlocked : LeaseKept s { s with locked := some (.turn c) } :=
        .of_row rfl (.inl rfl) (Nat.le_refl _) rfl
      exact h.kept (hlocked.trans (.setCall (fun _ => ⟨hunderway, rfl⟩) rfl))

theorem Leased.persist (h : Leased s) {answered : Bool}
    (hstep : step s (.persist c answered) = some s') : Leased s' := by
  simp only [step.eq_def, stepCall.eq_def] at hstep
  split at hstep
  · cases hstep
  · rename_i side next retry hin
    obtain ⟨conv, hconv, rfl⟩ := Option.map_eq_some_iff.mp hstep
    have hunderway : (s.calls c).phase.underway = true := by
      rcases inTx_cases hin with ⟨hphase, -⟩ | ⟨hphase, -⟩ <;> rw [hphase] <;> rfl
    have hrow : LeaseKept s
        ({ s with locked := none }.setConversation (conv.persistMessage side c)) :=
      .of_row rfl (.inr (.inr ⟨conv, _, hconv, rfl, rfl, rfl⟩)) (Nat.le_refl _) rfl
    exact h.kept (hrow.trans (.setCall (fun _ => ⟨hunderway, rfl⟩) rfl))

theorem Leased.rollback (h : Leased s) {replayed : Bool}
    (hstep : step s (.rollback c replayed) = some s') : Leased s' := by
  simp only [step.eq_def, stepCall.eq_def] at hstep
  split at hstep
  · cases hstep
  · rename_i side next retry hin
    cases hstep
    have hunderway : (s.calls c).phase.underway = true := by
      rcases inTx_cases hin with ⟨hphase, -⟩ | ⟨hphase, -⟩ <;> rw [hphase] <;> rfl
    have hrow : LeaseKept s { s with locked := none } := .of_row rfl (.inl rfl) (Nat.le_refl _) rfl
    exact h.kept (hrow.trans (.setCall (fun _ => ⟨hunderway, rfl⟩) rfl))

theorem Leased.crash (h : Leased s) (hstep : step s (.crash c) = some s') : Leased s' := by
  simp only [step.eq_def, stepCall.eq_def, Option.ite_none_left_eq_some, Option.some.injEq] at hstep
  obtain ⟨-, rfl⟩ := hstep
  have hrow : ∀ locked, LeaseKept s { s with locked := locked } := fun _ =>
    .of_row rfl (.inl rfl) (Nat.le_refl _) rfl
  exact h.kept ((hrow _).trans (.setCall (by simp [Phase.underway]) rfl))

theorem Leased.autoCreate (h : Leased s) (hstep : step s (.autoCreate c) = some s') :
    Leased s' := by
  simp only [step.eq_def, stepCall.eq_def, Option.ite_none_right_eq_some, Option.some.injEq] at hstep
  obtain ⟨⟨hcreated, -⟩, rfl⟩ := hstep
  have hnot : ∀ d, ((({ s with created := true }.setConversation
      ((Conversation.create "" "").persistMessage .inbound c)).setCall c
        { Call.idle with phase := .acquiring, autoCreated := true }).calls d).phase.underway =
          false := by
    intro d
    by_cases hd : d = c
    · simp [hd, Phase.underway]
    · simpa [setCall_of_ne hd, State.setConversation] using (h.fresh hcreated).2 d
  constructor
  · intro hnew
    cases hnew
  · intro d hunderway
    cases (hnot d).symm.trans hunderway
  · intro d
    by_cases hd : d = c
    · simp [hd, Call.idle]
    · simpa [setCall_of_ne hd, State.setConversation] using h.silent d

theorem Leased.createConversation (h : Leased s) {title description : String}
    (hstep : step s (.createConversation title description) = some s') : Leased s' := by
  simp only [step.eq_def, Option.ite_none_right_eq_some, Option.some.injEq] at hstep
  obtain ⟨hcreated, rfl⟩ := hstep
  refine ⟨fun hnew => ?_, fun c hunderway => ?_, h.silent⟩
  · cases hnew
  · cases ((h.fresh hcreated).2 c).symm.trans hunderway

theorem Leased.commit (h : Leased s) (hstep : step s .commit = some s') : Leased s' := by
  simp only [step.eq_def, stepWriter.eq_def] at hstep
  split at hstep
  · obtain ⟨conv, hconv, rfl⟩ := Option.map_eq_some_iff.mp hstep
    exact h.kept (.of_row rfl (.inr (.inr ⟨conv, _, hconv, rfl, rfl, rfl⟩)) (Nat.le_refl _) rfl)
  · cases hstep
    exact h.kept (.of_row rfl (.inr (.inl rfl)) (Nat.le_refl _) rfl)
  · cases hstep

theorem Leased.setAutoTitle (h : Leased s) {k : K} {title : String}
    (hstep : step s (.setAutoTitle k title) = some s') : Leased s' := by
  simp only [step.eq_def, stepSummary.eq_def] at hstep
  split at hstep
  · simp only [Option.ite_none_right_eq_some, Option.some.injEq] at hstep
    obtain ⟨-, rfl⟩ := hstep
    refine h.kept (.of_row rfl ?_ (Nat.le_refl _) rfl)
    cases hconv : s.conversation with
    | none => exact .inl rfl
    | some conv => exact .inr (.inr ⟨conv, _, rfl, rfl, rfl, rfl⟩)
  · cases hstep

theorem Leased.heartbeat (h : Leased s) (hphase : call.phase = (s.calls c).phase)
    (hend : call.leaseEnd = (s.calls c).leaseEnd) (halarmed : call.alarmed = (s.calls c).alarmed) :
    Leased (s.setCall c call) :=
  h.kept (LeaseKept.setCall (fun hc => ⟨hphase ▸ hc, hend⟩) halarmed)

theorem Leased.tick (h : Leased s) {clock : Nat} (hstep : step s (.tick c clock) = some s') :
    Leased s' := by
  simp only [step.eq_def, stepHeartbeat.eq_def, Option.ite_none_right_eq_some, Option.some.injEq] at hstep
  obtain ⟨-, rfl⟩ := hstep
  refine h.heartbeat ?_ ?_ ?_ <;>
  · unfold Call.tick
    simp only
    split_ifs <;> rfl

theorem Leased.generate (h : Leased s) (hstep : step s (.generate c) = some s') : Leased s' := by
  simp only [step.eq_def, stepCall.eq_def, Option.ite_none_right_eq_some, Option.some.injEq] at hstep
  obtain ⟨-, rfl⟩ := hstep
  refine h.kept (LeaseKept.setCall ?_ rfl)
  split <;> simp [Phase.underway]

theorem Leased.fail (h : Leased s) (hstep : step s (.fail c) = some s') : Leased s' := by
  simp only [step.eq_def, stepCall.eq_def] at hstep
  split at hstep <;> cases hstep <;> exact h.kept (LeaseKept.setCall (by simp [Phase.underway]) rfl)

end events

theorem Leased.lockChanges (h : Leased s) (locked : Option (Txn K)) :
    Leased { s with locked := locked } :=
  h.kept (.of_row rfl (.inl rfl) (Nat.le_refl _) rfl)

theorem Leased.checks (h : Leased s) {txn : Txn K} {clock : Nat}
    (hstep : (if s.locked = none then s.conversation.map fun conv =>
      if conv.isLeaseActive clock then s else { s with locked := some txn } else none) = some s') :
    Leased s' := by
  simp only [Option.ite_none_right_eq_some] at hstep
  obtain ⟨-, hstep⟩ := hstep
  obtain ⟨conv, -, rfl⟩ := Option.map_eq_some_iff.mp hstep
  split
  · exact h
  · exact h.lockChanges _

end steps

/-- A call that takes the lock of the row for its transaction does so before its lease runs out. -/
def timely (s : State K) : Event K → Bool
  | .lock c => s.now ≤ (s.calls c).leaseEnd
  | _ => true

theorem initial_leased : Leased (initial : State K) where
  fresh _ := ⟨rfl, fun _ => rfl⟩
  held := nofun
  silent _ := rfl

section runs
variable [DecidableEq K] {s s' : State K}

theorem Leased.step (h : Leased s) {a : Event K} (htimely : timely s a = true)
    (hstep : AiChat.step s a = some s') : Leased s' := by
  cases a with
  | elapse d =>
    cases hstep
    exact h.kept (.of_row rfl (.inl rfl) (Nat.le_add_right _ _) rfl)
  | createConversation title description => exact h.createConversation hstep
  | autoCreate c => exact h.autoCreate hstep
  | generate c => exact h.generate hstep
  | acquire c now clock answered => exact h.acquire hstep
  | lock c => exact h.lock (by simpa [timely] using htimely) hstep
  | persist c answered => exact h.persist hstep
  | rollback c replayed => exact h.rollback hstep
  | upstream c clock =>
    simp only [AiChat.step.eq_def, stepCall.eq_def, Option.ite_none_right_eq_some,
      Option.some.injEq] at hstep
    obtain ⟨-, rfl⟩ := hstep
    exact h.heartbeat rfl rfl rfl
  | finish c =>
    simp only [AiChat.step.eq_def, stepCall.eq_def, Option.ite_none_right_eq_some,
      Option.some.injEq] at hstep
    obtain ⟨hphase, rfl⟩ := hstep
    exact h.kept (LeaseKept.setCall (fun _ => ⟨by simp [hphase, Phase.underway], rfl⟩) rfl)
  | fail c => exact h.fail hstep
  | tick c clock => exact h.tick hstep
  | extend c now answered => exact h.extend hstep
  | stopHeartbeat c =>
    cases hstep
    exact h.heartbeat rfl rfl rfl
  | release c => exact h.release hstep
  | crash c => exact h.crash hstep
  | update params clock => exact h.checks hstep
  | delete clock => exact h.checks hstep
  | commit => exact h.commit hstep
  | abort =>
    simp only [AiChat.step.eq_def, stepWriter.eq_def] at hstep
    split at hstep <;> cases hstep <;> exact h.lockChanges _
  | setAutoTitle k title => exact h.setAutoTitle hstep
  | summarize k =>
    simp only [AiChat.step.eq_def, stepSummary.eq_def, Option.ite_none_right_eq_some,
      Option.some.injEq] at hstep
    obtain ⟨-, rfl⟩ := hstep
    exact h.kept (.of_row rfl (.inl rfl) (Nat.le_refl _) rfl)
  | endSummary k =>
    cases hstep
    exact h.kept (.of_row rfl (.inl rfl) (Nat.le_refl _) rfl)

/-- Along every timely run no lease invariant is reported. -/
theorem alarms_silent (hrun : Runs step (fun s a => timely s a = true) initial s) (c : K) :
    (s.calls c).alarmed = false :=
  (hrun.invariant initial_leased fun _ _ _ h htimely hstep => h.step htimely hstep).silent c

end runs

/-! A turn that takes half a minute, with its lease extended on the way. -/

def healthy : List (Event Bool) :=
  [.createConversation "" "", .generate true, .acquire true 0 0 true, .lock true,
    .persist true true, .elapse (10 * second), .tick true (10 * second),
    .extend true (10 * second) true, .elapse (20 * second), .upstream true (30 * second),
    .finish true, .lock true, .persist true true, .release true]

theorem alarms_silent_healthy :
    ∃ s, exec step initial healthy = some s ∧ (s.calls true).alarmed = false := by
  have h : (exec step initial healthy).isSome := by decide
  exact ⟨_, (Option.some_get h).symm,
    alarms_silent (.of_exec healthy (Option.some_get h).symm (by decide)) true⟩

/-! The model is silent for a minute: the lease, last extended after half of it, runs out and is
taken before the heartbeat gives the stream up; then the model ends its reply. -/

def silentMinute : List (Event Bool) :=
  [.createConversation "" "", .generate true, .acquire true 0 0 true, .lock true,
    .persist true true, .elapse (10 * second), .tick true (10 * second),
    .extend true (10 * second) true, .elapse (10 * second), .tick true (20 * second),
    .extend true (20 * second) true, .elapse (10 * second), .tick true (30 * second),
    .extend true (30 * second) true, .elapse (10 * second), .tick true (40 * second),
    .elapse (10 * second), .tick true (50 * second), .elapse (10 * second),
    .tick true (60 * second), .elapse second, .generate false,
    .acquire false (61 * second) (61 * second) true, .upstream true (61 * second), .finish true,
    .lock true]

theorem alarms_not_silent : (exec step initial silentMinute).map (fun s =>
    ((s.calls true).alarmed, (s.calls true).streamCancelled)) = some (true, false) := by
  decide

end Pivox.AiChat
