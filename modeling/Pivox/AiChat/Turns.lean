import Mathlib.Data.List.Basic
import Mathlib.Data.Option.Basic
import Mathlib.Data.Fintype.Basic
import Pivox.AiChat.Conversations

/-!
The integrity of a conversation's turns. A call that takes its lease and persists its message under
it is alone between its two messages; a call that created the conversation is so only as long as
nobody else has persisted.
-/

namespace Pivox.AiChat
open List Transition
variable {K : Type}

/-- What a conversation looks like when its turns are intact. -/
structure Conversation.Intact (conv : Conversation K) : Prop where
  numbered : conv.messages.map (·.sequence) = range' 1 conv.messages.length
  counted : conv.messageCount = conv.messages.length
  /-- A reply comes right after what its call was sent. -/
  replied : ∀ (before : List (Message K)) (m : Message K), before ++ [m] <+: conv.messages →
    m.side = .assistant → ∃ sent ∈ before.getLast?, sent.side = .inbound ∧ sent.call = m.call

namespace Conversation
variable {conv : Conversation K} {side : Side} {c : K}

theorem create_intact (title description : String) :
    (create title description : Conversation K).Intact where
  numbered := rfl
  counted := rfl
  replied before m hpre := by simp [create] at hpre

theorem Intact.nextSequence (h : conv.Intact) : conv.nextSequence = conv.messages.length + 1 := by
  unfold Conversation.nextSequence
  rw [h.numbered]
  cases hlength : conv.messages.length with
  | zero => rfl
  | succ n =>
    have hmax : (range' 1 (n + 1)).max? = some (n + 1) := by
      rw [max?_eq_some_iff]
      constructor
      · simp only [mem_range'_1]
        omega
      · intro b hb
        simp only [mem_range'_1] at hb
        omega
    rw [hmax]
    rfl

theorem Intact.persistMessage (h : conv.Intact)
    (hreply : side = .assistant → ∃ sent ∈ conv.messages.getLast?, sent.side = .inbound ∧
      sent.call = c) : (conv.persistMessage side c).Intact where
  numbered := by
    simp only [Conversation.persistMessage, map_append, map_cons, map_nil, h.numbered,
      h.nextSequence, length_append, length_cons, length_nil]
    rw [range'_concat]
    simp [Nat.add_comm]
  counted := by simp [Conversation.persistMessage, h.counted]
  replied before m hpre hm := by
    simp only [Conversation.persistMessage] at hpre
    rw [prefix_concat_iff] at hpre
    rcases hpre with heq | hpre
    · obtain ⟨rfl, hlast⟩ := append_inj' heq rfl
      simp only [cons.injEq, and_true] at hlast
      subst hlast
      exact hreply hm
    · exact h.replied before m hpre hm

end Conversation

def Phase.late (phase : Phase) : Bool :=
  phase = .streaming || phase = .persistingReply || phase = .txB

def Txn.writes : Txn K → Bool
  | .turn _ => false
  | .update _ | .delete => true

/-- What keeps the turns intact. -/
structure Ordered (s : State K) : Prop where
  fresh : s.created = false → s.conversation = none ∧ ∀ c, (s.calls c).autoCreated = false
  locked : ∀ c, s.locked = some (.turn c) ↔ (s.calls c).phase.inTx ≠ none
  holds : ∀ c, s.locked = some (.turn c) →
    ∃ conv, s.conversation = some conv ∧ conv.lockHolder = some c
  first : ∀ c conv, s.conversation = some conv → (s.calls c).autoCreated = true →
    conv.messages.head? = some ⟨1, .inbound, c⟩
  last : ∀ c conv, s.conversation = some conv → conv.lockHolder = some c →
    (s.calls c).autoCreated = false → (s.calls c).phase.late = true →
      ∃ sent ∈ conv.messages.getLast?, sent.side = .inbound ∧ sent.call = c
  exclusive : ∀ txn, s.locked = some txn → txn.writes = true →
    ∃ conv, s.conversation = some conv ∧ conv.isLeaseActive s.now = false
  intact : ∀ conv, s.conversation = some conv → conv.Intact

/-- A step that the turns do not notice. -/
structure Quiet (s s' : State K) : Prop where
  created : s'.created = s.created
  conversation : s'.conversation = s.conversation
  locked : s'.locked = s.locked
  now : s.now ≤ s'.now
  autoCreated : ∀ c, (s'.calls c).autoCreated = (s.calls c).autoCreated
  inTx : ∀ c, (s'.calls c).phase.inTx = (s.calls c).phase.inTx
  late : ∀ c, (s'.calls c).autoCreated = false → (s'.calls c).phase.late = true →
    (s.calls c).phase.late = true

theorem isLeaseActive_later {conv : Conversation K} {now now' : Nat} (hle : now ≤ now')
    (h : conv.isLeaseActive now = false) : conv.isLeaseActive now' = false := by
  unfold Conversation.isLeaseActive at h ⊢
  cases hexpires : conv.lockExpiresAt with
  | none => simp
  | some expires =>
    simp only [hexpires, Option.any_some, Bool.and_eq_false_iff, decide_eq_false_iff_not] at h ⊢
    exact h.imp id fun hnot => by omega

section steps
variable {s s' : State K}

theorem Ordered.quiet (h : Ordered s) (hquiet : Quiet s s') : Ordered s' where
  fresh := by simpa only [hquiet.created, hquiet.conversation, hquiet.autoCreated] using h.fresh
  locked := by simpa only [hquiet.locked, hquiet.inTx] using h.locked
  holds := by simpa only [hquiet.locked, hquiet.conversation] using h.holds
  first := by simpa only [hquiet.conversation, hquiet.autoCreated] using h.first
  last c conv hconv hholder hauto hlate := by
    rw [hquiet.conversation] at hconv
    have hlate' := hquiet.late c hauto hlate
    rw [hquiet.autoCreated] at hauto
    exact h.last c conv hconv hholder hauto hlate'
  exclusive txn htxn hwrites := by
    rw [hquiet.locked] at htxn
    obtain ⟨conv, hconv, hactive⟩ := h.exclusive txn htxn hwrites
    exact ⟨conv, hquiet.conversation.trans hconv, isLeaseActive_later hquiet.now hactive⟩
  intact := by simpa only [hquiet.conversation] using h.intact

/-- The row is written with its messages kept, and nobody comes to hold its lease who has a message
to be replied to. -/
theorem Ordered.rewrite (h : Ordered s) {conv : Conversation K} (conv' : Conversation K)
    (hlocked : s.locked = none)
    (hconv : s.conversation = some conv) (hmessages : conv'.messages = conv.messages)
    (hcount : conv'.messageCount = conv.messageCount)
    (hholder : ∀ c, conv'.lockHolder = some c →
      conv.lockHolder = some c ∨ (s.calls c).phase.late = false) :
    Ordered (s.setConversation conv') where
  fresh hcreated := by simp [(h.fresh hcreated).1] at hconv
  locked := h.locked
  holds c hc := by simp [State.setConversation, hlocked] at hc
  first c _ heq hauto := by
    cases heq
    simpa only [hmessages] using h.first c conv hconv hauto
  last c _ heq hheld hauto hlate := by
    cases heq
    rcases hholder c hheld with hheld | hnot
    · simpa only [hmessages] using h.last c conv hconv hheld hauto hlate
    · cases hnot.symm.trans hlate
  exclusive txn htxn _ := by simp [State.setConversation, hlocked] at htxn
  intact _ heq := by
    cases heq
    have hintact := h.intact conv hconv
    exact ⟨by simpa only [hmessages] using hintact.numbered,
      by simpa only [hmessages, hcount] using hintact.counted,
      by simpa only [hmessages] using hintact.replied⟩

theorem Ordered.removed (h : Ordered s) (hcreated : s.created = true) (hlocked : s.locked = none) :
    Ordered { s with conversation := none } where
  fresh hnot := by cases hcreated.symm.trans hnot
  locked := h.locked
  holds c hc := by simp [hlocked] at hc
  first := nofun
  last := nofun
  exclusive txn htxn := by simp [hlocked] at htxn
  intact := nofun

theorem Ordered.writerLocks (h : Ordered s) {txn : Txn K} {conv : Conversation K}
    (hlocked : s.locked = none) (hwrites : txn.writes = true) (hconv : s.conversation = some conv)
    (hactive : conv.isLeaseActive s.now = false) : Ordered { s with locked := some txn } where
  fresh := h.fresh
  locked c := by
    rw [← h.locked c, hlocked]
    simp only [Option.some.injEq, reduceCtorEq, iff_false]
    rintro rfl
    cases hwrites
  holds c hc := by
    cases hc
    cases hwrites
  first := h.first
  last := h.last
  exclusive _ _ _ := ⟨conv, hconv, hactive⟩
  intact := h.intact

theorem Ordered.writerUnlocks (h : Ordered s) {txn : Txn K} (hlocked : s.locked = some txn)
    (hwrites : txn.writes = true) : Ordered { s with locked := none } where
  fresh := h.fresh
  locked c := by
    rw [← h.locked c, hlocked]
    simp only [reduceCtorEq, Option.some.injEq, false_iff]
    rintro rfl
    cases hwrites
  holds := nofun
  first := h.first
  last := h.last
  exclusive := nofun
  intact := h.intact

section calls
variable [DecidableEq K] {c : K} {call : Call}

@[simp] theorem setCall_created : (s.setCall c call).created = s.created := rfl

@[simp] theorem setCall_conversation : (s.setCall c call).conversation = s.conversation := rfl

@[simp] theorem setCall_locked : (s.setCall c call).locked = s.locked := rfl

@[simp] theorem setCall_now : (s.setCall c call).now = s.now := rfl

@[simp] theorem setCall_self : (s.setCall c call).calls c = call := by simp [State.setCall]

theorem setCall_of_ne {d : K} (hd : d ≠ c) : (s.setCall c call).calls d = s.calls d := by
  simp [State.setCall, hd]

theorem Quiet.setCall (hauto : call.autoCreated = (s.calls c).autoCreated)
    (hinTx : call.phase.inTx = (s.calls c).phase.inTx)
    (hlate : call.autoCreated = false → call.phase.late = true → (s.calls c).phase.late = true) :
    Quiet s (s.setCall c call) where
  created := rfl
  conversation := rfl
  locked := rfl
  now := Nat.le_refl _
  autoCreated d := by
    by_cases hd : d = c
    · simp [hd, hauto]
    · rw [setCall_of_ne hd]
  inTx d := by
    by_cases hd : d = c
    · simp [hd, hinTx]
    · rw [setCall_of_ne hd]
  late d := by
    by_cases hd : d = c
    · simpa [hd] using hlate
    · rw [setCall_of_ne hd]
      exact fun _ => id

omit [DecidableEq K] in
theorem Ordered.inTx_of_ne (h : Ordered s) (hlocked : s.locked = some (.turn c)) {d : K}
    (hd : d ≠ c) : (s.calls d).phase.inTx = none := by
  by_contra hin
  have heq := (h.locked d).mpr hin
  rw [hlocked] at heq
  exact hd (by simpa using heq.symm)

/-- A call leaves its transaction, or is no further with its turn than before. -/
theorem Ordered.leaves (h : Ordered s) (hlocked : s.locked = some (.turn c))
    (hauto : call.autoCreated = (s.calls c).autoCreated) (hinTx : call.phase.inTx = none)
    (hlate : call.autoCreated = false → call.phase.late = true → (s.calls c).phase.late = true) :
    Ordered ({ s with locked := none }.setCall c call) where
  fresh hcreated := by
    refine ⟨(h.fresh hcreated).1, fun d => ?_⟩
    by_cases hd : d = c
    · simpa [hd, hauto] using (h.fresh hcreated).2 c
    · simpa [setCall_of_ne hd] using (h.fresh hcreated).2 d
  locked d := by
    by_cases hd : d = c
    · simp [hd, hinTx]
    · simp [setCall_of_ne hd, h.inTx_of_ne hlocked hd]
  holds := nofun
  first d conv hconv hd := by
    by_cases hdc : d = c
    · subst hdc
      rw [setCall_self, hauto] at hd
      exact h.first d conv hconv hd
    · rw [setCall_of_ne hdc] at hd
      exact h.first d conv hconv hd
  last d conv hconv hheld hd hd' := by
    by_cases hdc : d = c
    · subst hdc
      rw [setCall_self] at hd hd'
      exact h.last d conv hconv hheld (hauto.symm.trans hd) (hlate hd hd')
    · rw [setCall_of_ne hdc] at hd hd'
      exact h.last d conv hconv hheld hd hd'
  exclusive := nofun
  intact := h.intact

/-- It takes the lock as the holder of the lease. -/
theorem Ordered.locks (h : Ordered s) {conv : Conversation K} (hlocked : s.locked = none)
    (hconv : s.conversation = some conv) (hholder : conv.lockHolder = some c)
    (hauto : call.autoCreated = (s.calls c).autoCreated) (hinTx : call.phase.inTx ≠ none)
    (hlate : call.phase.late = true → (s.calls c).phase.late = true) :
    Ordered ({ s with locked := some (.turn c) }.setCall c call) where
  fresh hcreated := by simp [(h.fresh hcreated).1] at hconv
  locked d := by
    by_cases hd : d = c
    · simp [hd, hinTx]
    · have hnot : (s.calls d).phase.inTx = none := by
        by_contra hin
        have heq := (h.locked d).mpr hin
        cases hlocked.symm.trans heq
      have hne : ¬ c = d := fun heq => hd heq.symm
      simp [setCall_of_ne hd, hnot, hne]
  holds d hd := by
    cases hd
    exact ⟨conv, hconv, hholder⟩
  first d conv hconv hd := by
    by_cases hdc : d = c
    · subst hdc
      rw [setCall_self, hauto] at hd
      exact h.first d conv hconv hd
    · rw [setCall_of_ne hdc] at hd
      exact h.first d conv hconv hd
  last d conv hconv hheld hd hd' := by
    by_cases hdc : d = c
    · subst hdc
      rw [setCall_self] at hd hd'
      exact h.last d conv hconv hheld (hauto.symm.trans hd) (hlate hd')
    · rw [setCall_of_ne hdc] at hd hd'
      exact h.last d conv hconv hheld hd hd'
  exclusive txn htxn hwrites := by
    cases htxn
    cases hwrites
  intact := h.intact

theorem inTx_cases {phase next retry : Phase} {side : Side}
    (h : phase.inTx = some (side, next, retry)) :
    phase = .txA ∧ side = .inbound ∧ next = .streaming ∧ retry = .persistingInbound ∨
      phase = .txB ∧ side = .assistant ∧ next = .releasing ∧ retry = .persistingReply := by
  cases phase <;> simp_all [Phase.inTx]

omit [DecidableEq K] in
/-- The message that is to be replied to is the last one when the reply is persisted. -/
theorem Ordered.replied (h : Ordered s) {conv : Conversation K} (hconv : s.conversation = some conv)
    (hholder : conv.lockHolder = some c) (hphase : (s.calls c).phase = .txB)
    (hone : (s.calls c).autoCreated = true → conv.messageCount = 1) :
    ∃ sent ∈ conv.messages.getLast?, sent.side = .inbound ∧ sent.call = c := by
  cases hauto : (s.calls c).autoCreated with
  | false => exact h.last c conv hconv hholder hauto (by simp [hphase, Phase.late])
  | true =>
    have hlength : conv.messages.length = 1 :=
      (h.intact conv hconv).counted.symm.trans (hone hauto)
    obtain ⟨m, hm⟩ := length_eq_one_iff.mp hlength
    have hhead := h.first c conv hconv hauto
    rw [hm, head?_cons, Option.some.injEq] at hhead
    exact ⟨m, by simp [hm], by simp [hhead], by simp [hhead]⟩

theorem Ordered.persists (h : Ordered s) {conv : Conversation K} {side : Side}
    {next retry phase : Phase} (hin : (s.calls c).phase.inTx = some (side, next, retry))
    (hconv : s.conversation = some conv)
    (hone : (s.calls c).phase = .txB → (s.calls c).autoCreated = true → conv.messageCount = 1)
    (hphase : phase = next ∨ phase = .releasing) :
    Ordered (({ s with locked := none }.setConversation (conv.persistMessage side c)).setCall c
      { s.calls c with phase := phase }) := by
  have hlocked : s.locked = some (.turn c) := (h.locked c).mpr (by simp [hin])
  have hholder : conv.lockHolder = some c := by
    obtain ⟨_, heq, hholder⟩ := h.holds c hlocked
    cases hconv.symm.trans heq
    exact hholder
  have hcases := inTx_cases hin
  have hleaves : phase.inTx = none ∧ (phase.late = true → side = .inbound) := by
    rcases hcases with ⟨-, rfl, rfl, -⟩ | ⟨-, rfl, rfl, -⟩ <;> rcases hphase with rfl | rfl <;>
      decide
  have hreply : side = .assistant →
      ∃ sent ∈ conv.messages.getLast?, sent.side = .inbound ∧ sent.call = c := by
    rintro rfl
    rcases hcases with ⟨-, hside, -⟩ | ⟨htxB, -⟩
    · cases hside
    · exact h.replied hconv hholder htxB (hone htxB)
  constructor
  · intro hcreated
    simp [(h.fresh hcreated).1] at hconv
  · intro d
    by_cases hd : d = c
    · simp [State.setConversation, hd, hleaves.1]
    · rw [setCall_of_ne hd]
      simp [State.setConversation, h.inTx_of_ne hlocked hd]
  · exact nofun
  · intro d _ heq hd
    cases heq
    have hd' : (s.calls d).autoCreated = true := by
      by_cases hdc : d = c
      · simpa [hdc] using hd
      · rwa [setCall_of_ne hdc] at hd
    simp [Conversation.persistMessage, head?_append, h.first d conv hconv hd']
  · intro d _ heq hheld _ hlate
    cases heq
    have hdc : c = d := Option.some.inj (hholder.symm.trans hheld)
    subst hdc
    rw [setCall_self] at hlate
    exact ⟨_, getLast?_concat, hleaves.2 hlate, rfl⟩
  · exact nofun
  · intro _ heq
    cases heq
    exact (h.intact conv hconv).persistMessage hreply

end calls

theorem Ordered.unlocked_of_fresh (h : Ordered s) (hcreated : s.created = false) :
    s.locked = none := by
  have hnone := (h.fresh hcreated).1
  cases hlocked : s.locked with
  | none => rfl
  | some txn =>
    cases txn with
    | turn c =>
      obtain ⟨conv, hconv, -⟩ := h.holds c hlocked
      cases hnone.symm.trans hconv
    | update | delete =>
      obtain ⟨conv, hconv, -⟩ := h.exclusive _ hlocked rfl
      cases hnone.symm.trans hconv

theorem Ordered.creates (h : Ordered s) {conv : Conversation K} (hcreated : s.created = false)
    (hcreated' : s'.created = true) (hlocked : s'.locked = s.locked)
    (hconv : s'.conversation = some conv) (hholder : conv.lockHolder = none) (hintact : conv.Intact)
    (hinTx : ∀ c, (s'.calls c).phase.inTx = (s.calls c).phase.inTx)
    (hfirst : ∀ c, (s'.calls c).autoCreated = true →
      conv.messages.head? = some ⟨1, .inbound, c⟩) : Ordered s' where
  fresh hnot := by cases hcreated'.symm.trans hnot
  locked c := by rw [hlocked, hinTx, h.locked]
  holds c hc := by
    rw [hlocked, h.unlocked_of_fresh hcreated] at hc
    cases hc
  first c conv' heq hc := by
    cases hconv.symm.trans heq
    exact hfirst c hc
  last c conv' heq hheld := by
    cases hconv.symm.trans heq
    cases hholder.symm.trans hheld
  exclusive txn htxn := by
    rw [hlocked, h.unlocked_of_fresh hcreated] at htxn
    cases htxn
  intact conv' heq := by
    cases hconv.symm.trans heq
    exact hintact

end steps

/-! The steps, one by one. -/

section events
variable [DecidableEq K] {s s' : State K} {c : K}

theorem Ordered.createConversation (h : Ordered s) {title description : String}
    (hstep : step s (.createConversation title description) = some s') : Ordered s' := by
  simp only [step.eq_def, Option.ite_none_right_eq_some, Option.some.injEq] at hstep
  obtain ⟨hcreated, rfl⟩ := hstep
  exact h.creates hcreated rfl rfl rfl rfl (Conversation.create_intact _ _) (fun _ => rfl)
    fun c hc => by cases ((h.fresh hcreated).2 c).symm.trans hc

theorem Ordered.autoCreate (h : Ordered s) (hstep : step s (.autoCreate c) = some s') :
    Ordered s' := by
  simp only [step.eq_def, stepCall.eq_def, Option.ite_none_right_eq_some, Option.some.injEq] at hstep
  obtain ⟨⟨hcreated, hidle⟩, rfl⟩ := hstep
  have hintact : ((Conversation.create "" "").persistMessage .inbound c).Intact :=
    (Conversation.create_intact "" "").persistMessage nofun
  refine h.creates hcreated rfl rfl rfl rfl hintact (fun d => ?_) fun d hd => ?_
  · by_cases hdc : d = c
    · simp [hdc, hidle, Phase.inTx]
    · rw [setCall_of_ne hdc]
      rfl
  · by_cases hdc : d = c
    · rw [hdc]
      rfl
    · rw [setCall_of_ne hdc] at hd
      cases ((h.fresh hcreated).2 d).symm.trans hd

theorem Ordered.generate (h : Ordered s) (hstep : step s (.generate c) = some s') :
    Ordered s' := by
  simp only [step.eq_def, stepCall.eq_def, Option.ite_none_right_eq_some, Option.some.injEq] at hstep
  obtain ⟨hidle, rfl⟩ := hstep
  refine h.quiet (Quiet.setCall rfl ?_ ?_)
  · rw [hidle]
    split <;> rfl
  · split <;> simp [Phase.late]

theorem Ordered.acquire (h : Ordered s) {now clock : Nat} {answered : Bool}
    (hstep : step s (.acquire c now clock answered) = some s') : Ordered s' := by
  simp only [step.eq_def, stepCall.eq_def, Option.ite_none_right_eq_some] at hstep
  obtain ⟨⟨hphase, -, hlocked⟩, hstep⟩ := hstep
  have hlate : (s.calls c).phase.late = false := by rw [hphase]; rfl
  split at hstep
  · cases hstep
    exact h.quiet (Quiet.setCall rfl (by rw [hphase]; rfl) (by simp [Phase.late]))
  · rename_i conv' hacquire
    obtain ⟨conv, hconv, hacquire⟩ := Option.bind_eq_some_iff.mp hacquire
    simp only [Conversation.acquireConversationLease, Option.ite_none_right_eq_some,
      Option.some.injEq] at hacquire
    obtain ⟨-, rfl⟩ := hacquire
    have hrewrite := h.rewrite ({ conv with
        lockHolder := some c, lockExpiresAt := some (now + leaseTTL) }) hlocked hconv rfl rfl
      fun d hd => .inr (Option.some.inj hd ▸ hlate)
    split at hstep
    · cases hstep
      refine hrewrite.quiet (Quiet.setCall rfl ?_ ?_)
      · simp only [State.setConversation, Call.acquired, hphase]
        split <;> rfl
      · intro hauto
        have hnot : (s.calls c).autoCreated = false := hauto
        simp [Call.acquired, hnot, Phase.late]
    · cases hstep
      refine hrewrite.quiet (Quiet.setCall rfl ?_ (by simp [Phase.late]))
      simp only [State.setConversation, hphase]
      rfl

theorem Ordered.lock (h : Ordered s) (hstep : step s (.lock c) = some s') : Ordered s' := by
  simp only [step.eq_def, stepCall.eq_def] at hstep
  split at hstep
  · cases hstep
  · rename_i side tx hpersisting
    have hphase : (s.calls c).phase = .persistingInbound ∧ tx = .txA ∨
        (s.calls c).phase = .persistingReply ∧ tx = .txB := by
      cases hphase : (s.calls c).phase <;> simp_all [Phase.persisting]
    have hinTx : (s.calls c).phase.inTx = none := by
      rcases hphase with ⟨hphase, -⟩ | ⟨hphase, -⟩ <;> rw [hphase] <;> rfl
    simp only [Option.ite_none_right_eq_some] at hstep
    obtain ⟨hlocked, hstep⟩ := hstep
    split at hstep
    · cases hstep
      exact h.quiet (Quiet.setCall rfl hinTx.symm (by simp [Phase.late]))
    · rename_i conv hconv
      split at hstep
      · rename_i hholder
        cases hstep
        refine h.locks hlocked hconv hholder rfl ?_ ?_
        · rcases hphase with ⟨-, rfl⟩ | ⟨-, rfl⟩ <;> simp [Phase.inTx]
        · rcases hphase with ⟨hphase, rfl⟩ | ⟨hphase, rfl⟩ <;> simp [hphase, Phase.late]
      · cases hstep
        exact h.quiet (Quiet.setCall rfl hinTx.symm (by simp [Phase.late]))

theorem Ordered.persist (h : Ordered s) {answered : Bool}
    (hcareful : (s.calls c).phase = .txB → (s.calls c).autoCreated = true →
      ∀ conv, s.conversation = some conv → conv.messageCount = 1)
    (hstep : step s (.persist c answered) = some s') : Ordered s' := by
  simp only [step.eq_def, stepCall.eq_def] at hstep
  split at hstep
  · cases hstep
  · rename_i side next retry hin
    obtain ⟨conv, hconv, rfl⟩ := Option.map_eq_some_iff.mp hstep
    refine h.persists hin hconv (fun htxB hauto => hcareful htxB hauto conv hconv) ?_
    cases answered <;> simp

theorem Ordered.rollback (h : Ordered s) {replayed : Bool}
    (hstep : step s (.rollback c replayed) = some s') : Ordered s' := by
  simp only [step.eq_def, stepCall.eq_def] at hstep
  split at hstep
  · cases hstep
  · rename_i side next retry hin
    cases hstep
    have hlocked : s.locked = some (.turn c) := (h.locked c).mpr (by simp [hin])
    refine h.leaves hlocked rfl ?_ ?_
    · rcases inTx_cases hin with ⟨-, -, -, rfl⟩ | ⟨-, -, -, rfl⟩ <;> cases replayed <;> rfl
    · intro _
      rcases inTx_cases hin with ⟨hphase, -, -, rfl⟩ | ⟨hphase, -, -, rfl⟩ <;>
        cases replayed <;> simp [hphase, Phase.late]

theorem Ordered.upstream (h : Ordered s) {clock : Nat}
    (hstep : step s (.upstream c clock) = some s') : Ordered s' := by
  simp only [step.eq_def, stepCall.eq_def, Option.ite_none_right_eq_some, Option.some.injEq] at hstep
  obtain ⟨-, rfl⟩ := hstep
  exact h.quiet (Quiet.setCall rfl rfl fun _ => id)

theorem Ordered.finish (h : Ordered s) (hstep : step s (.finish c) = some s') : Ordered s' := by
  simp only [step.eq_def, stepCall.eq_def, Option.ite_none_right_eq_some, Option.some.injEq] at hstep
  obtain ⟨hphase, rfl⟩ := hstep
  exact h.quiet (Quiet.setCall rfl (by rw [hphase]; rfl) fun _ _ => by simp [hphase, Phase.late])

theorem Ordered.fail (h : Ordered s) (hstep : step s (.fail c) = some s') : Ordered s' := by
  simp only [step.eq_def, stepCall.eq_def] at hstep
  split at hstep <;> cases hstep
  all_goals
    rename_i hphase
    exact h.quiet (Quiet.setCall rfl (by rw [hphase]; rfl) (by simp [Phase.late]))

theorem Ordered.release (h : Ordered s) (hstep : step s (.release c) = some s') :
    Ordered s' := by
  simp only [step.eq_def, stepCall.eq_def, Option.ite_none_right_eq_some, Option.some.injEq] at hstep
  obtain ⟨⟨hphase, hlocked⟩, rfl⟩ := hstep
  have hinTx : (s.calls c).phase.inTx = none := by rw [hphase]; rfl
  cases hconv : s.conversation with
  | none =>
    have hs : { s with conversation := none } = s := by rw [← hconv]
    simp only [Option.map_none, hs]
    exact h.quiet (Quiet.setCall rfl hinTx.symm (by simp [Phase.late]))
  | some conv =>
    have hrewrite := h.rewrite (conv.releaseConversationLease c) hlocked hconv
      (by unfold Conversation.releaseConversationLease; split <;> rfl)
      (by unfold Conversation.releaseConversationLease; split <;> rfl) fun d hd => by
        unfold Conversation.releaseConversationLease at hd
        split at hd
        · cases hd
        · exact .inl hd
    exact hrewrite.quiet (Quiet.setCall rfl hinTx.symm (by simp [Phase.late]))

theorem Ordered.crash (h : Ordered s) (hstep : step s (.crash c) = some s') : Ordered s' := by
  simp only [step.eq_def, stepCall.eq_def, Option.ite_none_left_eq_some, Option.some.injEq] at hstep
  obtain ⟨-, rfl⟩ := hstep
  by_cases hlocked : s.locked = some (.turn c)
  · simp only [hlocked, if_true]
    exact h.leaves hlocked rfl rfl (by simp [Phase.late])
  · simp only [hlocked, if_false]
    have hinTx : (s.calls c).phase.inTx = none := by
      by_contra hin
      exact hlocked ((h.locked c).mpr hin)
    exact h.quiet (Quiet.setCall rfl hinTx.symm (by simp [Phase.late]))

theorem Ordered.heartbeat (h : Ordered s) {call : Call} (hphase : call.phase = (s.calls c).phase)
    (hauto : call.autoCreated = (s.calls c).autoCreated) : Ordered (s.setCall c call) :=
  h.quiet (Quiet.setCall hauto (by rw [hphase]) fun _ hlate => hphase ▸ hlate)

theorem Ordered.tick (h : Ordered s) {clock : Nat} (hstep : step s (.tick c clock) = some s') :
    Ordered s' := by
  simp only [step.eq_def, stepHeartbeat.eq_def, Option.ite_none_right_eq_some, Option.some.injEq] at hstep
  obtain ⟨-, rfl⟩ := hstep
  refine h.heartbeat ?_ ?_ <;>
  · unfold Call.tick
    simp only
    split_ifs <;> rfl

theorem Ordered.extend (h : Ordered s) {now : Nat} {answered : Bool}
    (hstep : step s (.extend c now answered) = some s') : Ordered s' := by
  simp only [step.eq_def, stepHeartbeat.eq_def, Option.ite_none_right_eq_some] at hstep
  obtain ⟨⟨-, -, hlocked⟩, hstep⟩ := hstep
  split at hstep
  · rename_i conv' hextend
    cases hstep
    obtain ⟨conv, hconv, hextend⟩ := Option.bind_eq_some_iff.mp hextend
    simp only [Conversation.heartbeatConversationLease, Option.ite_none_right_eq_some,
      Option.some.injEq] at hextend
    obtain ⟨-, rfl⟩ := hextend
    have hrewrite := h.rewrite ({ conv with lockExpiresAt := some (now + leaseTTL) }) hlocked
      hconv rfl rfl fun _ => .inl
    exact hrewrite.heartbeat rfl rfl
  · split at hstep <;> cases hstep <;> exact h.heartbeat rfl rfl

omit [DecidableEq K] in
/-- The check of a writer holds until its commit. -/
theorem Ordered.checks (h : Ordered s) {txn : Txn K} {clock : Nat} (hwrites : txn.writes = true)
    (hcareful : ∀ conv, s.conversation = some conv → conv.isLeaseActive s.now = true →
      conv.isLeaseActive clock = true)
    (hstep : (if s.locked = none then s.conversation.map fun conv =>
      if conv.isLeaseActive clock then s else { s with locked := some txn } else none) = some s') :
    Ordered s' := by
  simp only [Option.ite_none_right_eq_some] at hstep
  obtain ⟨hlocked, hstep⟩ := hstep
  obtain ⟨conv, hconv, rfl⟩ := Option.map_eq_some_iff.mp hstep
  split
  · exact h
  · rename_i hactive
    refine h.writerLocks hlocked hwrites hconv (Bool.eq_false_of_not_eq_true fun hnow => ?_)
    exact hactive (hcareful conv hconv hnow)

omit [DecidableEq K] in
theorem Ordered.created_of_some (h : Ordered s) {conv : Conversation K}
    (hconv : s.conversation = some conv) : s.created = true := by
  cases hcreated : s.created with
  | true => rfl
  | false => cases (h.fresh hcreated).1.symm.trans hconv

theorem Ordered.commit (h : Ordered s) (hstep : step s .commit = some s') : Ordered s' := by
  simp only [step.eq_def, stepWriter.eq_def] at hstep
  split at hstep
  · rename_i params hlocked
    obtain ⟨conv, hconv, rfl⟩ := Option.map_eq_some_iff.mp hstep
    have hunlocked := h.writerUnlocks hlocked rfl
    have hrewrite := hunlocked.rewrite (conv.updateConversation params) rfl hconv rfl rfl
      fun _ => .inl
    exact hrewrite.quiet ⟨rfl, rfl, rfl, Nat.le_refl _, fun _ => rfl, fun _ => rfl, fun _ _ => id⟩
  · rename_i hlocked
    cases hstep
    obtain ⟨conv, hconv, -⟩ := h.exclusive _ hlocked rfl
    exact (h.writerUnlocks hlocked rfl).removed (h.created_of_some hconv) rfl
  · cases hstep

theorem Ordered.abort (h : Ordered s) (hstep : step s .abort = some s') : Ordered s' := by
  simp only [step.eq_def, stepWriter.eq_def] at hstep
  split at hstep
  · rename_i hlocked
    cases hstep
    exact h.writerUnlocks hlocked rfl
  · rename_i hlocked
    cases hstep
    exact h.writerUnlocks hlocked rfl
  · cases hstep

theorem Ordered.setAutoTitle (h : Ordered s) {k : K} {title : String}
    (hstep : step s (.setAutoTitle k title) = some s') : Ordered s' := by
  simp only [step.eq_def, stepSummary.eq_def] at hstep
  split at hstep
  · simp only [Option.ite_none_right_eq_some, Option.some.injEq] at hstep
    obtain ⟨hlocked, rfl⟩ := hstep
    cases hconv : s.conversation with
    | none =>
      exact h.quiet ⟨rfl, by simp [hconv], rfl, Nat.le_refl _, fun _ => rfl, fun _ => rfl,
        fun _ _ => id⟩
    | some conv =>
      have hrewrite := h.rewrite (conv.setAutoTitle title) hlocked hconv rfl rfl
        fun _ => .inl
      exact hrewrite.quiet ⟨rfl, rfl, rfl, Nat.le_refl _, fun _ => rfl, fun _ => rfl, fun _ _ => id⟩
  · cases hstep

end events

/-- When a call that created the conversation persists its reply nobody else has persisted, and no
server's clock shows a lease as expired that is not. -/
def careful (s : State K) : Event K → Bool
  | .persist c _ => s.conversation.all fun conv =>
    (s.calls c).phase ≠ .txB || !(s.calls c).autoCreated || conv.messageCount = 1
  | .update _ clock | .delete clock => s.conversation.all fun conv =>
    !conv.isLeaseActive s.now || conv.isLeaseActive clock
  | _ => true

theorem initial_ordered : Ordered (initial : State K) where
  fresh _ := ⟨rfl, fun _ => rfl⟩
  locked c := by simp [initial, Call.idle, Phase.inTx]
  holds := nofun
  first := nofun
  last := nofun
  exclusive := nofun
  intact := nofun

section runs
variable [DecidableEq K] {s s' : State K}

theorem Ordered.step (h : Ordered s) {a : Event K} (hcareful : careful s a = true)
    (hstep : AiChat.step s a = some s') : Ordered s' := by
  cases a with
  | elapse d =>
    cases hstep
    exact h.quiet ⟨rfl, rfl, rfl, Nat.le_add_right _ _, fun _ => rfl, fun _ => rfl, fun _ _ => id⟩
  | createConversation title description => exact h.createConversation hstep
  | autoCreate c => exact h.autoCreate hstep
  | generate c => exact h.generate hstep
  | acquire c now clock answered => exact h.acquire hstep
  | lock c => exact h.lock hstep
  | persist c answered =>
    refine h.persist (fun htxB hauto conv hconv => ?_) hstep
    simpa [careful, hconv, htxB, hauto] using hcareful
  | rollback c replayed => exact h.rollback hstep
  | upstream c clock => exact h.upstream hstep
  | finish c => exact h.finish hstep
  | fail c => exact h.fail hstep
  | tick c clock => exact h.tick hstep
  | extend c now answered => exact h.extend hstep
  | stopHeartbeat c =>
    cases hstep
    exact h.heartbeat rfl rfl
  | release c => exact h.release hstep
  | crash c => exact h.crash hstep
  | update params clock =>
    refine h.checks rfl (fun conv hconv hnow => ?_) hstep
    simpa [careful, hconv, hnow] using hcareful
  | delete clock =>
    refine h.checks rfl (fun conv hconv hnow => ?_) hstep
    simpa [careful, hconv, hnow] using hcareful
  | commit => exact h.commit hstep
  | abort => exact h.abort hstep
  | setAutoTitle k title => exact h.setAutoTitle hstep
  | summarize k =>
    simp only [AiChat.step.eq_def, stepSummary.eq_def, Option.ite_none_right_eq_some,
      Option.some.injEq] at hstep
    obtain ⟨-, rfl⟩ := hstep
    exact h.quiet ⟨rfl, rfl, rfl, Nat.le_refl _, fun _ => rfl, fun _ => rfl, fun _ _ => id⟩
  | endSummary k =>
    cases hstep
    exact h.quiet ⟨rfl, rfl, rfl, Nat.le_refl _, fun _ => rfl, fun _ => rfl, fun _ _ => id⟩

/-- The turns are intact, and what an update or a deletion commits is not under a lease. -/
structure TurnsIntact (s : State K) : Prop where
  intact : ∀ conv, s.conversation = some conv → conv.Intact
  apart : ∀ s', step s .commit = some s' →
    ∀ conv, s.conversation = some conv → conv.isLeaseActive s.now = false

theorem Ordered.turnsIntact (h : Ordered s) : TurnsIntact s where
  intact := h.intact
  apart s' hstep conv hconv := by
    simp only [AiChat.step.eq_def, stepWriter.eq_def] at hstep
    have hactive : ∀ txn, s.locked = some txn → txn.writes = true →
        conv.isLeaseActive s.now = false := by
      intro txn htxn hwrites
      obtain ⟨conv', hconv', hactive⟩ := h.exclusive txn htxn hwrites
      cases hconv.symm.trans hconv'
      exact hactive
    split at hstep
    · rename_i params hlocked
      exact hactive _ hlocked rfl
    · rename_i hlocked
      exact hactive _ hlocked rfl
    · cases hstep

/-- Along every careful run. -/
theorem turns_intact (hrun : Runs step (fun s a => careful s a = true) initial s) :
    TurnsIntact s :=
  (hrun.invariant initial_ordered fun _ _ _ h hcareful hstep =>
    h.step hcareful hstep).turnsIntact

end runs

/-! A conversation that is created, answered, renamed and gone on with by another call. -/

def twoTurns : List (Event Bool) :=
  [.autoCreate true, .acquire true 0 0 true, .finish true, .lock true, .persist true true,
    .release true, .update ⟨some "Plans", none, none, none⟩ 0, .commit, .generate false,
    .acquire false 0 0 true, .lock false, .persist false true, .finish false, .lock false,
    .persist false true]

theorem turns_intact_two : ∃ s, exec step initial twoTurns = some s ∧ TurnsIntact s := by
  have h : (exec step initial twoTurns).isSome := by decide
  exact ⟨_, (Option.some_get h).symm,
    turns_intact (.of_exec twoTurns (Option.some_get h).symm (by decide))⟩

/-! Another call persists before the one that created the conversation has its lease; and a server
whose clock is a minute ahead takes a lease for expired. -/

def overtaken : List (Event Bool) :=
  [.autoCreate true, .generate false, .acquire false 0 0 true, .lock false, .persist false true,
    .finish false, .lock false, .persist false true, .release false, .acquire true 0 0 true,
    .finish true, .lock true, .persist true true]

def fastClock : List (Event Bool) :=
  [.createConversation "" "", .generate true, .acquire true 0 0 true,
    .update ⟨some "Plans", none, none, none⟩ (60 * second)]

theorem turns_not_intact :
    ((exec step initial overtaken).bind (·.conversation)).map (·.messages) =
        some [⟨1, .inbound, true⟩, ⟨2, .inbound, false⟩, ⟨3, .assistant, false⟩,
          ⟨4, .assistant, true⟩] ∧
      ((exec step initial fastClock).bind fun s => (step s .commit).bind fun _ =>
        s.conversation.map (·.isLeaseActive s.now)) = some true := by
  decide

end Pivox.AiChat
