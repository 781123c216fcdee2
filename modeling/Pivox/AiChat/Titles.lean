import Pivox.AiChat.Turns

/-!
The titles of conversations. What protects a title that the user has set is the flag as it was when
a summary began; the statement that writes the summary's title asks for nothing.
-/

namespace Pivox.AiChat
open Transition
variable {K : Type}

/- The second conversation has the title of the first, and set by the same. -/
def SameTitle (conv conv' : Conversation K) : Prop :=
  conv'.title = conv.title ∧ conv'.titleUserSet = conv.titleUserSet

section statements
variable [DecidableEq K] {conv conv' : Conversation K} {c : K} {now : Nat}

theorem acquireConversationLease_title (h : conv.acquireConversationLease c now = some conv') :
    SameTitle conv conv' := by
  simp only [Conversation.acquireConversationLease, Option.ite_none_right_eq_some,
    Option.some.injEq] at h
  obtain ⟨-, rfl⟩ := h
  exact ⟨rfl, rfl⟩

theorem heartbeatConversationLease_title (h : conv.heartbeatConversationLease c now = some conv') :
    SameTitle conv conv' := by
  simp only [Conversation.heartbeatConversationLease, Option.ite_none_right_eq_some,
    Option.some.injEq] at h
  obtain ⟨-, rfl⟩ := h
  exact ⟨rfl, rfl⟩

theorem releaseConversationLease_title (conv : Conversation K) (c : K) :
    SameTitle conv (conv.releaseConversationLease c) := by
  unfold Conversation.releaseConversationLease
  split <;> exact ⟨rfl, rfl⟩

end statements

/-- A step that leaves the title, and the summaries under way. -/
structure TitleKept (s s' : State K) : Prop where
  created : s'.created = s.created
  conversation : ∀ conv', s'.conversation = some conv' →
    ∃ conv, s.conversation = some conv ∧ SameTitle conv conv'
  summaries : s'.summaries = s.summaries

namespace TitleKept
variable {s s' : State K} {conv conv' : Conversation K}

theorem refl (s : State K) : TitleKept s s := ⟨rfl, fun conv hconv => ⟨conv, hconv, rfl, rfl⟩, rfl⟩

theorem locked (h : TitleKept s s') (locked : Option (Txn K)) :
    TitleKept s { s' with locked := locked } := ⟨h.created, h.conversation, h.summaries⟩

theorem row (h : TitleKept s s') (hconv : s.conversation = some conv)
    (htitle : SameTitle conv conv') : TitleKept s (s'.setConversation conv') where
  created := h.created
  conversation _ heq := by
    cases heq
    exact ⟨conv, hconv, htitle⟩
  summaries := h.summaries

theorem setCall [DecidableEq K] (h : TitleKept s s') (c : K) (call : Call) :
    TitleKept s (s'.setCall c call) := ⟨h.created, h.conversation, h.summaries⟩

end TitleKept

section steps
variable [DecidableEq K] {s s' : State K} {c : K} {a : Event K}

theorem stepCall_titleKept (hnot : ∀ d, a ≠ .autoCreate d) (hstep : stepCall s c a = some s') :
    TitleKept s s' := by
  have hrefl := TitleKept.refl s
  cases a with
  | autoCreate d => exact absurd rfl (hnot d)
  | generate | upstream | finish =>
    simp only [stepCall.eq_def, Option.ite_none_right_eq_some, Option.some.injEq] at hstep
    obtain ⟨-, rfl⟩ := hstep
    exact hrefl.setCall _ _
  | acquire d now clock answered =>
    simp only [stepCall.eq_def, Option.ite_none_right_eq_some] at hstep
    obtain ⟨-, hstep⟩ := hstep
    split at hstep
    · cases hstep
      exact hrefl.setCall _ _
    · rename_i conv' hacquire
      obtain ⟨conv, hconv, hacquire⟩ := Option.bind_eq_some_iff.mp hacquire
      have htitle := acquireConversationLease_title hacquire
      split at hstep <;> cases hstep <;> exact (hrefl.row hconv htitle).setCall _ _
  | lock d =>
    simp only [stepCall.eq_def] at hstep
    split at hstep
    · cases hstep
    · simp only [Option.ite_none_right_eq_some] at hstep
      obtain ⟨-, hstep⟩ := hstep
      split at hstep
      · cases hstep
        exact hrefl.setCall _ _
      · split at hstep <;> cases hstep
        · exact (hrefl.locked _).setCall _ _
        · exact hrefl.setCall _ _
  | persist d answered =>
    simp only [stepCall.eq_def] at hstep
    split at hstep
    · cases hstep
    · obtain ⟨conv, hconv, rfl⟩ := Option.map_eq_some_iff.mp hstep
      have htitle : ∀ side, SameTitle conv (conv.persistMessage side c) := fun _ => ⟨rfl, rfl⟩
      exact ((hrefl.locked _).row hconv (htitle _)).setCall _ _
  | rollback d replayed =>
    simp only [stepCall.eq_def] at hstep
    split at hstep <;> cases hstep
    exact (hrefl.locked _).setCall _ _
  | fail d =>
    simp only [stepCall.eq_def] at hstep
    split at hstep <;> cases hstep <;> exact hrefl.setCall _ _
  | release d =>
    simp only [stepCall.eq_def, Option.ite_none_right_eq_some, Option.some.injEq] at hstep
    obtain ⟨-, rfl⟩ := hstep
    have hkept : TitleKept s { s with
        conversation := s.conversation.map fun conv => conv.releaseConversationLease c } := by
      refine ⟨rfl, fun conv' hconv' => ?_, rfl⟩
      obtain ⟨conv, hconv, rfl⟩ := Option.map_eq_some_iff.mp hconv'
      exact ⟨conv, hconv, releaseConversationLease_title conv c⟩
    exact hkept.setCall _ _
  | crash d =>
    simp only [stepCall.eq_def, Option.ite_none_left_eq_some, Option.some.injEq] at hstep
    obtain ⟨-, rfl⟩ := hstep
    exact (hrefl.locked _).setCall _ _
  | _ => cases hstep

theorem stepHeartbeat_titleKept (hstep : stepHeartbeat s c a = some s') : TitleKept s s' := by
  have hrefl := TitleKept.refl s
  cases a with
  | tick =>
    simp only [stepHeartbeat.eq_def, Option.ite_none_right_eq_some, Option.some.injEq] at hstep
    obtain ⟨-, rfl⟩ := hstep
    exact hrefl.setCall _ _
  | extend d now answered =>
    simp only [stepHeartbeat.eq_def, Option.ite_none_right_eq_some] at hstep
    obtain ⟨-, hstep⟩ := hstep
    split at hstep
    · rename_i conv' hextend
      cases hstep
      obtain ⟨conv, hconv, hextend⟩ := Option.bind_eq_some_iff.mp hextend
      exact (hrefl.row hconv (heartbeatConversationLease_title hextend)).setCall _ _
    · split at hstep <;> cases hstep <;> exact hrefl.setCall _ _
  | stopHeartbeat =>
    cases hstep
    exact hrefl.setCall _ _
  | _ => cases hstep

omit [DecidableEq K] in
theorem stepWriter_titleKept (hnot : a ≠ .commit) (hstep : stepWriter s a = some s') :
    TitleKept s s' := by
  have hrefl := TitleKept.refl s
  cases a with
  | commit => exact absurd rfl hnot
  | update | delete =>
    simp only [stepWriter.eq_def, Option.ite_none_right_eq_some] at hstep
    obtain ⟨-, hstep⟩ := hstep
    obtain ⟨conv, -, rfl⟩ := Option.map_eq_some_iff.mp hstep
    split
    · exact hrefl
    · exact hrefl.locked _
  | abort =>
    simp only [stepWriter.eq_def] at hstep
    split at hstep <;> cases hstep <;> exact hrefl.locked _
  | _ => cases hstep

/-- What else a step can be: one that creates the conversation, commits or is a summary's. -/
theorem step_titleKept (hstep : step s a = some s') : TitleKept s s' ∨ a = .commit ∨
    (∃ k, stepSummary s k a = some s') ∨
      s.created = false ∧ s'.created = true ∧ s'.summaries = s.summaries := by
  cases a with
  | elapse =>
    cases hstep
    exact .inl ⟨rfl, fun conv hconv => ⟨conv, hconv, rfl, rfl⟩, rfl⟩
  | createConversation =>
    simp only [step.eq_def, Option.ite_none_right_eq_some, Option.some.injEq] at hstep
    obtain ⟨hcreated, rfl⟩ := hstep
    exact .inr (.inr (.inr ⟨hcreated, rfl, rfl⟩))
  | autoCreate =>
    simp only [step.eq_def, stepCall.eq_def, Option.ite_none_right_eq_some, Option.some.injEq] at hstep
    obtain ⟨⟨hcreated, -⟩, rfl⟩ := hstep
    exact .inr (.inr (.inr ⟨hcreated, rfl, rfl⟩))
  | generate | acquire | lock | persist | rollback | upstream | finish | fail | release | crash =>
    simp only [step.eq_def] at hstep
    exact .inl (stepCall_titleKept (by simp) hstep)
  | tick | extend | stopHeartbeat =>
    simp only [step.eq_def] at hstep
    exact .inl (stepHeartbeat_titleKept hstep)
  | update | delete | abort =>
    simp only [step.eq_def] at hstep
    exact .inl (stepWriter_titleKept (by simp) hstep)
  | commit => exact .inr (.inl rfl)
  | summarize | setAutoTitle | endSummary =>
    simp only [step.eq_def] at hstep
    exact .inr (.inr (.inl ⟨_, hstep⟩))

end steps

/-- What is known of the flag while a summary is under way. -/
structure Titled (s : State K) : Prop where
  fresh : s.created = false →
    s.conversation = none ∧ ∀ k retitled, s.summaries k ≠ .summarizing retitled
  summarizing : ∀ k retitled, s.summaries k = .summarizing retitled →
    ∀ conv, s.conversation = some conv → conv.titleUserSet = retitled

namespace Titled
variable {s s' : State K}

theorem kept (h : Titled s) (hkept : TitleKept s s') : Titled s' where
  fresh hcreated := by
    obtain ⟨hnone, hidle⟩ := h.fresh (hkept.created.symm.trans hcreated)
    refine ⟨?_, by rwa [hkept.summaries]⟩
    cases hconv : s'.conversation with
    | none => rfl
    | some conv' =>
      obtain ⟨conv, hconv, -⟩ := hkept.conversation conv' hconv
      cases hnone.symm.trans hconv
  summarizing k retitled hk conv' hconv' := by
    obtain ⟨conv, hconv, -, hset⟩ := hkept.conversation conv' hconv'
    rw [hkept.summaries] at hk
    exact hset.trans (h.summarizing k retitled hk conv hconv)

theorem creates (h : Titled s) (hcreated : s.created = false) (hcreated' : s'.created = true)
    (hsummaries : s'.summaries = s.summaries) : Titled s' where
  fresh hnot := by cases hcreated'.symm.trans hnot
  summarizing k retitled hk := by
    rw [hsummaries] at hk
    exact absurd hk ((h.fresh hcreated).2 k retitled)

variable [DecidableEq K]

theorem commit (h : Titled s) (hstep : step s .commit = some s') : Titled s' := by
  simp only [step.eq_def, stepWriter.eq_def] at hstep
  split at hstep
  · rename_i params _
    obtain ⟨conv, hconv, rfl⟩ := Option.map_eq_some_iff.mp hstep
    constructor
    · intro hcreated
      cases (h.fresh hcreated).1.symm.trans hconv
    · intro k retitled hk _ heq
      cases heq
      cases htitle : params.title with
      | none =>
        have hset : conv.titleUserSet = retitled :=
          h.summarizing k retitled (by simpa [htitle] using hk) conv hconv
        simpa [Conversation.updateConversation, htitle] using hset
      | some title =>
        have hretitled : retitled = true := by
          simp only [htitle, Option.isSome_some, if_true] at hk
          cases hsummary : s.summaries k <;> simp [hsummary, Summary.retitle] at hk
          exact hk
        simp [Conversation.updateConversation, htitle, hretitled]
  · cases hstep
    constructor
    · intro hcreated
      exact ⟨rfl, (h.fresh hcreated).2⟩
    · intro k retitled _ conv hconv
      cases hconv
  · cases hstep

theorem summary (h : Titled s) {k : K} {summary : Summary}
    (hsummary : ∀ retitled, summary = .summarizing retitled →
      ∃ conv, s.conversation = some conv ∧ conv.titleUserSet = retitled) :
    Titled { s with summaries := Function.update s.summaries k summary } where
  fresh hcreated := by
    obtain ⟨hnone, hidle⟩ := h.fresh hcreated
    refine ⟨hnone, fun k' retitled => ?_⟩
    by_cases hk : k' = k
    · subst hk
      simp only [Function.update_self]
      intro heq
      obtain ⟨conv, hconv, -⟩ := hsummary retitled heq
      cases hnone.symm.trans hconv
    · simpa [Function.update_of_ne hk] using hidle k' retitled
  summarizing k' retitled hk' conv hconv := by
    by_cases hk : k' = k
    · subst hk
      simp only [Function.update_self] at hk'
      obtain ⟨conv', hconv', hset⟩ := hsummary retitled hk'
      cases hconv.symm.trans hconv'
      exact hset
    · simp only [Function.update_of_ne hk] at hk'
      exact h.summarizing k' retitled hk' conv hconv

theorem stepSummary {a : Event K} (h : Titled s) {k : K}
    (hstep : AiChat.stepSummary s k a = some s') : Titled s' := by
  cases a with
  | summarize =>
    simp only [AiChat.stepSummary.eq_def, Option.ite_none_right_eq_some, Option.some.injEq] at hstep
    obtain ⟨-, rfl⟩ := hstep
    refine h.summary fun retitled heq => ?_
    cases hconv : s.conversation with
    | none => simp [hconv] at heq
    | some conv =>
      cases hset : conv.titleUserSet <;> simp [hconv, hset] at heq
      exact ⟨conv, rfl, hset.trans heq.symm⟩
  | setAutoTitle _ title =>
    simp only [AiChat.stepSummary.eq_def] at hstep
    split at hstep
    · simp only [Option.ite_none_right_eq_some, Option.some.injEq] at hstep
      obtain ⟨-, rfl⟩ := hstep
      have hdone : Titled { s with summaries := Function.update s.summaries k .done } := by
        apply h.summary
        intro retitled heq
        cases heq
      constructor
      · intro hcreated
        obtain ⟨hnone, hidle⟩ := hdone.fresh hcreated
        exact ⟨by simp [show s.conversation = none from hnone], hidle⟩
      · intro k' retitled hk' conv' hconv'
        obtain ⟨conv, hconv, rfl⟩ := Option.map_eq_some_iff.mp hconv'
        exact hdone.summarizing k' retitled hk' conv hconv
    · cases hstep
  | endSummary =>
    cases hstep
    apply h.summary
    intro retitled heq
    cases heq
  | _ => cases hstep

theorem step {a : Event K} (h : Titled s) (hstep : AiChat.step s a = some s') : Titled s' := by
  rcases step_titleKept hstep with hkept | rfl | ⟨k, hsummary⟩ | ⟨hcreated, hcreated', hsummaries⟩
  · exact h.kept hkept
  · exact h.commit hstep
  · exact h.stepSummary hsummary
  · exact h.creates hcreated hcreated' hsummaries

omit [DecidableEq K] in
theorem initial_titled : Titled (initial : State K) := ⟨fun _ => ⟨rfl, nofun⟩, nofun⟩

end Titled

/-- A title that the user has set stays so, changes only by an update that names it and is not
written by a summary. -/
structure Sticky (s : State K) (a : Event K) (s' : State K) : Prop where
  raised : ∀ conv conv', s.conversation = some conv → s'.conversation = some conv' →
    conv.titleUserSet = true → conv'.titleUserSet = true
  changed : ∀ conv conv', s.conversation = some conv → s'.conversation = some conv' →
    conv.titleUserSet = true → conv'.title ≠ conv.title →
      ∃ params, a = .commit ∧ s.locked = some (.update params) ∧ params.title = some conv'.title
  unwritten : ∀ k title conv, a = .setAutoTitle k title → s.conversation = some conv →
    conv.titleUserSet = false

theorem TitleKept.sticky {s s' : State K} {a : Event K} (hkept : TitleKept s s')
    (hunwritten : ∀ k title conv, a = .setAutoTitle k title → s.conversation = some conv →
      conv.titleUserSet = false) : Sticky s a s' where
  raised conv conv' hconv hconv' hset := by
    obtain ⟨_, heq, -, hsame⟩ := hkept.conversation conv' hconv'
    cases hconv.symm.trans heq
    exact hsame.trans hset
  changed conv conv' hconv hconv' _ hne := by
    obtain ⟨_, heq, hsame, -⟩ := hkept.conversation conv' hconv'
    cases hconv.symm.trans heq
    exact absurd hsame hne
  unwritten := hunwritten

theorem Sticky.same {s s' : State K} {a : Event K} (hconv : s'.conversation = s.conversation)
    (hunwritten : ∀ k title conv, a = .setAutoTitle k title → s.conversation = some conv →
      conv.titleUserSet = false) : Sticky s a s' where
  raised conv conv' heq heq' hset := by
    cases heq.symm.trans (hconv.symm.trans heq')
    exact hset
  changed conv conv' heq heq' _ hne := by
    cases heq.symm.trans (hconv.symm.trans heq')
    exact absurd rfl hne
  unwritten := hunwritten

section sticky
variable [DecidableEq K] {s s' : State K} {a : Event K}

theorem sticky_commit (hstep : step s .commit = some s') : Sticky s .commit s' := by
  simp only [step.eq_def, stepWriter.eq_def] at hstep
  split at hstep
  · rename_i params hlocked
    obtain ⟨conv, hconv, rfl⟩ := Option.map_eq_some_iff.mp hstep
    refine ⟨fun _ _ heq heq' hset => ?_, fun _ _ heq heq' _ hne => ?_, fun _ _ _ heq => ?_⟩
    · cases hconv.symm.trans heq
      cases heq'
      simp [Conversation.updateConversation, hset]
    · cases hconv.symm.trans heq
      cases heq'
      cases htitle : params.title with
      | none => simp [Conversation.updateConversation, htitle] at hne
      | some title => exact ⟨params, rfl, hlocked, by simp [Conversation.updateConversation, htitle]⟩
    · cases heq
  · cases hstep
    refine ⟨fun _ _ _ heq => ?_, fun _ _ _ heq => ?_, fun _ _ _ heq => ?_⟩ <;> cases heq
  · cases hstep

theorem Titled.sticky (h : Titled s) (hstep : AiChat.step s a = some s')
    (hcareful : ∀ k title, a = .setAutoTitle k title → s.conversation ≠ none →
      s.summaries k ≠ .summarizing true) : Sticky s a s' := by
  have hunwritten : ∀ k title conv, a = .setAutoTitle k title → s.conversation = some conv →
      conv.titleUserSet = false := by
    rintro k title conv rfl hconv
    simp only [AiChat.step.eq_def, AiChat.stepSummary.eq_def] at hstep
    split at hstep
    · rename_i retitled hsummary
      cases retitled with
      | false => exact h.summarizing k false hsummary conv hconv
      | true => exact absurd hsummary (hcareful k title rfl (by simp [hconv]))
    · cases hstep
  rcases step_titleKept hstep with hkept | rfl | ⟨k, hsummary⟩ | ⟨hcreated, -⟩
  · exact hkept.sticky hunwritten
  · exact sticky_commit hstep
  · cases a with
    | summarize =>
      simp only [AiChat.stepSummary.eq_def, Option.ite_none_right_eq_some, Option.some.injEq] at hsummary
      obtain ⟨-, rfl⟩ := hsummary
      exact .same rfl hunwritten
    | setAutoTitle k' title =>
      refine ⟨fun conv _ hconv _ hset => ?_, fun conv _ hconv _ hset => ?_, hunwritten⟩ <;>
        cases (hunwritten k' title conv rfl hconv).symm.trans hset
    | endSummary =>
      cases hsummary
      exact .same rfl hunwritten
    | _ => cases hsummary
  · have hnone := (h.fresh hcreated).1
    refine ⟨fun _ _ hconv => ?_, fun _ _ hconv => ?_, hunwritten⟩ <;> cases hnone.symm.trans hconv

end sticky

/-- Titles are sticky in a step of a run if and only if it is not one that writes the title of a
summary after the user has set one since the summary read the row. -/
theorem title_sticky_iff [DecidableEq K] {s s' : State K} {a : Event K}
    (hrun : Runs step (fun _ _ => True) initial s) (hstep : step s a = some s') :
    Sticky s a s' ↔ ∀ k title, a = .setAutoTitle k title → s.conversation ≠ none →
      s.summaries k ≠ .summarizing true := by
  have h : Titled s := hrun.invariant Titled.initial_titled fun _ _ _ h _ hstep => h.step hstep
  constructor
  · rintro hsticky k title rfl hsome hretitled
    obtain ⟨conv, hconv⟩ := Option.ne_none_iff_exists'.mp hsome
    cases (hsticky.unwritten k title conv rfl hconv).symm.trans
      (h.summarizing k true hretitled conv hconv)
  · exact h.sticky hstep

/-! The user sets a title while a summary is under way. -/

def renamed : List (Event Bool) :=
  [.autoCreate true, .summarize true, .update ⟨some "Mine", none, none, none⟩ 0, .commit]

/- An update of the description alone does not keep a summary from writing its title. -/
def updated : List (Event Bool) :=
  [.autoCreate true, .summarize true, .update ⟨none, some "Two days", none, none⟩ 0, .commit]

theorem title_sticky_updated : ∃ s s', exec step initial updated = some s ∧
    step s (.setAutoTitle true "Weekend plans") = some s' ∧
      Sticky s (.setAutoTitle true "Weekend plans") s' := by
  have hrun (s : State Bool) (hs : exec step initial updated = some s) :
      Runs step (fun _ _ => True) initial s := .of_exec updated hs (by decide)
  refine ⟨_, _, rfl, rfl, (title_sticky_iff (hrun _ rfl) rfl).mpr ?_⟩
  rintro k title ⟨⟩ - hretitled
  cases hretitled

theorem title_overwritten :
    ((exec step initial renamed).bind (·.conversation)).map (fun conv =>
        (conv.title, conv.titleUserSet)) = some ("Mine", true) ∧
      ((exec step initial (renamed ++ [Event.setAutoTitle true "Weekend plans"])).bind
        (·.conversation)).map (fun conv => (conv.title, conv.titleUserSet)) =
          some ("Weekend plans", true) := by
  decide

end Pivox.AiChat
