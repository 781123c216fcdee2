import Mathlib.Logic.Function.Basic
import Pivox.Transition

/-!
One conversation and all that is done to it: turns of GenerateContent and StreamGenerateContent with
their leases and heartbeats, updates, deletion and summaries. `K` are the calls. The statements of
a transaction wait for the lock of the row from the first on and are seen when it commits.
-/

namespace Pivox.AiChat

/- Times are in nanoseconds. -/
def second : Nat := 1000000000

def leaseTTL : Nat := 30 * second

def leaseHeartbeatInterval : Nat := 10 * second

def leaseStaleExtensionThreshold : Nat := 30 * second

def streamStallAbortThreshold : Nat := 60 * second

/- What a call persists. -/
inductive Side where
  | inbound
  | assistant
  deriving DecidableEq, Repr

/-- `call` is not a column: the call that persisted the message. -/
structure Message (K : Type) where
  sequence : Nat
  side : Side
  call : K
  deriving DecidableEq, Repr

structure Conversation (K : Type) where
  title : String
  titleUserSet : Bool
  description : String
  archived : Bool
  pinned : Bool
  messageCount : Nat
  lockHolder : Option K
  lockExpiresAt : Option Nat
  messages : List (Message K)
  deriving DecidableEq, Repr

structure UpdateParams where
  title : Option String
  description : Option String
  archived : Option Bool
  pinned : Option Bool
  deriving DecidableEq, Repr

section statements
variable {K : Type}

namespace Conversation

def create (title description : String) : Conversation K :=
  ⟨title, false, description, false, false, 0, none, none, []⟩

def nextSequence (conv : Conversation K) : Nat := (conv.messages.map (·.sequence)).max?.getD 0 + 1

def persistMessage (conv : Conversation K) (side : Side) (c : K) : Conversation K :=
  { conv with
    messages := conv.messages ++ [⟨conv.nextSequence, side, c⟩]
    messageCount := conv.messageCount + 1 }

def updateConversation (conv : Conversation K) (params : UpdateParams) : Conversation K :=
  { conv with
    title := params.title.getD conv.title
    titleUserSet := params.title.isSome || conv.titleUserSet
    description := params.description.getD conv.description
    archived := params.archived.getD conv.archived
    pinned := params.pinned.getD conv.pinned }

def setAutoTitle (conv : Conversation K) (title : String) : Conversation K :=
  { conv with title := title }

/- `clock` is what the server's own clock shows. -/
def isLeaseActive (conv : Conversation K) (clock : Nat) : Bool :=
  conv.lockHolder.isSome && conv.lockExpiresAt.any (clock < ·)

variable [DecidableEq K]

/- In the statements of the lease `now` is the database's. -/
def acquireConversationLease (conv : Conversation K) (c : K) (now : Nat) :
    Option (Conversation K) :=
  if conv.lockHolder = none ∨ conv.lockExpiresAt.any (· < now) ∨ conv.lockHolder = some c then
    some { conv with lockHolder := some c, lockExpiresAt := some (now + leaseTTL) }
  else none

def heartbeatConversationLease (conv : Conversation K) (c : K) (now : Nat) :
    Option (Conversation K) :=
  if conv.lockHolder = some c ∧ conv.lockExpiresAt.any (now < ·) then
    some { conv with lockExpiresAt := some (now + leaseTTL) }
  else none

def releaseConversationLease (conv : Conversation K) (c : K) : Conversation K :=
  if conv.lockHolder = some c then { conv with lockHolder := none, lockExpiresAt := none } else conv

end Conversation

end statements

/- Where runGenerate stands; Tx A and Tx B are left by their commit. -/
inductive Phase where
  | idle
  | acquiring
  | persistingInbound
  | txA
  | streaming
  | persistingReply
  | txB
  | releasing
  | done
  deriving DecidableEq, Repr

inductive Heartbeat where
  | stopped
  | waiting
  | extending
  deriving DecidableEq, Repr

/- `leaseEnd` is not looked at: when the lease runs out that the call last took or extended. -/
structure Call where
  phase : Phase
  autoCreated : Bool
  leaseEnd : Nat
  /-- When the ticker was started, and its ticks since. -/
  started : Nat
  ticks : Nat
  lastEvent : Nat
  heartbeat : Heartbeat
  streamCancelled : Bool
  /-- Whether a lease invariant was reported. -/
  alarmed : Bool
  deriving DecidableEq, Repr

def Call.idle : Call := ⟨.idle, false, 0, 0, 0, 0, .stopped, false, false⟩

/- What holds the lock of the row. -/
inductive Txn (K : Type) where
  | turn (c : K)
  | update (params : UpdateParams)
  | delete
  deriving DecidableEq, Repr

/- A call of SummarizeConversation. `retitled` is not looked at: whether a title was set by the user
after the call read the row. -/
inductive Summary where
  | idle
  | summarizing (retitled : Bool)
  | done
  deriving DecidableEq, Repr

structure State (K : Type) where
  now : Nat
  created : Bool
  conversation : Option (Conversation K)
  locked : Option (Txn K)
  calls : K → Call
  summaries : K → Summary

/- A statement that is not `answered` took effect all the same. -/
inductive Event (K : Type) where
  | elapse (d : Nat)
  | createConversation (title description : String)
  | autoCreate (c : K)
  | generate (c : K)
  | acquire (c : K) (now clock : Nat) (answered : Bool)
  | lock (c : K)
  | persist (c : K) (answered : Bool)
  | rollback (c : K) (replayed : Bool)
  | upstream (c : K) (clock : Nat)
  | finish (c : K)
  | fail (c : K)
  | tick (c : K) (clock : Nat)
  | extend (c : K) (now : Nat) (answered : Bool)
  | stopHeartbeat (c : K)
  | release (c : K)
  | crash (c : K)
  | update (params : UpdateParams) (clock : Nat)
  | delete (clock : Nat)
  | commit
  | abort
  | summarize (k : K)
  | setAutoTitle (k : K) (title : String)
  | endSummary (k : K)

variable {K : Type} [DecidableEq K]

def initial : State K := ⟨0, false, none, none, fun _ => .idle, fun _ => .idle⟩

def State.setCall (s : State K) (c : K) (call : Call) : State K :=
  { s with calls := Function.update s.calls c call }

def State.setPhase (s : State K) (c : K) (phase : Phase) : State K :=
  s.setCall c { s.calls c with phase := phase }

def State.setConversation (s : State K) (conv : Conversation K) : State K :=
  { s with conversation := some conv }

/-- runGenerate, from the lease on. -/
def Call.acquired (call : Call) (leaseEnd started clock : Nat) : Call :=
  { call with
    phase := if call.autoCreated then .streaming else .persistingInbound
    leaseEnd := leaseEnd
    started := started
    ticks := 0
    lastEvent := clock
    heartbeat := .waiting }

/-- runConversationLeaseHeartbeat, at a tick. -/
def Call.tick (call : Call) (clock : Nat) : Call :=
  let elapsed := clock - call.lastEvent
  let call := { call with ticks := call.ticks + 1 }
  if streamStallAbortThreshold < elapsed then
    { call with streamCancelled := true, heartbeat := .stopped }
  else if leaseStaleExtensionThreshold < elapsed then call
  else { call with heartbeat := .extending }

def Phase.persisting : Phase → Option (Side × Phase)
  | .persistingInbound => some (.inbound, .txA)
  | .persistingReply => some (.assistant, .txB)
  | _ => none

/- What a transaction persists, where its commit leads and where it is tried again from. -/
def Phase.inTx : Phase → Option (Side × Phase × Phase)
  | .txA => some (.inbound, .streaming, .persistingInbound)
  | .txB => some (.assistant, .releasing, .persistingReply)
  | _ => none

def Summary.retitle : Summary → Summary
  | .summarizing _ => .summarizing true
  | summary => summary

/-- The step of a call's main goroutine. -/
def stepCall (s : State K) (c : K) : Event K → Option (State K)
  | .autoCreate _ =>
    if s.created = false ∧ (s.calls c).phase = .idle then
      some (({ s with created := true }.setConversation
          ((Conversation.create "" "").persistMessage .inbound c)).setCall c
        { Call.idle with phase := .acquiring, autoCreated := true })
    else none
  | .generate _ =>
    if (s.calls c).phase = .idle then
      some (s.setPhase c (if s.conversation.isSome then .acquiring else .done))
    else none
  | .acquire _ now clock answered =>
    if (s.calls c).phase = .acquiring ∧ now ≤ s.now ∧ s.locked = none then
      match s.conversation.bind (·.acquireConversationLease c now) with
      | none => some (s.setPhase c .done)
      | some conv =>
        if answered then
          some ((s.setConversation conv).setCall c
            ((s.calls c).acquired (now + leaseTTL) s.now clock))
        else some ((s.setConversation conv).setPhase c .done)
    else none
  | .lock _ =>
    match (s.calls c).phase.persisting with
    | none => none
    | some (_, tx) =>
      if s.locked = none then
        match s.conversation with
        | none => some (s.setPhase c .releasing)
        | some conv =>
          if conv.lockHolder = some c then some ({ s with locked := some (.turn c) }.setPhase c tx)
          else some (s.setCall c { s.calls c with phase := .releasing, alarmed := true })
      else none
  | .persist _ answered =>
    match (s.calls c).phase.inTx with
    | none => none
    | some (side, next, _) => s.conversation.map fun conv =>
      ({ s with locked := none }.setConversation (conv.persistMessage side c)).setPhase c
        (if answered then next else .releasing)
  | .rollback _ replayed =>
    match (s.calls c).phase.inTx with
    | none => none
    | some (_, _, retry) =>
      some ({ s with locked := none }.setPhase c (if replayed then retry else .releasing))
  | .upstream _ clock =>
    if (s.calls c).phase = .streaming then some (s.setCall c { s.calls c with lastEvent := clock })
    else none
  | .finish _ =>
    if (s.calls c).phase = .streaming then some (s.setPhase c .persistingReply) else none
  | .fail _ =>
    match (s.calls c).phase with
    | .acquiring => some (s.setPhase c .done)
    | .persistingInbound | .streaming | .persistingReply => some (s.setPhase c .releasing)
    | _ => none
  | .release _ =>
    if (s.calls c).phase = .releasing ∧ s.locked = none then
      let conversation := s.conversation.map fun conv => conv.releaseConversationLease c
      some ({ s with conversation := conversation }.setPhase c .done)
    else none
  | .crash _ =>
    if (s.calls c).phase = .idle then none
    else
      let locked := if s.locked = some (.turn c) then none else s.locked
      some ({ s with locked := locked }.setCall c
        { s.calls c with phase := .done, heartbeat := .stopped })
  | _ => none

/-- The step of its heartbeat, which is told to stop when the goroutine ends. -/
def stepHeartbeat (s : State K) (c : K) : Event K → Option (State K)
  | .tick _ clock =>
    let call := s.calls c
    if call.heartbeat = .waiting ∧ call.phase ≠ .releasing ∧ call.phase ≠ .done ∧
        call.started + leaseHeartbeatInterval * (call.ticks + 1) ≤ s.now then
      some (s.setCall c (call.tick clock))
    else none
  | .extend _ now answered =>
    if (s.calls c).heartbeat = .extending ∧ now ≤ s.now ∧ s.locked = none then
      match s.conversation.bind (·.heartbeatConversationLease c now) with
      | some conv =>
        some ((s.setConversation conv).setCall c
          { s.calls c with heartbeat := .waiting, leaseEnd := now + leaseTTL })
      | none =>
        if answered then
          some (s.setCall c { s.calls c with heartbeat := .stopped, streamCancelled := true })
        else some (s.setCall c { s.calls c with heartbeat := .waiting })
    else none
  | .stopHeartbeat _ => some (s.setCall c { s.calls c with heartbeat := .stopped })
  | _ => none

/-- UpdateConversation and DeleteConversation: the check under the lock, and the commit. -/
def stepWriter (s : State K) : Event K → Option (State K)
  | .update params clock =>
    if s.locked = none then s.conversation.map fun conv =>
      if conv.isLeaseActive clock then s else { s with locked := some (.update params) }
    else none
  | .delete clock =>
    if s.locked = none then s.conversation.map fun conv =>
      if conv.isLeaseActive clock then s else { s with locked := some .delete }
    else none
  | .commit =>
    match s.locked with
    | some (.update params) => s.conversation.map fun conv =>
      { s with
        conversation := some (conv.updateConversation params)
        locked := none
        summaries := if params.title.isSome then fun k => (s.summaries k).retitle else s.summaries }
    | some .delete => some { s with conversation := none, locked := none }
    | _ => none
  | .abort =>
    match s.locked with
    | some (.update _) | some .delete => some { s with locked := none }
    | _ => none
  | _ => none

def stepSummary (s : State K) (k : K) : Event K → Option (State K)
  | .summarize _ =>
    if s.summaries k = .idle then
      let summary :=
        match s.conversation with
        | some conv => if conv.titleUserSet then .done else .summarizing false
        | none => .done
      some { s with summaries := Function.update s.summaries k summary }
    else none
  | .setAutoTitle _ title =>
    match s.summaries k with
    | .summarizing _ =>
      if s.locked = none then
        some { s with
          conversation := s.conversation.map (·.setAutoTitle title)
          summaries := Function.update s.summaries k .done }
      else none
    | _ => none
  | .endSummary _ => some { s with summaries := Function.update s.summaries k .done }
  | _ => none

def step (s : State K) (a : Event K) : Option (State K) :=
  match a with
  | .elapse d => some { s with now := s.now + d }
  | .createConversation title description =>
    if s.created = false then
      some ({ s with created := true }.setConversation (.create title description))
    else none
  | .autoCreate c | .generate c | .acquire c _ _ _ | .lock c | .persist c _ | .rollback c _
  | .upstream c _ | .finish c | .fail c | .release c | .crash c => stepCall s c a
  | .tick c _ | .extend c _ _ | .stopHeartbeat c => stepHeartbeat s c a
  | .update _ _ | .delete _ | .commit | .abort => stepWriter s a
  | .summarize k | .setAutoTitle k _ | .endSummary k => stepSummary s k a

end Pivox.AiChat
