import Mathlib.Tactic.Tauto
import Pivox.AiChat.Stream

/-!
The grammar of a stream. A call keeps to it unless it sends an error in band: the text of a tool
that does not decode is followed by more events, and a failure of the model by a second error
chunk.
-/

namespace Pivox.AiChat
variable {Struct Value : Type}

/-- A text delta or an event of a tool. -/
def ServerEvent.inner : ServerEvent Struct → Bool
  | .textDelta _ _ | .toolInputAvailable _ _ _ _ | .toolOutputAvailable _ _
  | .toolOutputError _ _ => true
  | _ => false

/-- The events of a call that succeeds. -/
inductive Whole : List (ServerEvent Struct) → Prop where
  | mk (messageId conversation id id' reason : String) (body : List (ServerEvent Struct))
    (hbody : ∀ ev ∈ body, ev.inner = true) :
    Whole (.start messageId conversation :: .textStart id :: body ++
      [ServerEvent.textEnd id', .finish reason])

/-- All of them, or those before some point and at most one error after them. -/
def Grammatical (evs : List (ServerEvent Struct)) : Prop :=
  Whole evs ∨ ∃ whole sent, Whole whole ∧ sent <+: whole ∧ sent ≠ whole ∧
    (evs = sent ∨ ∃ text, evs = sent ++ [ServerEvent.error text])

def Chunk.isError : Chunk → Bool
  | .event type _ => type == "error"
  | .error _ => true
  | .done => false

def Chunk.isTerminal (c : Chunk) : Bool := c.isError || c == .done

def Chunk.isFinish : Chunk → Bool
  | .event type _ => type == "finish"
  | _ => false

/-- The last chunk is the one that is terminal: an error, or `[DONE]` after a finish. -/
def Terminated (chunks : List Chunk) : Prop :=
  ∃ (sent : List Chunk) (last : Chunk), chunks = sent ++ [last] ∧
    (∀ c ∈ sent, c.isTerminal = false) ∧
    (last.isError = true ∨ last = .done ∧ ∃ finish, sent.getLast? = some finish ∧ finish.isFinish = true)

variable (pj : Protojson Struct Value) (isServerTool : String → Bool)

def decodes (s : String) : Bool :=
  match jsonObjectToStruct pj s with
  | .ok _ => true
  | .error _ => false

/-- What the tool is called with decodes, and so does what a tool of the server comes to. -/
def decodable (event : ModelEvent × Except String String) : Bool :=
  match event.1 with
  | .toolCallComplete (some tc) => decodes pj tc.inputJSON &&
      match event.2 with
      | .ok result => !isServerTool tc.name || decodes pj result
      | .error _ => true
  | _ => true

/-- The call fails before its first event, or the model neither fails to open nor in its stream, and
what its tools are called with and come to decodes. -/
def Turn.Undisturbed (turn : Turn) : Prop :=
  (∃ e, turn.prepare = .error e) ∨
    turn.stream = .ok () ∧ turn.failure = none ∧
      ∀ event ∈ turn.events, decodable pj isServerTool event = true

def ServerEvent.isError : ServerEvent Struct → Bool
  | .error _ => true
  | _ => false

variable {pj : Protojson Struct Value} {isServerTool : String → Bool}

theorem inner_not_error {ev : ServerEvent Struct} (h : ev.inner = true) : ev.isError = false := by
  cases ev with
  | error text => cases h
  | _ => rfl

theorem decodes_iff {s : String} : decodes pj s = true ↔ ∃ o, jsonObjectToStruct pj s = .ok o := by
  unfold decodes
  cases jsonObjectToStruct pj s <;> simp

theorem decodes_false {s : String} (h : decodes pj s = false) :
    ∃ e, jsonObjectToStruct pj s = .error e := by
  unfold decodes at h
  cases hs : jsonObjectToStruct pj s with
  | error e => exact ⟨e, rfl⟩
  | ok o => simp [hs] at h

/-- An event of the model is sent as text and tool events when it decodes. -/
theorem emitModelEvent_inner {event : ModelEvent × Except String String} (id : String)
    (h : decodable pj isServerTool event = true) :
    ∀ ev ∈ emitModelEvent pj isServerTool id event, ev.inner = true := by
  obtain ⟨event, executed⟩ := event
  cases event with
  | textDelta text => simp [emitModelEvent, ServerEvent.inner]
  | other kind => simp [emitModelEvent]
  | toolCallComplete call =>
    cases call with
    | none => simp [emitModelEvent, emitToolCall]
    | some tc =>
      simp only [decodable, Bool.and_eq_true] at h
      obtain ⟨input, hinput⟩ := decodes_iff.mp h.1
      simp only [emitModelEvent, emitToolCall, hinput]
      cases htool : isServerTool tc.name with
      | false => simp [ServerEvent.inner]
      | true =>
        cases executed with
        | error e => simp [ServerEvent.inner]
        | ok result =>
          have hresult : decodes pj result = true := by simpa [htool] using h.2
          obtain ⟨output, houtput⟩ := decodes_iff.mp hresult
          simp [houtput, ServerEvent.inner]

/-- An error is sent when it does not. -/
theorem emitModelEvent_error {event : ModelEvent × Except String String} (id : String)
    (h : decodable pj isServerTool event = false) :
    ∃ ev ∈ emitModelEvent pj isServerTool id event, ev.isError = true := by
  obtain ⟨event, executed⟩ := event
  cases event with
  | textDelta text => cases h
  | other kind => cases h
  | toolCallComplete call =>
    cases call with
    | none => cases h
    | some tc =>
      cases hinput : decodes pj tc.inputJSON with
      | false =>
        obtain ⟨e, he⟩ := decodes_false hinput
        simp [emitModelEvent, emitToolCall, he, streamError, ServerEvent.isError]
      | true =>
        obtain ⟨input, hin⟩ := decodes_iff.mp hinput
        cases executed with
        | error e => simp [decodable, hinput] at h
        | ok result =>
          simp only [decodable, hinput, Bool.true_and, Bool.or_eq_false_iff, Bool.not_eq_false'] at h
          obtain ⟨e, he⟩ := decodes_false h.2
          simp [emitModelEvent, emitToolCall, hin, h.1, he, streamError, ServerEvent.isError]

/-! The chunks of a stream are those of its events and one for how it ends. -/

def chunkOf (pj : Protojson Struct Value) (ev : ServerEvent Struct) : Chunk :=
  .event ev.type (match pj.marshal ev with
    | .ok fields => fields
    | .error _ => "")

def lastChunk : Except Err Unit → Chunk
  | .ok () => .done
  | .error e => .error (toSSEErrorText e.trailer)

theorem receive_eq (hmarshal : ∀ ev, ∃ fields, pj.marshal ev = .ok fields)
    (result : Except Err Unit) (evs : List (ServerEvent Struct)) :
    receive pj result evs = evs.map (chunkOf pj) ++ [lastChunk result] := by
  induction evs with
  | nil =>
    cases result with
    | ok _ => rfl
    | error e => rfl
  | cons ev evs ih =>
    obtain ⟨fields, hfields⟩ := hmarshal ev
    simp [receive, marshalChunk, chunkOf, hfields, Except.map, ih]

theorem chunkOf_terminal (ev : ServerEvent Struct) : (chunkOf pj ev).isTerminal = ev.isError := by
  cases ev <;> rfl

theorem chunkOf_finish (reason : String) :
    (chunkOf pj (.finish reason : ServerEvent Struct)).isFinish = true := rfl

theorem lastChunk_isError (e : Err) : (lastChunk (.error e)).isError = true := rfl

/-- No error chunk is written before the last chunk just when no error is sent in band. -/
theorem terminated_iff {evs : List (ServerEvent Struct)} {result : Except Err Unit}
    (hmarshal : ∀ ev, ∃ fields, pj.marshal ev = .ok fields)
    (hfinish : result = .ok () → ∃ reason, evs.getLast? = some (.finish reason)) :
    Terminated (receive pj result evs) ↔ ∀ ev ∈ evs, ev.isError = false := by
  rw [receive_eq hmarshal]
  constructor
  · rintro ⟨sent, last, heq, hsent, -⟩ ev hev
    obtain ⟨hchunks, -⟩ := List.append_inj' heq rfl
    have hchunk := hsent (chunkOf pj ev) (hchunks ▸ List.mem_map_of_mem hev)
    rwa [chunkOf_terminal] at hchunk
  · intro hev
    refine ⟨_, _, rfl, ?_, ?_⟩
    · intro c hc
      obtain ⟨ev, hmem, rfl⟩ := List.mem_map.mp hc
      rw [chunkOf_terminal]
      exact hev ev hmem
    · cases result with
      | error e => exact .inl (lastChunk_isError e)
      | ok _ =>
        obtain ⟨reason, hlast⟩ := hfinish rfl
        exact .inr ⟨rfl, chunkOf pj (.finish reason), by simp [hlast], chunkOf_finish reason⟩

/-! The events of a call, by where it ends. -/

section turns
variable {turn : Turn} {conversation : String}

/-- What the model's events are sent as. -/
def pumped (pj : Protojson Struct Value) (isServerTool : String → Bool) (turn : Turn) :
    List (ServerEvent Struct) :=
  turn.events.flatMap (emitModelEvent pj isServerTool turn.assistantMsgID)

/-- A call ends without an event, or past its text end, or with an error that it sends. -/
theorem streamGenerateContent_cases (pj : Protojson Struct Value) (isServerTool : String → Bool)
    (turn : Turn) :
    ((∃ e, turn.prepare = .error e) ∧ (streamGenerateContent pj isServerTool turn).1 = []) ∨
    (∃ conversation text, (turn.stream ≠ .ok () ∨ turn.failure ≠ none) ∧
      (∃ e, (streamGenerateContent pj isServerTool turn).2 = .error e) ∧
      .error text ∈ (streamGenerateContent pj isServerTool turn).1 ∧
      turn.prepare = .ok conversation) ∨
    ∃ conversation, turn.prepare = .ok conversation ∧ turn.stream = .ok () ∧ turn.failure = none ∧
      ((streamGenerateContent pj isServerTool turn).1 =
          .start turn.assistantMsgID conversation :: .textStart turn.assistantMsgID ::
            pumped pj isServerTool turn ++ [ServerEvent.textEnd turn.assistantMsgID] ∧
          (∃ e, (streamGenerateContent pj isServerTool turn).2 = .error e) ∨
        (streamGenerateContent pj isServerTool turn).1 =
          .start turn.assistantMsgID conversation :: .textStart turn.assistantMsgID ::
            pumped pj isServerTool turn ++ [ServerEvent.textEnd turn.assistantMsgID, .finish "stop"] ∧
          (streamGenerateContent pj isServerTool turn).2 = .ok ()) := by
  unfold streamGenerateContent runGenerate
  cases hprepare : turn.prepare with
  | error e => exact .inl ⟨⟨e, rfl⟩, rfl⟩
  | ok conversation =>
    cases hstream : turn.stream with
    | error e =>
      exact .inr (.inl ⟨conversation, e.message, .inl nofun, ⟨_, rfl⟩, by simp [streamError], rfl⟩)
    | ok _ =>
      cases hfailure : turn.failure with
      | some e =>
        exact .inr (.inl ⟨conversation, e.message, .inr nofun, ⟨_, rfl⟩, by simp [streamError], rfl⟩)
      | none =>
        refine .inr (.inr ⟨conversation, rfl, rfl, rfl, ?_⟩)
        cases turn.marshalParts with
        | error e => exact .inl ⟨by simp [pumped], _, rfl⟩
        | ok _ =>
          cases turn.persist with
          | error e => exact .inl ⟨by simp [pumped], _, rfl⟩
          | ok _ => exact .inr ⟨by simp [pumped], rfl⟩

theorem pumped_inner (h : ∀ event ∈ turn.events, decodable pj isServerTool event = true) :
    ∀ ev ∈ pumped pj isServerTool turn, ev.inner = true := by
  intro ev hev
  obtain ⟨event, hevent, hev⟩ := List.mem_flatMap.mp hev
  exact emitModelEvent_inner _ (h event hevent) ev hev

theorem pumped_decodable (h : ∀ ev ∈ pumped pj isServerTool turn, ev.isError = false) :
    ∀ event ∈ turn.events, decodable pj isServerTool event = true := by
  intro event hevent
  by_contra hbad
  obtain ⟨ev, hev, herror⟩ := emitModelEvent_error turn.assistantMsgID (Bool.eq_false_iff.mpr hbad)
  have hnone := h ev (List.mem_flatMap.mpr ⟨event, hevent, hev⟩)
  simp [herror] at hnone

/-- An error is sent in band just when the call is disturbed. -/
theorem undisturbed_iff : turn.Undisturbed pj isServerTool ↔
    ∀ ev ∈ (streamGenerateContent pj isServerTool turn).1, ev.isError = false := by
  rcases streamGenerateContent_cases pj isServerTool turn with
    ⟨hprepare, hevs⟩ | ⟨conversation, text, hfail, -, hmem, hprepare⟩ |
      ⟨conversation, hprepare, hstream, hfailure, hevs⟩
  · simp [Turn.Undisturbed, hprepare, hevs]
  · refine iff_of_false ?_ fun h => by simpa [ServerEvent.isError] using h _ hmem
    rintro (⟨e, he⟩ | ⟨hs, hf, -⟩)
    · simp [hprepare] at he
    · exact hfail.elim (fun h => h hs) fun h => h hf
  · have hpumped : (∀ ev ∈ (streamGenerateContent pj isServerTool turn).1, ev.isError = false) ↔
        ∀ ev ∈ pumped pj isServerTool turn, ev.isError = false := by
      rcases hevs with ⟨hevs, -⟩ | ⟨hevs, -⟩
      · simp [hevs, ServerEvent.isError, or_imp, forall_and]
      · simp [hevs, ServerEvent.isError, or_imp, forall_and]
    rw [hpumped]
    simp only [Turn.Undisturbed, hprepare, hstream, hfailure, reduceCtorEq, exists_false, false_or,
      true_and]
    exact ⟨fun h ev hev => inner_not_error (pumped_inner h ev hev), pumped_decodable⟩

theorem undisturbed_grammatical (h : turn.Undisturbed pj isServerTool) :
    Grammatical (streamGenerateContent pj isServerTool turn).1 := by
  rcases streamGenerateContent_cases pj isServerTool turn with
    ⟨-, hevs⟩ | ⟨conversation, text, hfail, -, hmem, hprepare⟩ |
      ⟨conversation, hprepare, hstream, hfailure, hevs⟩
  · refine .inr ⟨_, [], .mk "" "" "" "" "" [] (by simp), List.nil_prefix, by simp, .inl hevs⟩
  · have hnone := undisturbed_iff.mp h _ hmem
    cases hnone
  · have hdecodes : ∀ event ∈ turn.events, decodable pj isServerTool event = true := by
      rcases h with ⟨e, he⟩ | ⟨-, -, h⟩
      · simp [hprepare] at he
      · exact h
    have hwhole := Whole.mk turn.assistantMsgID conversation turn.assistantMsgID turn.assistantMsgID
      "stop" (pumped pj isServerTool turn) (pumped_inner hdecodes)
    rcases hevs with ⟨hevs, -⟩ | ⟨hevs, -⟩
    · refine .inr ⟨_, _, hwhole, ?_, ?_, .inl hevs⟩
      · exact ⟨[.finish "stop"], by simp⟩
      · simp
    · exact .inl (hevs ▸ hwhole)

theorem finishes (h : (streamGenerateContent pj isServerTool turn).2 = .ok ()) : ∃ reason,
    (streamGenerateContent pj isServerTool turn).1.getLast? = some (.finish reason) := by
  rcases streamGenerateContent_cases pj isServerTool turn with
    ⟨⟨e, hprepare⟩, -⟩ | ⟨-, -, -, ⟨e, herror⟩, -, -⟩ |
      ⟨conversation, -, -, -, ⟨-, e, herror⟩ | ⟨hevs, -⟩⟩
  · simp [streamGenerateContent, runGenerate, hprepare] at h
  · simp [herror] at h
  · simp [herror] at h
  · exact ⟨"stop", by rw [hevs, List.getLast?_append]; rfl⟩

end turns

/-- The stream keeps to its grammar, and the SSE layer ends it with one chunk, just when the call is
not disturbed. -/
theorem stream_grammatical_iff (pj : Protojson Struct Value) (isServerTool : String → Bool)
    (turn : Turn) (hmarshal : ∀ ev, ∃ fields, pj.marshal ev = .ok fields) :
    Grammatical (streamGenerateContent pj isServerTool turn).1 ∧
      Terminated (serveHTTP pj isServerTool turn) ↔ turn.Undisturbed pj isServerTool := by
  have hterminated : Terminated (serveHTTP pj isServerTool turn) ↔
      turn.Undisturbed pj isServerTool :=
    (terminated_iff hmarshal finishes).trans undisturbed_iff.symm
  exact ⟨fun h => hterminated.mp h.2, fun h => ⟨undisturbed_grammatical h, hterminated.mpr h⟩⟩

/-! A tool that is called with half an object. -/

def plainJSON : Protojson String String where
  unmarshalStruct s := if s = "\x7b\x7d" then .ok s else .error (.plain "proto: syntax error")
  unmarshalValue s := if s = "\x7b" then .error (.plain "proto: unexpected end of input") else .ok s
  box s := s
  marshal _ := .ok ""

def callWith (inputJSON : String) : Turn where
  prepare := .ok "organizations/o/users/u/conversations/c"
  assistantMsgID := "m"
  stream := .ok ()
  events := [(.toolCallComplete (some ⟨"t", "search", inputJSON⟩), .ok "\x7b\x7d")]
  failure := none
  marshalParts := .ok ()
  persist := .ok ()

theorem stream_grammatical_search :
    Grammatical (streamGenerateContent plainJSON (· == "search") (callWith "\x7b\x7d")).1 ∧
      Terminated (serveHTTP plainJSON (· == "search") (callWith "\x7b\x7d")) := by
  have hundisturbed : (callWith "\x7b\x7d").Undisturbed plainJSON (· == "search") :=
    .inr ⟨rfl, rfl, by decide⟩
  exact (stream_grammatical_iff plainJSON (· == "search") (callWith "\x7b\x7d") fun _ =>
    ⟨"", rfl⟩).mpr hundisturbed

theorem whole_not_error {whole : List (ServerEvent Struct)} (h : Whole whole) :
    ∀ ev ∈ whole, ev.isError = false := by
  cases h with
  | mk messageId conversation id id' reason body hbody =>
    have hinner : ∀ ev ∈ body, ev.isError = false := fun ev hev => inner_not_error (hbody ev hev)
    simpa [ServerEvent.isError, or_imp, forall_and] using hinner

/-- An error is the last event. -/
theorem grammatical_dropLast {evs : List (ServerEvent Struct)} (h : Grammatical evs) :
    ∀ ev ∈ evs.dropLast, ev.isError = false := by
  rcases h with h | ⟨whole, sent, hwhole, hpre, -, rfl | ⟨text, rfl⟩⟩
  · exact fun ev hev => whole_not_error h ev ((List.dropLast_subset _) hev)
  · exact fun ev hev => whole_not_error hwhole ev (hpre.mem ((List.dropLast_subset _) hev))
  · intro ev hev
    rw [List.dropLast_concat] at hev
    exact whole_not_error hwhole ev (hpre.mem hev)

/-- The error is followed by the end of the text and a finish. -/
theorem stream_not_grammatical : ¬ ∀ turn : Turn,
    Grammatical (streamGenerateContent plainJSON (· == "search") turn).1 ∧
      Terminated (serveHTTP plainJSON (· == "search") turn) := by
  intro h
  have hlast := grammatical_dropLast (h (callWith "\x7b")).1
  have herror := hlast (.error "proto: unexpected end of input") (by decide)
  cases herror

end Pivox.AiChat
