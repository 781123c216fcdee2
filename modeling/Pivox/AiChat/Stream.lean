import Mathlib.Data.List.Basic

/-!
What a generate call sends while its client stays connected, and the SSE layer over it. What the
call meets on the way (the conversation, the model, its tools, the database) is its `Turn`.
-/

namespace Pivox.AiChat

inductive Code where
  | canceled
  | unknown
  | invalidArgument
  | deadlineExceeded
  | notFound
  | alreadyExists
  | permissionDenied
  | resourceExhausted
  | failedPrecondition
  | aborted
  | outOfRange
  | unimplemented
  | internal
  | unavailable
  | dataLoss
  | unauthenticated
  deriving DecidableEq, Repr

/- An error that carries a status, or only its text. -/
inductive Err where
  | status (code : Code) (message : String)
  | plain (text : String)
  deriving DecidableEq, Repr

/- The message of the status, else the text. -/
def Err.message : Err → String
  | .status _ message => message
  | .plain text => text

/- What the client of the stream receives for an error that its handler returned. -/
def Err.trailer : Err → Err
  | .status code message => .status code message
  | .plain text => .status .unknown text

def toSSEErrorText : Err → String
  | .plain _ => "internal error"
  | .status code message =>
    match code with
    | .internal | .unknown | .dataLoss => "internal error"
    | .unauthenticated => "not authenticated"
    | .permissionDenied | .notFound | .invalidArgument | .alreadyExists | .failedPrecondition
    | .outOfRange | .resourceExhausted => message
    | .aborted => "conflict, please retry"
    | .deadlineExceeded => "request timed out"
    | .unavailable => "server unavailable, please retry"
    | .canceled => "request canceled"
    | .unimplemented => "not implemented"

structure ToolCall where
  id : String
  name : String
  inputJSON : String
  deriving DecidableEq, Repr

/- The kinds that nothing is done for are `other`. -/
inductive ModelEvent where
  | textDelta (text : String)
  | toolCallComplete (call : Option ToolCall)
  | other (kind : String)
  deriving DecidableEq, Repr

/-- The events that are sent. `Struct` is the type of JSON objects. -/
inductive ServerEvent (Struct : Type) where
  | start (messageId conversation : String)
  | textStart (id : String)
  | textDelta (id delta : String)
  | toolInputAvailable (toolCallId toolName : String) (input : Option Struct)
    (providerExecuted : Bool)
  | toolOutputAvailable (toolCallId : String) (output : Option Struct)
  | toolOutputError (toolCallId errorText : String)
  | textEnd (id : String)
  | finish (finishReason : String)
  | error (errorText : String)
  deriving DecidableEq, Repr

/-- What is used of protojson. -/
structure Protojson (Struct Value : Type) where
  unmarshalStruct : String → Except Err Struct
  unmarshalValue : String → Except Err Value
  /-- The object whose only field is `value`. -/
  box : Value → Struct
  marshal : ServerEvent Struct → Except Err String

/-- What a call meets. Each model event comes with what its tool comes to, should it run one. -/
structure Turn where
  /-- The conversation, created or resolved, leased, and with its inbound message. -/
  prepare : Except Err String
  assistantMsgID : String
  stream : Except Err Unit
  events : List (ModelEvent × Except String String)
  /-- What ends the events: none is the end of the stream. -/
  failure : Option Err
  marshalParts : Except Err Unit
  persist : Except Err Unit

variable {Struct Value : Type} (pj : Protojson Struct Value) (isServerTool : String → Bool)

/-- No object for an empty text; what is not an object is boxed. -/
def jsonObjectToStruct (s : String) : Except Err (Option Struct) :=
  if s = "" then .ok none
  else
    match pj.unmarshalStruct s with
    | .ok out => .ok (some out)
    | .error _ =>
      match pj.unmarshalValue s with
      | .ok v => .ok (some (pj.box v))
      | .error e => .error e

def streamError (e : Err) : ServerEvent Struct := .error e.message

/- An undecodable text is sent as an error, and is no error of the call. -/
def emitToolCall (executed : Except String String) : Option ToolCall → List (ServerEvent Struct)
  | none => []
  | some tc =>
    match jsonObjectToStruct pj tc.inputJSON with
    | .error e => [streamError e]
    | .ok input =>
      .toolInputAvailable tc.id tc.name input (isServerTool tc.name) ::
        if isServerTool tc.name then
          match executed with
          | .error e => [.toolOutputError tc.id e]
          | .ok result =>
            match jsonObjectToStruct pj result with
            | .error e => [streamError e]
            | .ok output => [.toolOutputAvailable tc.id output]
        else []

def emitModelEvent (id : String) (event : ModelEvent × Except String String) :
    List (ServerEvent Struct) :=
  match event.1 with
  | .textDelta text => [.textDelta id text]
  | .toolCallComplete call => emitToolCall pj isServerTool event.2 call
  | .other _ => []

/-- The events of a call, and its error. -/
def runGenerate (turn : Turn) : List (ServerEvent Struct) × Except Err Unit :=
  match turn.prepare with
  | .error e => ([], .error e)
  | .ok conversation =>
    let id := turn.assistantMsgID
    let opening := [.start id conversation, .textStart id]
    match turn.stream with
    | .error e => (opening ++ [streamError e], .error (.status .internal "model stream"))
    | .ok () =>
      let pumped := opening ++ turn.events.flatMap (emitModelEvent pj isServerTool id)
      match turn.failure with
      | some e => (pumped ++ [streamError e], .error e)
      | none =>
        let ended := pumped ++ [.textEnd id]
        match turn.marshalParts with
        | .error _ => (ended, .error (.status .internal "marshal assistant parts"))
        | .ok () =>
          match turn.persist with
          | .error _ => (ended, .error (.status .internal "persist assistant message"))
          | .ok () => (ended, .ok ())

def streamGenerateContent (turn : Turn) : List (ServerEvent Struct) × Except Err Unit :=
  match runGenerate pj isServerTool turn with
  | (events, .error e) => (events, .error e)
  | (events, .ok ()) => (events ++ [.finish "stop"], .ok ())

/-! The SSE layer. -/

def ServerEvent.type : ServerEvent Struct → String
  | .start _ _ => "start"
  | .textStart _ => "text-start"
  | .textDelta _ _ => "text-delta"
  | .toolInputAvailable _ _ _ _ => "tool-input-available"
  | .toolOutputAvailable _ _ => "tool-output-available"
  | .toolOutputError _ _ => "tool-output-error"
  | .textEnd _ => "text-end"
  | .finish _ => "finish"
  | .error _ => "error"

/- The fields of an event follow its type. -/
inductive Chunk where
  | event (type fields : String)
  | error (errorText : String)
  | done
  deriving DecidableEq, Repr

def marshalChunk (ev : ServerEvent Struct) : Except Err Chunk :=
  (pj.marshal ev).map (.event ev.type)

/-- The chunks for the events that are received, and then for how the stream ends. -/
def receive (result : Except Err Unit) : List (ServerEvent Struct) → List Chunk
  | [] =>
    match result with
    | .ok () => [.done]
    | .error e => [.error (toSSEErrorText e.trailer)]
  | ev :: evs =>
    match marshalChunk pj ev with
    | .error e => [.error (toSSEErrorText e)]
    | .ok chunk => chunk :: receive result evs

/-- What is written to a client that stays connected. -/
def serveHTTP (turn : Turn) : List Chunk :=
  let (events, result) := streamGenerateContent pj isServerTool turn
  receive pj result events

end Pivox.AiChat
