import Pivox.ErrorChain

/-!
The errors that travel through a workflow run, and the record of one that a catch block and an error
sequence read.
-/

namespace Pivox.Engine.Interpreter
open ErrorChain

/- Of a response, what an error carries of it. The body is its bytes. -/
structure Response where
  status : Int
  body : List UInt8
  deriving DecidableEq

/-- What an error is itself, besides the errors that it wraps. -/
inductive Fault where
  | endSignal
  | canceled
  | deadlineExceeded
  | fail (message : String)
  | thrown (stepID : String)
  | retryable
  | transient
  | response (response : Response)
  | text (message : String)
  deriving DecidableEq

/- The errors of other packages; they cannot make one of the engine's own. -/
inductive Outside where
  | canceled
  | deadlineExceeded
  | text (message : String)
  deriving DecidableEq

def Outside.fault : Outside → Fault
  | .canceled => .canceled
  | .deadlineExceeded => .deadlineExceeded
  | .text message => .text message

namespace Fault

def stepID : Fault → Option String
  | .thrown stepID => some stepID
  | _ => none

def failMessage : Fault → Option String
  | .fail message => some message
  | _ => none

def httpDetail : Fault → Option Response
  | .response detail => some detail
  | _ => none

end Fault

mutual

/-- The text of an error; a wrapper without one of its own has that of its cause. -/
def message : Error Fault → String
  | .mk .endSignal _ => "engine: end signal"
  | .mk .canceled _ => "context canceled"
  | .mk .deadlineExceeded _ => "context deadline exceeded"
  | .mk (.fail text) _ => text
  | .mk (.text text) _ => text
  | .mk (.response response) _ => "http request returned status " ++ toString response.status
  | .mk (.thrown _) causes => messageOfCause causes
  | .mk .retryable causes => messageOfCause causes
  | .mk .transient causes => messageOfCause causes

def messageOfCause : List (Error Fault) → String
  | [] => ""
  | cause :: _ => message cause

end

def errEnd : Error Fault := .leaf .endSignal

def isEndSignal (err : Error Fault) : Bool := err.is .endSignal

def isContextError (err : Error Fault) : Bool := err.is .canceled || err.is .deadlineExceeded

def isRetryable (err : Error Fault) : Bool := err.is .retryable

def errorf (text : String) : Error Fault := .leaf (.text text)

/- The text of the cause stands at the end. -/
def errorw (text : String) (cause : Error Fault) : Error Fault :=
  .wrap (.text (text ++ message cause)) cause

def outside (err : Error Outside) : Error Fault := err.map Outside.fault

def retryable (cause : Error Fault) : Error Fault := .wrap .retryable cause

def transientError (cause : Error Fault) : Error Fault := .wrap .transient cause

def responseError (response : Response) : Error Fault := .leaf (.response response)

def thrownError (stepID : String) (cause : Error Fault) : Error Fault := .wrap (.thrown stepID) cause

def errorCodeActivityFailed := "ACTIVITY_FAILED"

def errorCodeFail := "FAIL"

structure ErrorRecord where
  code : String
  message : String
  step : String
  status : Option Int
  body : Option (List UInt8)
  deriving DecidableEq

def buildErrorValue (err : Error Fault) : ErrorRecord where
  code := if (err.as Fault.failMessage).isSome then errorCodeFail else errorCodeActivityFailed
  message := message err
  step := (err.as Fault.stepID).getD ""
  status := (err.as Fault.httpDetail).map Response.status
  body := (err.as Fault.httpDetail).map Response.body

end Pivox.Engine.Interpreter
