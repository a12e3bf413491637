import FeedClient.Failure.Failure
import FeedClient.Query.Value

/-!
# Errors of requests and clients

The causes for which a request is not built, not answered or not understood, and
the causes for which a client is not set up or gives no answer. Where the wording
of a cause is not this library's, it has no message.
-/
namespace FeedClient

/-- What a timeout was waiting for, with the milliseconds that it allowed. -/
inductive Waiting where
  | response (millis : Nat)
  | body (millis : Nat)
  deriving DecidableEq, Repr

/-- What is wrong with the settings of an exchange. -/
inductive SettingFault where
  /-- A streaming request was asked for one answer. -/
  | streaming (endpoint : String)
  /-- A request for one answer was opened as a stream. -/
  | notStreaming (endpoint : String)
  /-- The address or the authorization value cannot be sent. -/
  | unsendable
  | proxy
  | userAgent
  deriving DecidableEq, Repr

inductive RequestError where
  | missingParameter (field : String)
  | outOfRange (field value : String)
  | unsupportedEntity (tag : String)
  | failure (f : Failure)
  | malformedResponse
  | cancelled
  | timedOut (w : Waiting)
  | transport
  | signing (reason : String)
  | settings (fault : SettingFault)
  deriving DecidableEq, Repr

/-- A span of milliseconds in the largest unit of which it has one. -/
def durationText (millis : Nat) : String :=
  if millis = 0 then "0ns"
  else if millis < 1000 then Numeral.ofNat millis ++ "ms"
  else
    let places := ((Numeral.padded '0' 3 (millis % 1000)).reverse.dropWhile (· = '0')).reverse
    Numeral.ofNat (millis / 1000) ++ (if places.isEmpty then "" else "." ++ String.ofList places) ++ "s"

def Waiting.message : Waiting → String
  | .response millis => "no response within " ++ durationText millis
  | .body millis => "reading the response body took longer than " ++ durationText millis

def SettingFault.message? : SettingFault → Option String
  | .streaming endpoint => some (endpoint ++ " is a streaming request; use Executor::stream")
  | .notStreaming endpoint => some (endpoint ++ " is not a streaming request; use Executor::query")
  | _ => none

def Failure.heading (f : Failure) : String :=
  match f.kind with
  | .unauthorized => "Unauthorized: "
  | .rateLimited => "Rate limited: "
  | .other => "HTTP request failed: "

def RequestError.message? : RequestError → Option String
  | .missingParameter field => some ("Missing required parameter: " ++ field)
  | .outOfRange field value => some ("Parameter " ++ field ++ " is out of range: " ++ value)
  | .unsupportedEntity tag => some ("Unsupported entity: " ++ tag)
  | .failure f => some (f.heading ++ f.display)
  | .malformedResponse => none
  | .cancelled => some "Request cancelled"
  | .timedOut w => some ("Request timed out: " ++ w.message)
  | .transport => none
  | .signing reason => some ("Signing failed: " ++ reason)
  | .settings fault => fault.message?.map ("Configuration error: " ++ ·)

inductive ClientError where
  | configuration (reason : String)
  | query (e : QueryError)
  | request (e : RequestError)
  /-- The text of a configuration could not be read. -/
  | unreadable
  | noElements
  | moreThanOneElement (count : Nat)
  deriving DecidableEq, Repr

namespace ClientError

def message? : ClientError → Option String
  | .configuration reason => some ("Configuration error: " ++ reason)
  | .query e => some ("Query error: " ++ e.message)
  | .request e => e.message?.map ("Runtime error: " ++ ·)
  | .unreadable => none
  | .noElements => some "Sequence contains no elements"
  | .moreThanOneElement count =>
    some ("Sequence contains more than one element (" ++ Numeral.ofNat count ++ ")")

def isCancelled : ClientError → Bool
  | .request .cancelled => true
  | _ => false

end ClientError

end FeedClient
