import FeedClient.Failure.Record

/-!
# Failed responses

A response with a status of 400 or more is a failure. Its reason and message
depend on the status: a refused authorization and an exceeded rate limit point
to help, any other failure shows the title of its record.
-/
namespace FeedClient

structure Failure where
  status : Nat
  reason : String
  message : String
  helpLink : Option String
  record : ErrorRecord
  deriving DecidableEq, Repr

/-- The classes of failures that callers tell apart. -/
inductive FailureKind where
  | unauthorized
  | rateLimited
  | other
  deriving DecidableEq, Repr

def FailureKind.ofStatus (status : Nat) : FailureKind :=
  if status = 401 then .unauthorized else if status = 429 then .rateLimited else .other

namespace Failure

/-- Where callers find help on authorization and rate limits. -/
def faqLink : String := "https://github.com/skyquery-rs/skyquery/wiki/FAQ"

def withPointer (summary : String) : String :=
  summary ++ " - Please visit the FAQ (at the HelpLink) for help on resolving this error."

def kind (f : Failure) : FailureKind := FailureKind.ofStatus f.status

/-- The failure of a response, from its status, the usual reason for that status, and its body. -/
def ofResponse (status : Nat) (usualReason : Option String) (body : String) : Failure :=
  let record := ErrorRecord.ofText body
  let reason := usualReason.getD "Unknown"
  match FailureKind.ofStatus status with
  | .unauthorized => ⟨status, reason, withPointer record.summary, some faqLink, record⟩
  | .rateLimited =>
    ⟨status, reason ++ " (HTTP 429 - Too Many Requests)", withPointer record.summary, some faqLink,
      record⟩
  | .other => ⟨status, reason, record.title.getD record.summary, none, record⟩

def display (f : Failure) : String :=
  Numeral.ofNat f.status ++ " " ++ f.reason ++ ": " ++ f.message

end Failure

end FeedClient
