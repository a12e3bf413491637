import FeedClient.Exchange.BodyText
import FeedClient.Exchange.Status
import FeedClient.Failure.Error

/-!
# The course of a call

While a call waits it looks, moment after moment, at its cancel signal, at its
connection and at the clock, in that order. The course of a call is what it
finds there. A connection that brings no more is broken.
-/
namespace FeedClient

/-- What a connection brings. -/
inductive Arrival where
  | head (status : Nat) (headers : List Header)
  | piece (bytes : List UInt8)
  | ended
  | broken
  deriving DecidableEq, Repr

/-- What a call finds when it looks. -/
structure Moment where
  cancelled : Bool
  arrival : Option Arrival
  /-- Whether the time for what it waits for is over. -/
  late : Bool
  deriving DecidableEq, Repr

structure Course where
  /-- Whether the signal had fired before the call. -/
  cancelledBefore : Bool
  moments : List Moment
  deriving DecidableEq, Repr

/-- The course of a call to a service that cannot be reached. -/
def Course.unreachable (cancelledBefore : Bool) : Course := ⟨cancelledBefore, [⟨false, some .broken, false⟩]⟩

/-- The beginning of a response, and the moments after it. -/
structure ResponseHead where
  status : Nat
  headers : List Header
  following : List Moment
  deriving DecidableEq, Repr

/-- Waits for the beginning of a response, so many milliseconds at most. -/
def awaitHead (millis : UInt64) : List Moment → Except RequestError ResponseHead
  | [] => .error .transport
  | m :: ms =>
    if m.cancelled then .error .cancelled
    else match m.arrival with
      | some (.head status headers) => .ok ⟨status, headers, ms⟩
      | some _ => .error .transport
      | none => if m.late then .error (.timedOut (.response millis.toNat)) else awaitHead millis ms

/-- Waits for the end of a body behind the bytes that have come, so many milliseconds at most. -/
def awaitBody (millis : UInt64) : List UInt8 → List Moment → Except RequestError (List UInt8)
  | _, [] => .error .transport
  | bytes, m :: ms =>
    if m.cancelled then .error .cancelled
    else match m.arrival with
      | some .ended => .ok bytes
      | some .broken => .error .transport
      | some (.head ..) => .error .transport
      | some (.piece more) =>
        if m.late then .error (.timedOut (.body millis.toNat))
        else awaitBody millis (bytes ++ more) ms
      | none =>
        if m.late then .error (.timedOut (.body millis.toNat)) else awaitBody millis bytes ms

namespace ResponseHead

/-- The text of the body. -/
def body (h : ResponseHead) (millis : UInt64) : Except RequestError String :=
  (awaitBody millis [] h.following).map (bodyText h.headers)

def failure (h : ResponseHead) (body : String) : RequestError :=
  .failure (Failure.ofResponse h.status (Status.reason? h.status) body)

/-- The body of a success; any other body describes a failure. -/
def successBody (h : ResponseHead) (millis : UInt64) : Except RequestError String :=
  match h.body millis with
  | .error e => .error e
  | .ok body => if Status.isFailure h.status then .error (h.failure body) else .ok body

end ResponseHead

end FeedClient
