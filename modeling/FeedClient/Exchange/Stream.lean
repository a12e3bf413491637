import FeedClient.Exchange.Course

/-!
# Streams of messages

The body of a stream is cut into messages at its line feeds, wherever the
network has cut it into pieces. Blank lines are no messages. A listener gets the
messages in order and may close the stream after any of them, or fire the
signal of the call.
-/
namespace FeedClient

def lineFeed : UInt8 := 10

/-- The lines of some bytes that have an end, without it, and what stands behind the last end. -/
def splitLines : List UInt8 → List (List UInt8) × List UInt8
  | [] => ([], [])
  | b :: bs =>
    match splitLines bs with
    | (ls, rest) =>
      if b = lineFeed then ([] :: ls, rest)
      else match ls with
        | [] => ([], b :: rest)
        | l :: ls => ((b :: l) :: ls, rest)

def isLineEnd (c : Char) : Bool := c = '\r' || c = '\n'

/-- The message of a line, unless the line is blank. -/
def message? (line : List UInt8) : Option String :=
  Text.nonblank? (String.ofList
    ((Text.ofUtf8Lossy line).reverse.dropWhile isLineEnd).reverse)

/-- What a listener does about a message. -/
structure Reaction where
  closes : Bool
  cancels : Bool
  deriving DecidableEq, Repr

/-- Reacts to the last of the messages that were delivered so far. -/
abbrev Listener := List String → Reaction

/-- The messages delivered, and what the listener has done. -/
structure Delivery where
  messages : List String
  closed : Bool
  cancelled : Bool
  deriving DecidableEq, Repr

namespace Delivery

def start : Delivery := ⟨[], false, false⟩

/-- Delivers the message of a line, unless the stream is closed. -/
def offer (listener : Listener) (d : Delivery) (line : List UInt8) : Delivery :=
  if d.closed then d
  else match message? line with
    | none => d
    | some m =>
      let messages := d.messages ++ [m]
      let r := listener messages
      ⟨messages, r.closes, d.cancelled || r.cancels⟩

def offerAll (listener : Listener) (d : Delivery) (lines : List (List UInt8)) : Delivery :=
  lines.foldl (offer listener) d

end Delivery

/-- Delivers a body behind an unfinished line. A line without an end counts when the body ends. -/
def deliver (listener : Listener) : Delivery → List UInt8 → List Moment →
    Except RequestError Unit × Delivery
  | d, _, [] => (.error (if d.cancelled then .cancelled else .transport), d)
  | d, unfinished, m :: ms =>
    if m.cancelled || d.cancelled then (.error .cancelled, d)
    else match m.arrival with
      | some (.piece bytes) =>
        let (lines, rest) := splitLines (unfinished ++ bytes)
        let d := d.offerAll listener lines
        if d.closed then (.ok (), d) else deliver listener d rest ms
      | some .ended =>
        (.ok (), if unfinished.isEmpty then d else d.offer listener unfinished)
      | some .broken => (.error .transport, d)
      | some (.head ..) => (.error .transport, d)
      | none => deliver listener d unfinished ms

end FeedClient
