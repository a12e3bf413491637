import FeedClient.Exchange.Address
import FeedClient.Exchange.Signer
import FeedClient.Exchange.Stream

/-!
# Channels

A channel sends requests to services, one request for a call. It has every
request signed, keeps what is known of the last response, and turns a failed
response into its failure. The trace of a call says what was signed and what was
sent.
-/
namespace FeedClient

structure ChannelSettings where
  userAgent : String
  /-- Milliseconds until a response has to begin. -/
  timeout : UInt64
  /-- Milliseconds until its body has to end. -/
  bodyTimeout : UInt64
  proxy : Option String
  compression : Bool
  deriving DecidableEq, Repr

/-- What a signer was asked to sign. -/
structure Signing where
  method : Method
  url : String
  parameters : List (String × String)
  deriving DecidableEq, Repr

/-- A request as it was sent. -/
structure Dispatch where
  method : Method
  url : String
  authorization : String
  userAgent : String
  acceptsCompression : Bool
  forbidsCaching : Bool
  body : Option Json
  deriving Repr

structure Channel where
  settings : ChannelSettings
  signer : Signer
  lastResponse : Option ResponseMeta

/-- What came of a call, with its trace. -/
structure Exchange (α : Type) where
  result : Except RequestError α
  signed : List Signing
  sent : List Dispatch
  /-- The response that began, whatever came of it. -/
  response : Option ResponseMeta
  /-- The messages that a listener got. -/
  messages : List String

/-- A request before it is signed. -/
structure Draft where
  method : Method
  url : String
  parameters : List (String × String)
  forbidsCaching : Bool
  body : Option Json

namespace Draft

def signing (d : Draft) : Signing := ⟨d.method, d.url, d.parameters⟩

/-- Whether the request can be sent under an authorization value. -/
def isSendable (d : Draft) (authorization : String) : Bool :=
  Address.isSendable d.url && Address.isHeaderValue authorization

end Draft

namespace Exchange

/-- A call that failed before anything was signed. -/
def refused {α : Type} (e : RequestError) : Exchange α := ⟨.error e, [], [], none, []⟩

end Exchange

namespace Channel

/-- A channel, if the proxy and the user agent can be used. -/
def open? (settings : ChannelSettings) (signer : Signer) : Except RequestError Channel :=
  if settings.proxy.any fun p => !Address.isProxy p then .error (.settings .proxy)
  else if !Address.isHeaderValue settings.userAgent then .error (.settings .userAgent)
  else .ok ⟨settings, signer, none⟩

def dispatch (c : Channel) (d : Draft) (authorization : String) : Dispatch :=
  { method := d.method, url := d.url, authorization := authorization,
    userAgent := c.settings.userAgent,
    acceptsCompression := c.settings.compression && c.signer.acceptsCompression,
    forbidsCaching := d.forbidsCaching, body := d.body }

/-- Signs and sends a request, and hands the beginning of its response to what comes next. -/
def call {α : Type} (c : Channel) (d : Draft) (course : Course)
    (next : ResponseHead → Except RequestError α × List String) : Exchange α :=
  match c.signer.sign d.method d.url d.parameters with
  | .error e => ⟨.error e, [d.signing], [], none, []⟩
  | .ok authorization =>
    if course.cancelledBefore then ⟨.error .cancelled, [d.signing], [], none, []⟩
    else if !d.isSendable authorization then
      ⟨.error (.settings .unsendable), [d.signing], [], none, []⟩
    else
      let sent := [c.dispatch d authorization]
      match awaitHead c.settings.timeout course.moments with
      | .error e => ⟨.error e, [d.signing], sent, none, []⟩
      | .ok head =>
        let (result, messages) := next head
        ⟨result, [d.signing], sent, some (ResponseMeta.ofHead d.url head.status head.headers), messages⟩

/-- Waits for the body of a success. -/
def bodyOf (c : Channel) (head : ResponseHead) : Except RequestError String × List String :=
  (head.successBody c.settings.bodyTimeout, [])

/-- The body of the answer to a request. -/
def query (c : Channel) (r : Request) (course : Course) : Exchange String :=
  if r.streaming then .refused (.settings (.streaming r.endpoint))
  else c.call ⟨r.method, r.url, r.parameters, r.method = .post, none⟩ course c.bodyOf

/-- The body of the answer to a posted JSON value. -/
def postJson (c : Channel) (url : String) (body : Json) (course : Course) : Exchange String :=
  c.call ⟨.post, url, [], true, some body⟩ course c.bodyOf

/-- Delivers the messages of a success; the body of a failure is read to its end. -/
def messagesOf (c : Channel) (listener : Listener) (head : ResponseHead) :
    Except RequestError Unit × List String :=
  if Status.isFailure head.status then
    match head.body c.settings.bodyTimeout with
    | .error e => (.error e, [])
    | .ok body => (.error (head.failure body), [])
  else
    match deliver listener .start [] head.following with
    | (result, d) => (result, d.messages)

/-- Opens a stream and delivers its messages. -/
def stream (c : Channel) (r : Request) (course : Course) (listener : Listener) : Exchange Unit :=
  if !r.streaming then .refused (.settings (.notStreaming r.endpoint))
  else c.call ⟨r.method, r.url, r.parameters, false, none⟩ course (c.messagesOf listener)

/-- The channel after a call: it remembers a response that began. -/
def after {α : Type} (c : Channel) (e : Exchange α) : Channel :=
  { c with lastResponse := e.response.orElse fun _ => c.lastResponse }

end Channel

end FeedClient
