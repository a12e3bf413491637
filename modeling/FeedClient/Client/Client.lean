import FeedClient.Client.ConfigText
import FeedClient.Entity.FeedInputs
import FeedClient.Exchange.Channel
import FeedClient.Feed.Page
import FeedClient.Feed.Post
import FeedClient.Query.Extraction
import FeedClient.Query.Folding

/-!
# Clients

A client queries feeds and writes posts. A query folds its filter, reads the
parameters out of it, checks them, and only then signs and sends a request. The
client remembers the last response that began and the body of the last success.
-/
namespace FeedClient

def Config.channelSettings (c : Config) : ChannelSettings :=
  ⟨c.userAgent, c.timeout, c.bodyTimeout, c.proxy, c.compression⟩

structure Client where
  config : Config
  channel : Channel
  /-- The body of the last success, unless bodies are not kept. -/
  raw : Option String

/-- What came of an operation of a client, with its trace. -/
structure Outcome (α : Type) where
  result : Except ClientError α
  signed : List Signing
  sent : List Dispatch

/-- A query for feeds: its filter and the variables bound for it. -/
structure FeedQuery where
  filter : Option Predicate
  captures : Captures

namespace FeedQuery

def start : FeedQuery := ⟨none, .empty⟩

/-- Adds a filter; filters are combined by conjunction. -/
def restrict (q : FeedQuery) (p : Predicate) : FeedQuery :=
  match q.filter with
  | none => { q with filter := some p }
  | some existing => { q with filter := some (.and existing p) }

def bind (q : FeedQuery) (name : String) (v : Value) : FeedQuery :=
  { q with captures := q.captures.bind name v }

def withCaptures (q : FeedQuery) (captures : Captures) : FeedQuery := { q with captures := captures }

end FeedQuery

/-- The parameters that a filter gives to the fields of an entity. -/
def EntityKind.parameters (k : EntityKind) (filter : Option Predicate) (captures : Captures) :
    Except QueryError Parameters :=
  match filter with
  | none => .ok .empty
  | some p =>
    match p.fold captures with
    | .error e => .error e
    | .ok folded => Extractor.extract ⟨k.descriptor.fieldNames, k.descriptor.pattern⟩ folded

/-- A result under the cause of a client's error. -/
def asClientError {ε α : Type} (cause : ε → ClientError) : Except ε α → Except ClientError α
  | .error e => .error (cause e)
  | .ok a => .ok a

/-- The only answer of a list. -/
def onlyAnswer? (answers : List FeedAnswer) : Except ClientError (Option FeedAnswer) :=
  match answers with
  | [] => .ok none
  | [a] => .ok (some a)
  | many => .error (.moreThanOneElement many.length)

/-- The only answer of a list that has to have one. -/
def onlyAnswer (answers : List FeedAnswer) : Except ClientError FeedAnswer :=
  match onlyAnswer? answers with
  | .error e => .error e
  | .ok none => .error .noElements
  | .ok (some a) => .ok a

namespace Outcome

/-- An operation that failed before anything was signed. -/
def refused {α : Type} (e : ClientError) : Outcome α := ⟨.error e, [], []⟩

/-- What is made of a result, under the same trace. -/
def andThen {α β : Type} (o : Outcome α) (f : α → Except ClientError β) : Outcome β :=
  ⟨o.result.bind f, o.signed, o.sent⟩

end Outcome

namespace Client

/-- A client under a configuration, which is checked first. -/
def open? (config : Config) (signer : Signer) : Except ClientError Client :=
  match config.checked with
  | .error e => .error e
  | .ok config =>
    match Channel.open? config.channelSettings signer with
    | .error e => .error (.request e)
    | .ok channel => .ok ⟨config, channel, none⟩

def lastResponse (c : Client) : Option ResponseMeta := c.channel.lastResponse

/-- A client that signs differently from now on. -/
def withSigner (c : Client) (signer : Signer) : Client :=
  { c with channel := { c.channel with signer := signer } }

/-- The request that a filter over the entity of a tag translates to. -/
def buildRequest (c : Client) (tag : String) (p : Predicate) (captures : Captures) :
    Except ClientError Request := do
  let kind ← asClientError .request (EntityKind.ofTag tag)
  let params ← asClientError .query (kind.parameters (some p) captures)
  asClientError .request (kind.request c.config.baseUrl params)

/-- The request of a query, and the inputs that its answer repeats. -/
def plan (c : Client) (q : FeedQuery) : Except ClientError (Request × FeedInputs) := do
  let params ← asClientError .query (EntityKind.feed.parameters q.filter q.captures)
  let request ← asClientError .request (EntityKind.feed.request c.config.baseUrl params)
  let inputs ← asClientError .request (FeedInputs.ofParameters params)
  return (request, inputs)

def request (c : Client) (q : FeedQuery) : Except ClientError Request := (c.plan q).map (·.1)

/-- The client after a call; the body of a success is kept. -/
def after (c : Client) (e : Exchange String) : Client :=
  { c with
    channel := c.channel.after e
    raw := match e.result with
      | .error _ => c.raw
      | .ok body => if c.config.excludesRaw then none else some body }

/-- What a call's body is read as. -/
def outcome {α : Type} (e : Exchange String) (read : String → Except RequestError α) : Outcome α :=
  ⟨asClientError .request (e.result.bind read), e.signed, e.sent⟩

/-- The answers to a query, and the client afterwards. -/
def feeds (c : Client) (q : FeedQuery) (course : Course) : Outcome (List FeedAnswer) × Client :=
  match c.plan q with
  | .error e => (.refused e, c)
  | .ok (request, inputs) =>
    let e := c.channel.query request course
    (outcome e (FeedAnswer.ofBody inputs), c.after e)

def postUrl (c : Client) : String := c.config.baseUrl ++ "xrpc/" ++ createRecordOperation

/-- The body that writes a post of the signed-in account. -/
def postBody (c : Client) (d : PostDraft) : Except RequestError RecordCreation :=
  match c.channel.signer.did with
  | none => .error (.signing "no signed-in session to post as")
  | some did => RecordCreation.ofDraft d did

/-- Writes a post; the receipt, and the client afterwards. -/
def post (c : Client) (d : PostDraft) (course : Course) : Outcome PostReceipt × Client :=
  match c.postBody d with
  | .error e => (.refused (.request e), c)
  | .ok body =>
    let e := c.channel.postJson c.postUrl body.toJson course
    (outcome e PostReceipt.ofText, c.after e)

end Client

/-- What a client is opened with. -/
structure Setup where
  config : Config
  signer : Option Signer

namespace Setup

def start : Setup := ⟨.default, none⟩

def step (s : Setup) (change : ConfigStep) : Except ClientError Setup :=
  (s.config.step change).map fun config => { s with config := config }

def withSigner (s : Setup) (signer : Signer) : Setup := { s with signer := some signer }

/-- A client, for which a signer is needed before all else. -/
def open? (s : Setup) : Except ClientError Client :=
  match s.signer with
  | none => .error (.configuration "a request signer or session is required")
  | some signer => Client.open? s.config signer

end Setup

end FeedClient
