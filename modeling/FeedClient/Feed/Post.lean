import FeedClient.Failure.Error
import FeedClient.Feed.StoredPost

/-!
# New posts

A post to be written, the body that writes it into an account's repository, and
the answer to that. What the author left open does not appear in the body.
-/
namespace FeedClient

open Json (Reader record)

/-- The collection of posts, which is also the type of their records. -/
def postCollection : String := "app.bsky.feed.post"

def createRecordOperation : String := "com.atproto.repo.createRecord"

/-- The record of a post to be written. -/
structure NewPost where
  recordType : String
  text : String
  created : Calendar.Instant
  facets : Option (List Facet)
  reply : Option ReplyRef
  embed : Option Json
  langs : Option (List String)
  labels : Option (List String)
  tags : Option (List String)
  deriving Repr

namespace NewPost

def readJson : Reader NewPost :=
  record ["$type", "text", "createdAt", "facets", "reply", "embed", "langs", "labels", "tags"]
    fun s => do
      return {
        recordType := ← s.required "$type" Reader.text
        text := ← s.required "text" Reader.text
        created := ← s.required "createdAt" Reader.instant
        facets := ← s.optional "facets" (Reader.listOf Facet.readJson)
        reply := ← s.optional "reply" ReplyRef.readJson
        embed := ← s.optional "embed" Reader.json
        langs := ← s.optional "langs" (Reader.listOf Reader.text)
        labels := ← s.optional "labels" (Reader.listOf Reader.text)
        tags := ← s.optional "tags" (Reader.listOf Reader.text) }

/-- A member for a field that is set. -/
def member {α : Type} (name : String) (write : α → Json) : Option α → List (String × Json)
  | none => []
  | some a => [(name, write a)]

def toJson (p : NewPost) : Json :=
  Json.ofMembers ([("$type", .text p.recordType), ("text", .text p.text),
    ("createdAt", instantJson p.created)] ++ member "facets" facetsJson p.facets ++
    member "reply" ReplyRef.toJson p.reply ++ member "embed" id p.embed ++
    member "langs" textsJson p.langs ++ member "labels" textsJson p.labels ++
    member "tags" textsJson p.tags)

end NewPost

/-- What an author gives for a post. -/
structure PostDraft where
  text : String
  created : Calendar.Instant
  facets : Option (List Facet)
  reply : Option ReplyRef
  embed : Option Json
  langs : Option (List String)
  labels : Option (List String)
  tags : Option (List String)
  deriving Repr

/-- The body that writes a post. -/
structure RecordCreation where
  repo : String
  collection : String
  record : NewPost
  deriving Repr

namespace RecordCreation

def readJson : Reader RecordCreation := Json.record ["repo", "collection", "record"] fun s => do
  return {
    repo := ← s.required "repo" Reader.text
    collection := ← s.required "collection" Reader.text
    record := ← s.required "record" NewPost.readJson }

def toJson (c : RecordCreation) : Json :=
  Json.ofMembers [("repo", .text c.repo), ("collection", .text c.collection),
    ("record", c.record.toJson)]

/-- The body for a draft; a post has to say something. -/
def ofDraft (d : PostDraft) (repo : String) : Except RequestError RecordCreation :=
  if Text.isBlank d.text then .error (.missingParameter "text")
  else .ok {
    repo := repo
    collection := postCollection
    record := ⟨postCollection, d.text, d.created, d.facets, d.reply, d.embed, d.langs, d.labels, d.tags⟩ }

end RecordCreation

/-- The commit that wrote a record. -/
structure Commit where
  cid : String
  rev : String
  deriving DecidableEq, Repr

namespace Commit

def readJson : Reader Commit := record ["cid", "rev"] fun s => do
  return { cid := ← s.required "cid" Reader.text, rev := ← s.required "rev" Reader.text }

def toJson (c : Commit) : Json := Json.ofMembers [("cid", .text c.cid), ("rev", .text c.rev)]

end Commit

/-- The answer to the writing of a record. -/
structure PostReceipt where
  uri : Option String
  cid : Option String
  commit : Option Commit
  validationStatus : Option String
  deriving DecidableEq, Repr

namespace PostReceipt

def empty : PostReceipt := ⟨none, none, none, none⟩

def readJson : Reader PostReceipt := record ["uri", "cid", "commit", "validationStatus"] fun s => do
  return {
    uri := ← s.optional "uri" Reader.text
    cid := ← s.optional "cid" Reader.text
    commit := ← s.optional "commit" Commit.readJson
    validationStatus := ← s.optional "validationStatus" Reader.text }

def toJson (r : PostReceipt) : Json :=
  Json.ofMembers [("uri", Json.ofOption .text r.uri), ("cid", Json.ofOption .text r.cid),
    ("commit", Json.ofOption Commit.toJson r.commit),
    ("validationStatus", Json.ofOption .text r.validationStatus)]

/-- The receipt of a body; a blank body is an empty receipt. -/
def ofText (body : String) : Except RequestError PostReceipt :=
  if Text.isBlank body then .ok empty
  else match Json.readText? readJson body with
    | some r => .ok r
    | none => .error .malformedResponse

end PostReceipt

end FeedClient
