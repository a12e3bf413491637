import FeedClient.Entity.FeedInputs
import FeedClient.Feed.StoredPost

/-!
# Pages of a feed

A page is the entries of a feed with the cursor of the page behind it. The
answer to a query is a page together with the inputs that were asked for; the
inputs never come from the server.
-/
namespace FeedClient

open Json (Reader record)

/-- What the signed-in account has done with a post. -/
structure PostStanding where
  threadMuted : Bool
  embeddingDisabled : Bool
  like : Option String
  repost : Option String
  deriving DecidableEq, Repr

namespace PostStanding

def readJson : Reader PostStanding :=
  record ["threadMuted", "embeddingDisabled", "like", "repost"] fun s => do
    return {
      threadMuted := ← s.defaulted "threadMuted" false Reader.bool
      embeddingDisabled := ← s.defaulted "embeddingDisabled" false Reader.bool
      like := ← s.optional "like" Reader.text
      repost := ← s.optional "repost" Reader.text }

def toJson (v : PostStanding) : Json :=
  Json.ofMembers [("threadMuted", .bool v.threadMuted),
    ("embeddingDisabled", .bool v.embeddingDisabled), ("like", Json.ofOption .text v.like),
    ("repost", Json.ofOption .text v.repost)]

end PostStanding

/-- A post with its author and counts. -/
structure PostView where
  viewType : Option String
  uri : Option String
  cid : Option String
  author : Option Account
  record : Option StoredPost
  replyCount : Int64
  repostCount : Int64
  likeCount : Int64
  quoteCount : Int64
  indexed : Option Calendar.Instant
  viewer : Option PostStanding
  labels : List Label
  embed : Option Json
  deriving Repr

namespace PostView

def readJson : Reader PostView :=
  Json.record ["$type", "uri", "cid", "author", "record", "replyCount", "repostCount", "likeCount",
    "quoteCount", "indexedAt", "viewer", "labels", "embed"] fun s => do
      return {
        viewType := ← s.optional "$type" Reader.text
        uri := ← s.optional "uri" Reader.text
        cid := ← s.optional "cid" Reader.text
        author := ← s.optional "author" Account.readJson
        record := ← s.optional "record" StoredPost.readJson
        replyCount := ← s.defaulted "replyCount" 0 Reader.int64
        repostCount := ← s.defaulted "repostCount" 0 Reader.int64
        likeCount := ← s.defaulted "likeCount" 0 Reader.int64
        quoteCount := ← s.defaulted "quoteCount" 0 Reader.int64
        indexed := ← s.optional "indexedAt" Reader.instant
        viewer := ← s.optional "viewer" PostStanding.readJson
        labels := ← s.defaulted "labels" [] (Reader.listOf Label.readJson)
        embed := ← s.optional "embed" Reader.json }

/-- The type of the view is written only if it is known. -/
def toJson (p : PostView) : Json :=
  Json.ofMembers ((match p.viewType with | some t => [("$type", Json.text t)] | none => []) ++
    [("uri", Json.ofOption .text p.uri), ("cid", Json.ofOption .text p.cid),
      ("author", Json.ofOption Account.toJson p.author),
      ("record", Json.ofOption StoredPost.toJson p.record),
      ("replyCount", Json.ofInt64 p.replyCount), ("repostCount", Json.ofInt64 p.repostCount),
      ("likeCount", Json.ofInt64 p.likeCount), ("quoteCount", Json.ofInt64 p.quoteCount),
      ("indexedAt", Json.ofOption instantJson p.indexed),
      ("viewer", Json.ofOption PostStanding.toJson p.viewer),
      ("labels", .array (p.labels.map Label.toJson)), ("embed", Json.ofOption id p.embed)])

end PostView

/-- The posts above a reply. -/
structure ReplyView where
  root : Option PostView
  parent : Option PostView
  deriving Repr

namespace ReplyView

def readJson : Reader ReplyView := record ["root", "parent"] fun s => do
  return { root := ← s.optional "root" PostView.readJson, parent := ← s.optional "parent" PostView.readJson }

def toJson (r : ReplyView) : Json :=
  Json.ofMembers [("root", Json.ofOption PostView.toJson r.root),
    ("parent", Json.ofOption PostView.toJson r.parent)]

end ReplyView

/-- Why an entry is in a feed. -/
structure FeedReason where
  reasonType : Option String
  account : Option Account
  indexed : Option Calendar.Instant
  deriving Repr

namespace FeedReason

def readJson : Reader FeedReason := record ["$type", "by", "indexedAt"] fun s => do
  return {
    reasonType := ← s.optional "$type" Reader.text
    account := ← s.optional "by" Account.readJson
    indexed := ← s.optional "indexedAt" Reader.instant }

def toJson (r : FeedReason) : Json :=
  Json.ofMembers [("$type", Json.ofOption .text r.reasonType),
    ("by", Json.ofOption Account.toJson r.account), ("indexedAt", Json.ofOption instantJson r.indexed)]

end FeedReason

/-- An entry of a feed. -/
structure FeedEntry where
  post : Option PostView
  reply : Option ReplyView
  reason : Option FeedReason
  deriving Repr

namespace FeedEntry

def readJson : Reader FeedEntry := record ["post", "reply", "reason"] fun s => do
  return {
    post := ← s.optional "post" PostView.readJson
    reply := ← s.optional "reply" ReplyView.readJson
    reason := ← s.optional "reason" FeedReason.readJson }

def toJson (e : FeedEntry) : Json :=
  Json.ofMembers [("post", Json.ofOption PostView.toJson e.post),
    ("reply", Json.ofOption ReplyView.toJson e.reply),
    ("reason", Json.ofOption FeedReason.toJson e.reason)]

end FeedEntry

structure FeedPage where
  entries : List FeedEntry
  /-- The cursor of the next page. -/
  next : Option String
  deriving Repr

namespace FeedPage

def empty : FeedPage := ⟨[], none⟩

def readJson : Reader FeedPage := record ["feed", "cursor"] fun s => do
  return {
    entries := ← s.defaulted "feed" [] (Reader.listOf FeedEntry.readJson)
    next := ← s.optional "cursor" Reader.text }

def toJson (p : FeedPage) : Json :=
  Json.ofMembers [("feed", .array (p.entries.map FeedEntry.toJson)),
    ("cursor", Json.ofOption .text p.next)]

/-- The page of a body; a blank body and `null` are an empty page. -/
def ofText? (body : String) : Option FeedPage :=
  let trimmed := Text.trim body
  if trimmed = "" ∨ trimmed = "null" then some empty else Json.readText? readJson trimmed

end FeedPage

/-- The answer to a feed query: what was asked for and what came. -/
structure FeedAnswer where
  inputs : FeedInputs
  page : FeedPage
  deriving Repr

/-- The answers in a success body: always a single one, if the body can be read. -/
def FeedAnswer.ofBody (inputs : FeedInputs) (body : String) : Except RequestError (List FeedAnswer) :=
  match FeedPage.ofText? body with
  | some page => .ok [⟨inputs, page⟩]
  | none => .error .malformedResponse

end FeedClient
