import FeedClient.Json.Reader

/-!
# Accounts and labels

The parts of a feed that describe who wrote a post, how the signed-in account
stands to them, and which moderation labels apply.
-/
namespace FeedClient

open Json (Reader record)

def instantJson (t : Calendar.Instant) : Json := .text t.zulu

/-- A moderation label. -/
structure Label where
  version : Option Int64
  source : Option String
  uri : Option String
  cid : Option String
  value : Option String
  negated : Bool
  created : Option Calendar.Instant
  expires : Option Calendar.Instant
  deriving DecidableEq, Repr

namespace Label

def readJson : Reader Label :=
  record ["ver", "src", "uri", "cid", "val", "neg", "cts", "exp"] fun s => do
    return {
      version := ← s.optional "ver" Reader.int64
      source := ← s.optional "src" Reader.text
      uri := ← s.optional "uri" Reader.text
      cid := ← s.optional "cid" Reader.text
      value := ← s.optional "val" Reader.text
      negated := ← s.defaulted "neg" false Reader.bool
      created := ← s.optional "cts" Reader.instant
      expires := ← s.optional "exp" Reader.instant }

def toJson (l : Label) : Json :=
  Json.ofMembers [("ver", Json.ofOption Json.ofInt64 l.version),
    ("src", Json.ofOption .text l.source), ("uri", Json.ofOption .text l.uri),
    ("cid", Json.ofOption .text l.cid), ("val", Json.ofOption .text l.value),
    ("neg", .bool l.negated), ("cts", Json.ofOption instantJson l.created),
    ("exp", Json.ofOption instantJson l.expires)]

end Label

/-- How the signed-in account stands to another one. -/
structure AccountStanding where
  muted : Bool
  blockedBy : Bool
  following : Option String
  followedBy : Option String
  deriving DecidableEq, Repr

namespace AccountStanding

def readJson : Reader AccountStanding :=
  record ["muted", "blockedBy", "following", "followedBy"] fun s => do
    return {
      muted := ← s.defaulted "muted" false Reader.bool
      blockedBy := ← s.defaulted "blockedBy" false Reader.bool
      following := ← s.optional "following" Reader.text
      followedBy := ← s.optional "followedBy" Reader.text }

def toJson (v : AccountStanding) : Json :=
  Json.ofMembers [("muted", .bool v.muted), ("blockedBy", .bool v.blockedBy),
    ("following", Json.ofOption .text v.following), ("followedBy", Json.ofOption .text v.followedBy)]

end AccountStanding

/-- The account that wrote or reposted something. -/
structure Account where
  did : Option String
  handle : Option String
  displayName : Option String
  avatar : Option String
  associated : Option Json
  viewer : Option AccountStanding
  labels : List Label
  created : Option Calendar.Instant
  deriving Repr

namespace Account

def readJson : Reader Account :=
  record ["did", "handle", "displayName", "avatar", "associated", "viewer", "labels", "createdAt"]
    fun s => do
      return {
        did := ← s.optional "did" Reader.text
        handle := ← s.optional "handle" Reader.text
        displayName := ← s.optional "displayName" Reader.text
        avatar := ← s.optional "avatar" Reader.text
        associated := ← s.optional "associated" Reader.json
        viewer := ← s.optional "viewer" AccountStanding.readJson
        labels := ← s.defaulted "labels" [] (Reader.listOf Label.readJson)
        created := ← s.optional "createdAt" Reader.instant }

def toJson (a : Account) : Json :=
  Json.ofMembers [("did", Json.ofOption .text a.did), ("handle", Json.ofOption .text a.handle),
    ("displayName", Json.ofOption .text a.displayName), ("avatar", Json.ofOption .text a.avatar),
    ("associated", Json.ofOption id a.associated),
    ("viewer", Json.ofOption AccountStanding.toJson a.viewer),
    ("labels", .array (a.labels.map Label.toJson)), ("createdAt", Json.ofOption instantJson a.created)]

end Account

end FeedClient
