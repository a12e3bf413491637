import FeedClient.Feed.Account

/-!
# Stored posts

The record of a post as its author's repository keeps it: text, languages,
annotations over byte ranges of the text, and references to the posts that it
replies to.
-/
namespace FeedClient

open Json (Reader record)

/-- The address of a record with the hash of its content. -/
structure StrongRef where
  uri : String
  cid : String
  deriving DecidableEq, Repr

namespace StrongRef

def readJson : Reader StrongRef := record ["uri", "cid"] fun s => do
  return { uri := ← s.required "uri" Reader.text, cid := ← s.required "cid" Reader.text }

def toJson (r : StrongRef) : Json := Json.ofMembers [("uri", .text r.uri), ("cid", .text r.cid)]

end StrongRef

/-- The first post of a thread and the one replied to. -/
structure ReplyRef where
  root : StrongRef
  parent : StrongRef
  deriving DecidableEq, Repr

namespace ReplyRef

def readJson : Reader ReplyRef := record ["root", "parent"] fun s => do
  return { root := ← s.required "root" StrongRef.readJson, parent := ← s.required "parent" StrongRef.readJson }

def toJson (r : ReplyRef) : Json :=
  Json.ofMembers [("root", r.root.toJson), ("parent", r.parent.toJson)]

end ReplyRef

/-- A range of bytes in the text of a post. -/
structure ByteRange where
  start : UInt64
  stop : UInt64
  deriving DecidableEq, Repr

namespace ByteRange

def readJson : Reader ByteRange := record ["byteStart", "byteEnd"] fun s => do
  return { start := ← s.required "byteStart" Reader.uint64, stop := ← s.required "byteEnd" Reader.uint64 }

def toJson (r : ByteRange) : Json :=
  Json.ofMembers [("byteStart", .integer r.start.toNat), ("byteEnd", .integer r.stop.toNat)]

end ByteRange

/-- An annotation of a part of a text. -/
structure Facet where
  range : ByteRange
  features : List Json
  deriving Repr

namespace Facet

def readJson : Reader Facet := record ["index", "features"] fun s => do
  return {
    range := ← s.required "index" ByteRange.readJson
    features := ← s.required "features" (Reader.listOf Reader.json) }

def toJson (f : Facet) : Json :=
  Json.ofMembers [("index", f.range.toJson), ("features", .array f.features)]

end Facet

def textsJson (texts : List String) : Json := .array (texts.map .text)

def facetsJson (facets : List Facet) : Json := .array (facets.map Facet.toJson)

structure StoredPost where
  recordType : Option String
  text : Option String
  created : Option Calendar.Instant
  langs : List String
  reply : Option ReplyRef
  facets : Option (List Facet)
  embed : Option Json
  deriving Repr

namespace StoredPost

def readJson : Reader StoredPost :=
  record ["$type", "text", "createdAt", "langs", "reply", "facets", "embed"] fun s => do
    return {
      recordType := ← s.optional "$type" Reader.text
      text := ← s.optional "text" Reader.text
      created := ← s.optional "createdAt" Reader.instant
      langs := ← s.defaulted "langs" [] (Reader.listOf Reader.text)
      reply := ← s.optional "reply" ReplyRef.readJson
      facets := ← s.optional "facets" (Reader.listOf Facet.readJson)
      embed := ← s.optional "embed" Reader.json }

def toJson (p : StoredPost) : Json :=
  Json.ofMembers [("$type", Json.ofOption .text p.recordType), ("text", Json.ofOption .text p.text),
    ("createdAt", Json.ofOption instantJson p.created), ("langs", textsJson p.langs),
    ("reply", Json.ofOption ReplyRef.toJson p.reply), ("facets", Json.ofOption facetsJson p.facets),
    ("embed", Json.ofOption id p.embed)]

end StoredPost

end FeedClient
