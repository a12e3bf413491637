import FeedClient.Feed.Page
import FeedClient.Proofs.Json.SpelledRecords
import Mathlib.Tactic.MkIffOfInductiveProp

/-!
# Pages as they are spelled

The entries of a page are records of records: a post with its author, its stored record
and its counts, the posts above it, and the reason why it is there. For each of them
this says under which name a field is written, what spells it, and whether it can be
absent. The readers give what is spelled, field by field.
-/
namespace FeedClient

open Json

section Accounts

@[mk_iff]
structure Label.Fields (l : Layout) (room : Nat) (a : Label) : Prop where
  version : l.Optional "ver" (Spelling.int64 room) a.version
  source : l.Optional "src" (Spelling.text room) a.source
  uri : l.Optional "uri" (Spelling.text room) a.uri
  cid : l.Optional "cid" (Spelling.text room) a.cid
  value : l.Optional "val" (Spelling.text room) a.value
  negated : l.Defaulted "neg" (Spelling.bool room) false a.negated
  created : l.Optional "cts" (Spelling.instant room) a.created
  expires : l.Optional "exp" (Spelling.instant room) a.expires

def Label.spelling : Spelling Label :=
  .record ["ver", "src", "uri", "cid", "val", "neg", "cts", "exp"] Fields

theorem Label.reads : Reads readJson spelling := reads_record fun {s a} => by
  obtain ⟨⟩ := a
  -- Choices between the values of a flag are left as they are.
  simp [-Bool.exists_bool, Label.fields_iff, Option.bind_eq_some_iff, optional_iff reads_int64,
    optional_iff reads_text, defaulted_iff reads_bool, optional_iff reads_instant]

@[mk_iff]
structure AccountStanding.Fields (l : Layout) (room : Nat) (a : AccountStanding) : Prop where
  muted : l.Defaulted "muted" (Spelling.bool room) false a.muted
  blockedBy : l.Defaulted "blockedBy" (Spelling.bool room) false a.blockedBy
  following : l.Optional "following" (Spelling.text room) a.following
  followedBy : l.Optional "followedBy" (Spelling.text room) a.followedBy

def AccountStanding.spelling : Spelling AccountStanding :=
  .record ["muted", "blockedBy", "following", "followedBy"] Fields

theorem AccountStanding.reads : Reads readJson spelling := reads_record fun {s a} => by
  obtain ⟨⟩ := a
  simp [-Bool.exists_bool, AccountStanding.fields_iff, Option.bind_eq_some_iff,
    defaulted_iff reads_bool, optional_iff reads_text]

@[mk_iff]
structure Account.Fields (l : Layout) (room : Nat) (a : Account) : Prop where
  did : l.Optional "did" (Spelling.text room) a.did
  handle : l.Optional "handle" (Spelling.text room) a.handle
  displayName : l.Optional "displayName" (Spelling.text room) a.displayName
  avatar : l.Optional "avatar" (Spelling.text room) a.avatar
  associated : l.Optional "associated" (Spelling.json room) a.associated
  viewer : l.Optional "viewer" (AccountStanding.spelling room) a.viewer
  labels : l.Defaulted "labels" (Spelling.listOf Label.spelling room) [] a.labels
  created : l.Optional "createdAt" (Spelling.instant room) a.created

def Account.spelling : Spelling Account :=
  .record ["did", "handle", "displayName", "avatar", "associated", "viewer", "labels", "createdAt"]
    Fields

theorem Account.reads : Reads readJson spelling := reads_record fun {s a} => by
  obtain ⟨⟩ := a
  simp [Account.fields_iff, Option.bind_eq_some_iff, optional_iff reads_text,
    optional_iff reads_json, optional_iff AccountStanding.reads, defaulted_iff Label.reads.listOf,
    optional_iff reads_instant]

end Accounts

section StoredPosts

@[mk_iff]
structure StrongRef.Fields (l : Layout) (room : Nat) (a : StrongRef) : Prop where
  uri : l.Required "uri" (Spelling.text room) a.uri
  cid : l.Required "cid" (Spelling.text room) a.cid

def StrongRef.spelling : Spelling StrongRef := .record ["uri", "cid"] Fields

theorem StrongRef.reads : Reads readJson spelling := reads_record fun {s a} => by
  obtain ⟨⟩ := a
  simp [StrongRef.fields_iff, Option.bind_eq_some_iff, required_iff reads_text]

@[mk_iff]
structure ReplyRef.Fields (l : Layout) (room : Nat) (a : ReplyRef) : Prop where
  root : l.Required "root" (StrongRef.spelling room) a.root
  parent : l.Required "parent" (StrongRef.spelling room) a.parent

def ReplyRef.spelling : Spelling ReplyRef := .record ["root", "parent"] Fields

theorem ReplyRef.reads : Reads readJson spelling := reads_record fun {s a} => by
  obtain ⟨⟩ := a
  simp [ReplyRef.fields_iff, Option.bind_eq_some_iff, required_iff StrongRef.reads]

@[mk_iff]
structure ByteRange.Fields (l : Layout) (room : Nat) (a : ByteRange) : Prop where
  start : l.Required "byteStart" (Spelling.uint64 room) a.start
  stop : l.Required "byteEnd" (Spelling.uint64 room) a.stop

def ByteRange.spelling : Spelling ByteRange := .record ["byteStart", "byteEnd"] Fields

theorem ByteRange.reads : Reads readJson spelling := reads_record fun {s a} => by
  obtain ⟨⟩ := a
  simp [ByteRange.fields_iff, Option.bind_eq_some_iff, required_iff reads_uint64]

@[mk_iff]
structure Facet.Fields (l : Layout) (room : Nat) (a : Facet) : Prop where
  range : l.Required "index" (ByteRange.spelling room) a.range
  features : l.Required "features" (Spelling.listOf Spelling.json room) a.features

def Facet.spelling : Spelling Facet := .record ["index", "features"] Fields

theorem Facet.reads : Reads readJson spelling := reads_record fun {s a} => by
  obtain ⟨⟩ := a
  simp [Facet.fields_iff, Option.bind_eq_some_iff, required_iff ByteRange.reads,
    required_iff reads_json.listOf]

@[mk_iff]
structure StoredPost.Fields (l : Layout) (room : Nat) (a : StoredPost) : Prop where
  recordType : l.Optional "$type" (Spelling.text room) a.recordType
  text : l.Optional "text" (Spelling.text room) a.text
  created : l.Optional "createdAt" (Spelling.instant room) a.created
  langs : l.Defaulted "langs" (Spelling.listOf Spelling.text room) [] a.langs
  reply : l.Optional "reply" (ReplyRef.spelling room) a.reply
  facets : l.Optional "facets" (Spelling.listOf Facet.spelling room) a.facets
  embed : l.Optional "embed" (Spelling.json room) a.embed

def StoredPost.spelling : Spelling StoredPost :=
  .record ["$type", "text", "createdAt", "langs", "reply", "facets", "embed"] Fields

theorem StoredPost.reads : Reads readJson spelling := reads_record fun {s a} => by
  obtain ⟨⟩ := a
  simp [StoredPost.fields_iff, Option.bind_eq_some_iff, optional_iff reads_text,
    optional_iff reads_instant, defaulted_iff reads_text.listOf, optional_iff ReplyRef.reads,
    optional_iff Facet.reads.listOf, optional_iff reads_json]

end StoredPosts

section Entries

@[mk_iff]
structure PostStanding.Fields (l : Layout) (room : Nat) (a : PostStanding) : Prop where
  threadMuted : l.Defaulted "threadMuted" (Spelling.bool room) false a.threadMuted
  embeddingDisabled : l.Defaulted "embeddingDisabled" (Spelling.bool room) false a.embeddingDisabled
  like : l.Optional "like" (Spelling.text room) a.like
  repost : l.Optional "repost" (Spelling.text room) a.repost

def PostStanding.spelling : Spelling PostStanding :=
  .record ["threadMuted", "embeddingDisabled", "like", "repost"] Fields

theorem PostStanding.reads : Reads readJson spelling := reads_record fun {s a} => by
  obtain ⟨⟩ := a
  simp [-Bool.exists_bool, PostStanding.fields_iff, Option.bind_eq_some_iff,
    defaulted_iff reads_bool, optional_iff reads_text]

structure PostView.Fields (l : Layout) (room : Nat) (a : PostView) : Prop where
  viewType : l.Optional "$type" (Spelling.text room) a.viewType
  uri : l.Optional "uri" (Spelling.text room) a.uri
  cid : l.Optional "cid" (Spelling.text room) a.cid
  author : l.Optional "author" (Account.spelling room) a.author
  record : l.Optional "record" (StoredPost.spelling room) a.record
  replyCount : l.Defaulted "replyCount" (Spelling.int64 room) 0 a.replyCount
  repostCount : l.Defaulted "repostCount" (Spelling.int64 room) 0 a.repostCount
  likeCount : l.Defaulted "likeCount" (Spelling.int64 room) 0 a.likeCount
  quoteCount : l.Defaulted "quoteCount" (Spelling.int64 room) 0 a.quoteCount
  indexed : l.Optional "indexedAt" (Spelling.instant room) a.indexed
  viewer : l.Optional "viewer" (PostStanding.spelling room) a.viewer
  labels : l.Defaulted "labels" (Spelling.listOf Label.spelling room) [] a.labels
  embed : l.Optional "embed" (Spelling.json room) a.embed

def PostView.spelling : Spelling PostView :=
  .record ["$type", "uri", "cid", "author", "record", "replyCount", "repostCount", "likeCount",
    "quoteCount", "indexedAt", "viewer", "labels", "embed"] Fields

theorem PostView.reads : Reads readJson spelling := reads_record fun {s a} => by
  constructor
  · intro h
    obtain ⟨viewType, hviewType, h⟩ := Option.bind_eq_some_iff.mp h
    obtain ⟨uri, huri, h⟩ := Option.bind_eq_some_iff.mp h
    obtain ⟨cid, hcid, h⟩ := Option.bind_eq_some_iff.mp h
    obtain ⟨author, hauthor, h⟩ := Option.bind_eq_some_iff.mp h
    obtain ⟨record, hrecord, h⟩ := Option.bind_eq_some_iff.mp h
    obtain ⟨replyCount, hreplyCount, h⟩ := Option.bind_eq_some_iff.mp h
    obtain ⟨repostCount, hrepostCount, h⟩ := Option.bind_eq_some_iff.mp h
    obtain ⟨likeCount, hlikeCount, h⟩ := Option.bind_eq_some_iff.mp h
    obtain ⟨quoteCount, hquoteCount, h⟩ := Option.bind_eq_some_iff.mp h
    obtain ⟨indexed, hindexed, h⟩ := Option.bind_eq_some_iff.mp h
    obtain ⟨viewer, hviewer, h⟩ := Option.bind_eq_some_iff.mp h
    obtain ⟨labels, hlabels, h⟩ := Option.bind_eq_some_iff.mp h
    obtain ⟨embed, hembed, heq⟩ := Option.bind_eq_some_iff.mp h
    obtain rfl := Option.some.inj heq
    exact {
      viewType := (optional_iff reads_text).mp hviewType
      uri := (optional_iff reads_text).mp huri
      cid := (optional_iff reads_text).mp hcid
      author := (optional_iff Account.reads).mp hauthor
      record := (optional_iff StoredPost.reads).mp hrecord
      replyCount := (defaulted_iff reads_int64).mp hreplyCount
      repostCount := (defaulted_iff reads_int64).mp hrepostCount
      likeCount := (defaulted_iff reads_int64).mp hlikeCount
      quoteCount := (defaulted_iff reads_int64).mp hquoteCount
      indexed := (optional_iff reads_instant).mp hindexed
      viewer := (optional_iff PostStanding.reads).mp hviewer
      labels := (defaulted_iff Label.reads.listOf).mp hlabels
      embed := (optional_iff reads_json).mp hembed }
  · intro h
    simp only [Option.bind_eq_bind, Option.bind_some, (optional_iff reads_text).mpr h.viewType,
      (optional_iff reads_text).mpr h.uri, (optional_iff reads_text).mpr h.cid,
      (optional_iff Account.reads).mpr h.author, (optional_iff StoredPost.reads).mpr h.record,
      (defaulted_iff reads_int64).mpr h.replyCount, (defaulted_iff reads_int64).mpr h.repostCount,
      (defaulted_iff reads_int64).mpr h.likeCount, (defaulted_iff reads_int64).mpr h.quoteCount,
      (optional_iff reads_instant).mpr h.indexed, (optional_iff PostStanding.reads).mpr h.viewer,
      (defaulted_iff Label.reads.listOf).mpr h.labels, (optional_iff reads_json).mpr h.embed]
    rfl

@[mk_iff]
structure ReplyView.Fields (l : Layout) (room : Nat) (a : ReplyView) : Prop where
  root : l.Optional "root" (PostView.spelling room) a.root
  parent : l.Optional "parent" (PostView.spelling room) a.parent

def ReplyView.spelling : Spelling ReplyView := .record ["root", "parent"] Fields

theorem ReplyView.reads : Reads readJson spelling := reads_record fun {s a} => by
  obtain ⟨⟩ := a
  simp [ReplyView.fields_iff, Option.bind_eq_some_iff, optional_iff PostView.reads]

@[mk_iff]
structure FeedReason.Fields (l : Layout) (room : Nat) (a : FeedReason) : Prop where
  reasonType : l.Optional "$type" (Spelling.text room) a.reasonType
  account : l.Optional "by" (Account.spelling room) a.account
  indexed : l.Optional "indexedAt" (Spelling.instant room) a.indexed

def FeedReason.spelling : Spelling FeedReason := .record ["$type", "by", "indexedAt"] Fields

theorem FeedReason.reads : Reads readJson spelling := reads_record fun {s a} => by
  obtain ⟨⟩ := a
  simp [FeedReason.fields_iff, Option.bind_eq_some_iff, optional_iff reads_text,
    optional_iff Account.reads, optional_iff reads_instant]

@[mk_iff]
structure FeedEntry.Fields (l : Layout) (room : Nat) (a : FeedEntry) : Prop where
  post : l.Optional "post" (PostView.spelling room) a.post
  reply : l.Optional "reply" (ReplyView.spelling room) a.reply
  reason : l.Optional "reason" (FeedReason.spelling room) a.reason

def FeedEntry.spelling : Spelling FeedEntry := .record ["post", "reply", "reason"] Fields

theorem FeedEntry.reads : Reads readJson spelling := reads_record fun {s a} => by
  obtain ⟨⟩ := a
  simp [FeedEntry.fields_iff, Option.bind_eq_some_iff, optional_iff PostView.reads,
    optional_iff ReplyView.reads, optional_iff FeedReason.reads]

/-- The entries stand in the order of the list under their name. -/
@[mk_iff]
structure FeedPage.Fields (l : Layout) (room : Nat) (a : FeedPage) : Prop where
  entries : l.Defaulted "feed" (Spelling.listOf FeedEntry.spelling room) [] a.entries
  next : l.Optional "cursor" (Spelling.text room) a.next

def FeedPage.spelling : Spelling FeedPage := .record ["feed", "cursor"] Fields

theorem FeedPage.reads : Reads readJson spelling := reads_record fun {s a} => by
  obtain ⟨⟩ := a
  simp [FeedPage.fields_iff, Option.bind_eq_some_iff, defaulted_iff FeedEntry.reads.listOf,
    optional_iff reads_text]

end Entries

end FeedClient
