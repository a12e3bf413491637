import FeedClient.Feed.Post
import FeedClient.Proofs.Feed.WrittenParts

/-!
# Bodies of new posts

The body of a post holds a member for every field that the draft sets, and reading
it gives the draft back, except that an embedded `null` is no longer there. A reader
of text stops at its nesting limit, which only the free values of a draft can reach.
-/
namespace FeedClient

open Json

/-- A value that an optional field does not keep. -/
def Json.isNull : Json → Bool
  | .null => true
  | _ => false

namespace NewPost

/-- The members that a record is written with. -/
def members (p : NewPost) : List (String × Json) :=
  [("$type", .text p.recordType), ("text", .text p.text), ("createdAt", instantJson p.created)] ++
    member "facets" facetsJson p.facets ++ member "reply" ReplyRef.toJson p.reply ++
    member "embed" id p.embed ++ member "langs" textsJson p.langs ++
    member "labels" textsJson p.labels ++ member "tags" textsJson p.tags

def fieldNames : List String :=
  ["$type", "text", "createdAt", "facets", "reply", "embed", "langs", "labels", "tags"]

theorem find?_member {α : Type} (name other : String) (write : α → Json) (o : Option α) :
    Entries.find? other (member name write o) = if name = other then o.map write else none := by
  cases o with
  | none => exact (ite_self none).symm
  | some a => rfl

theorem names_member {α : Type} (name : String) (write : α → Json) (o : Option α) :
    ((member name write o).map Prod.fst).Sublist [name] := by
  cases o with
  | none => exact List.nil_sublist _
  | some a => exact .refl _

theorem forall_member {α : Type} {P : Json → Prop} (name : String) {write : α → Json} {o : Option α}
    (h : ∀ a ∈ o, P (write a)) : ∀ m ∈ member name write o, P m.2 := by
  cases o with
  | none => exact nofun
  | some a => exact List.forall_mem_singleton.mpr (h a rfl)

theorem names_members (p : NewPost) : (p.members.map Prod.fst).Sublist fieldNames := by
  simp only [members, List.map_append]
  exact (((((List.Sublist.refl _).append (names_member ..)).append (names_member ..)).append
    (names_member ..)).append (names_member ..)).append (names_member ..) |>.append (names_member ..)

/-- An object holds what is set in a record, each field under its name, and nothing else. -/
structure Carried (record : Json) (p : NewPost) : Prop where
  recordType : record.member? "$type" = some (.text p.recordType)
  text : record.member? "text" = some (.text p.text)
  created : record.member? "createdAt" = some (instantJson p.created)
  facets : record.member? "facets" = p.facets.map facetsJson
  reply : record.member? "reply" = p.reply.map ReplyRef.toJson
  embed : record.member? "embed" = p.embed
  langs : record.member? "langs" = p.langs.map textsJson
  labels : record.member? "labels" = p.labels.map textsJson
  tags : record.member? "tags" = p.tags.map textsJson
  others : ∀ name, name ∉ fieldNames → record.member? name = none

theorem floatsReadBack_toJson {p : NewPost} (hfacets : ∀ fs ∈ p.facets, FloatsReadBack (facetsJson fs))
    (hembed : ∀ j ∈ p.embed, FloatsReadBack j) : FloatsReadBack p.toJson := by
  have htexts : ∀ ts, FloatsReadBack (textsJson ts) := fun ts => floatsReadBack_array fun j hj => by
    obtain ⟨t, -, rfl⟩ := List.mem_map.mp hj
    exact floatsReadBack_text t
  refine floatsReadBack_ofMembers ?_
  simp only [List.forall_mem_append, List.forall_mem_cons]
  refine ⟨⟨⟨⟨⟨⟨?_, forall_member _ hfacets⟩, forall_member _ fun r _ => ?_⟩, forall_member _ hembed⟩,
    forall_member _ fun ts _ => htexts ts⟩, forall_member _ fun ts _ => htexts ts⟩,
    forall_member _ fun ts _ => htexts ts⟩
  · exact ⟨floatsReadBack_text _, floatsReadBack_text _, floatsReadBack_text _, nofun⟩
  · exact r.floatsReadBack_toJson

theorem carried_toJson (p : NewPost) : Carried p.toJson p := by
  have hfind : ∀ name, p.toJson.member? name = Entries.find? name p.members := fun name =>
    Entries.find?_ofPairs ((by decide : fieldNames.Nodup).sublist p.names_members) name
  constructor <;> simp only [hfind]
  case others =>
    intro name hname
    exact Entries.find?_eq_none_iff.mpr fun hmem => hname (p.names_members.subset hmem)
  all_goals simp [members, Entries.find?_append, find?_member, Entries.find?]

/-- The record as it is read: an embedded `null` is not there. -/
def settled (p : NewPost) : NewPost := { p with embed := p.embed.filter fun j => !j.isNull }

theorem readJson_toJson {p : NewPost} (hcreated : p.created.IsCivil)
    (hfacets : ∀ fs ∈ p.facets, ∀ f ∈ fs, ∀ j ∈ f.features, Returns Reader.json id j)
    (hembed : ∀ j ∈ p.embed, Returns Reader.json id j) {room : Nat} (hroom : nesting p.toJson ≤ room) :
    readJson room (tree p.toJson) = some p.settled := by
  refine record_ofMembers (by decide) p.names_members hroom fun {room} hms => ?_
  have hcarried := carried_toJson p
  have hfind : ∀ name, Entries.find? name p.members = p.toJson.member? name := fun name =>
    (Entries.find?_ofPairs hms.names name).symm
  have hread : ∀ fs ∈ p.facets,
      Returns (Reader.listOf Facet.readJson) facetsJson fs ∧ tree (facetsJson fs) ≠ .null :=
    fun fs hfs => ⟨returns_listOf fun f hf => Facet.returns (hfacets fs hfs f hf), nofun⟩
  have hreply : ∀ r ∈ p.reply,
      Returns ReplyRef.readJson ReplyRef.toJson r ∧ tree r.toJson ≠ .null :=
    fun r _ => ⟨r.returns, nofun⟩
  have htexts : ∀ ts, Returns (Reader.listOf Reader.text) textsJson ts ∧ tree (textsJson ts) ≠ .null :=
    fun ts => ⟨returns_listOf fun t _ => returns_text t, nofun⟩
  have hembedded : ∀ j ∈ p.settled.embed, Returns Reader.json id j ∧ tree (id j) ≠ .null := by
    intro j hj
    obtain ⟨hj, hkept⟩ := Option.filter_eq_some_iff.mp hj
    refine ⟨hembed j hj, fun hnull => ?_⟩
    have hread : Reader.json (nesting j) (tree j) = some j := hembed j hj (Nat.le_refl _)
    rw [show tree j = .null from hnull] at hread
    obtain rfl : Json.null = j := Option.some.inj hread
    cases hkept
  have hwritten : Entries.find? "embed" p.members = some (ofOption id p.settled.embed) ∨
      Entries.find? "embed" p.members = p.settled.embed.map id := by
    rw [hfind, hcarried.embed, settled]
    cases p.embed with
    | none => exact .inr rfl
    | some j => exact .inl (by cases j <;> rfl)
  simp only [Option.bind_eq_bind, Option.bind_some,
    (returns_text p.recordType).required hms "$type" ((hfind _).trans hcarried.recordType),
    (returns_text p.text).required hms "text" ((hfind _).trans hcarried.text),
    (returns_instant hcreated).required hms "createdAt" ((hfind _).trans hcarried.created),
    optional_of_returns hread hms "facets" (.inr ((hfind _).trans hcarried.facets)),
    optional_of_returns hreply hms "reply" (.inr ((hfind _).trans hcarried.reply)),
    optional_of_returns hembedded hms "embed" hwritten,
    optional_of_returns (fun ts _ => htexts ts) hms "langs" (.inr ((hfind _).trans hcarried.langs)),
    optional_of_returns (fun ts _ => htexts ts) hms "labels" (.inr ((hfind _).trans hcarried.labels)),
    optional_of_returns (fun ts _ => htexts ts) hms "tags" (.inr ((hfind _).trans hcarried.tags))]
  rfl

end NewPost

namespace PostDraft

/-- The values of a draft that may be anything. -/
def freeValues (d : PostDraft) : List Json :=
  d.embed.toList ++ (d.facets.getD []).flatMap Facet.features

/-- What a draft holds can be written and read: its time of creation is one that instants have, and its
free values are those that a reader gives, with floating-point numbers that are read back. -/
structure Legible (d : PostDraft) : Prop where
  created : d.created.IsCivil
  wellFormed : ∀ j ∈ d.freeValues, WellFormed j
  floats : ∀ j ∈ d.freeValues, FloatsReadBack j

/-- The draft as its body tells it: an embedded `null` is not there. -/
def settled (d : PostDraft) : PostDraft := { d with embed := d.embed.filter fun j => !j.isNull }

/-- The record of a draft. -/
def record (d : PostDraft) : NewPost :=
  ⟨postCollection, d.text, d.created, d.facets, d.reply, d.embed, d.langs, d.labels, d.tags⟩

theorem settled_eq {d : PostDraft} (h : d.embed ≠ some .null) : d.settled = d := by
  obtain ⟨text, created, facets, reply, embed, langs, labels, tags⟩ := d
  cases embed with
  | none => rfl
  | some j =>
      cases j with
      | null => exact absurd rfl h
      | _ => rfl

theorem record_inj {d e : PostDraft} (h : d.record = e.record) : d = e := by
  obtain ⟨⟩ := d
  obtain ⟨⟩ := e
  simpa [record] using h

theorem mem_freeValues_of_facets {d : PostDraft} {fs : List Facet} (hfs : fs ∈ d.facets) {f : Facet}
    (hf : f ∈ fs) {j : Json} (hj : j ∈ f.features) : j ∈ d.freeValues := by
  have hfacets : d.facets = some fs := hfs
  rw [freeValues, hfacets]
  exact List.mem_append_right _ (List.mem_flatMap.mpr ⟨f, hf, hj⟩)

theorem mem_freeValues_of_embed {d : PostDraft} {j : Json} (hj : j ∈ d.embed) : j ∈ d.freeValues :=
  List.mem_append_left _ (Option.mem_toList.mpr hj)

namespace Legible

variable {d : PostDraft} (h : d.Legible)

include h

theorem returns {j : Json} (hj : j ∈ d.freeValues) : Returns Reader.json id j :=
  returns_json (h.wellFormed j hj) (h.floats j hj)

theorem floats_record : FloatsReadBack d.record.toJson := by
  refine NewPost.floatsReadBack_toJson (fun fs hfs => floatsReadBack_array fun j hj => ?_)
    fun j hj => h.floats j (mem_freeValues_of_embed hj)
  obtain ⟨f, hf, rfl⟩ := List.mem_map.mp hj
  exact f.floatsReadBack_toJson fun j hj => h.floats j (mem_freeValues_of_facets hfs hf hj)

end Legible

end PostDraft

namespace RecordCreation

theorem ofDraft_eq {d : PostDraft} (h : Text.isBlank d.text = false) (repo : String) :
    ofDraft d repo = .ok ⟨repo, postCollection, d.record⟩ := by
  rw [ofDraft, if_neg (by simp [h])]
  rfl

theorem readJson_toJson {repo collection : String} {p : NewPost} {room : Nat}
    (h : ∀ {room}, nesting p.toJson ≤ room → NewPost.readJson room (tree p.toJson) = some p.settled)
    (hroom : nesting (toJson ⟨repo, collection, p⟩) ≤ room) :
    readJson room (tree (toJson ⟨repo, collection, p⟩)) = some ⟨repo, collection, p.settled⟩ := by
  refine record_ofMembers (by decide) (.refl _) hroom fun {room} hms => ?_
  have hrecord : Entries.find? "record" [("repo", Json.text repo), ("collection", .text collection),
      ("record", p.toJson)] = some p.toJson := rfl
  simp only [Option.bind_eq_bind, Option.bind_some,
    (returns_text repo).required hms "repo" rfl,
    (returns_text collection).required hms "collection" rfl,
    required_written hms.names "record" hrecord (h (hms.nesting_le_of_find? hrecord))]
  rfl

theorem eq_of_ofDraft {d : PostDraft} {repo : String} {c : RecordCreation} (h : ofDraft d repo = .ok c) :
    c = ⟨repo, postCollection, d.record⟩ := by
  unfold ofDraft at h
  split at h
  · cases h
  · exact (Except.ok.inj h).symm

theorem member?_toJson (c : RecordCreation) (name : String) :
    c.toJson.member? name = Entries.find? name
      [("repo", .text c.repo), ("collection", .text c.collection), ("record", c.record.toJson)] := by
  have hnames : (List.map Prod.fst
      [("repo", Json.text c.repo), ("collection", .text c.collection),
        ("record", c.record.toJson)]).Nodup := (by decide : ["repo", "collection", "record"].Nodup)
  exact Entries.find?_ofPairs hnames name

section Bodies

variable {d : PostDraft} (hd : d.Legible) (repo : String)

include hd

theorem ofChars?_print :
    Tree.ofChars? (print (toJson ⟨repo, postCollection, d.record⟩)).toList =
      some (tree (toJson ⟨repo, postCollection, d.record⟩)) := by
  rw [print, String.toList_ofList]
  refine ofChars?_chars (floatsReadBack_ofMembers ?_)
  simp [floatsReadBack_text, hd.floats_record]

/-- The body of a draft is read as that of the settled draft, if there is room for it. -/
theorem readJson_body {room : Nat}
    (hroom : nesting (toJson ⟨repo, postCollection, d.record⟩) ≤ room) :
    readJson room (tree (toJson ⟨repo, postCollection, d.record⟩)) =
      some ⟨repo, postCollection, d.settled.record⟩ :=
  readJson_toJson
    (fun hroom => NewPost.readJson_toJson hd.created
      (fun _ hfs _ hf _ hj => hd.returns (PostDraft.mem_freeValues_of_facets hfs hf hj))
      (fun _ hj => hd.returns (PostDraft.mem_freeValues_of_embed hj)) hroom) hroom

/-- Bodies that print alike are bodies of drafts that settle alike. -/
theorem settled_of_print_eq {e : PostDraft} (he : e.Legible) {repo' : String}
    (h : print (toJson ⟨repo', postCollection, e.record⟩) =
      print (toJson ⟨repo, postCollection, d.record⟩)) :
    repo' = repo ∧ e.settled = d.settled := by
  have htree : tree (toJson ⟨repo', postCollection, e.record⟩) =
      tree (toJson ⟨repo, postCollection, d.record⟩) := by
    apply Option.some.inj
    rw [← ofChars?_print he repo', ← ofChars?_print hd repo, h]
  let room := max (nesting (toJson ⟨repo', postCollection, e.record⟩))
    (nesting (toJson ⟨repo, postCollection, d.record⟩))
  have he' := readJson_body he repo' (Nat.le_max_left _ _ : _ ≤ room)
  have hd' := readJson_body hd repo (Nat.le_max_right _ _ : _ ≤ room)
  rw [htree, hd'] at he'
  obtain ⟨hrepo, -, hrecord⟩ := RecordCreation.mk.inj (Option.some.inj he')
  exact ⟨hrepo.symm, (PostDraft.record_inj hrecord).symm⟩

end Bodies

/-- The body of a draft names the repository and the collection and has a record with every field that
the draft sets, with the text as it was given, and nothing else. Read by a reader with room for its
nesting it is the body of the settled draft, which is the draft itself unless it embeds a `null`; so is
its text if it nests no deeper than a reader of texts goes. Drafts that differ in more than an embedded
`null` have different bodies. -/
theorem body_of_draft {d : PostDraft} (htext : Text.isBlank d.text = false) (hd : d.Legible)
    (repo : String) :
    let body : RecordCreation := ⟨repo, postCollection, d.record⟩
    ofDraft d repo = .ok body ∧
      (d.embed ≠ some .null → d.settled = d) ∧
      body.toJson.member? "repo" = some (.text repo) ∧
      body.toJson.member? "collection" = some (.text "app.bsky.feed.post") ∧
      (∃ record, body.toJson.member? "record" = some record ∧ NewPost.Carried record d.record ∧
        record.member? "$type" = some (.text "app.bsky.feed.post")) ∧
      (∀ name, name ≠ "repo" → name ≠ "collection" → name ≠ "record" →
        body.toJson.member? name = none) ∧
      (∃ t, Tree.ofChars? (print body.toJson).toList = some t ∧ ∀ room, nesting body.toJson ≤ room →
        readJson room t = some ⟨repo, postCollection, d.settled.record⟩) ∧
      (nesting body.toJson ≤ nestingRoom →
        readText? readJson (print body.toJson) = some ⟨repo, postCollection, d.settled.record⟩) ∧
      ∀ (e : PostDraft) (repo' : String) (other : RecordCreation), e.Legible →
        ofDraft e repo' = .ok other → print other.toJson = print body.toJson →
          repo' = repo ∧ e.settled = d.settled := by
  intro body
  have hread : ∀ room, nesting body.toJson ≤ room →
      readJson room (tree body.toJson) = some ⟨repo, postCollection, d.settled.record⟩ :=
    fun _ hroom => readJson_body hd repo hroom
  have htree : Tree.ofChars? (print body.toJson).toList = some (tree body.toJson) :=
    ofChars?_print hd repo
  refine ⟨ofDraft_eq htext repo, PostDraft.settled_eq, member?_toJson body _, member?_toJson body _,
    ⟨_, member?_toJson body _, NewPost.carried_toJson d.record, (NewPost.carried_toJson _).recordType⟩,
    fun name hrepo hcollection hrecord => ?_, ⟨_, htree, hread⟩, fun hroom => ?_,
    fun e repo' other he hother hprint => ?_⟩
  · rw [member?_toJson, Entries.find?_eq_none_iff]
    simp [hrepo, hcollection, hrecord]
  · rw [readText?, htree, Option.bind_some, hread nestingRoom hroom]
  · obtain rfl := eq_of_ofDraft hother
    exact settled_of_print_eq hd repo he hprint

/-- A number in a free value, white space around the text and empty lists are there again, and a list
that is not there makes for a different body. -/
theorem body_of_draft_with_number :
    let d : PostDraft := ⟨" hi ", ⟨1733446407, 0⟩, some [], none,
      some (.object [("ratio", .float (.finite false 6755399441055744 (-52)))]), some ["en"], none,
      some []⟩
    ∃ body, ofDraft d "did:plc:abc" = .ok body ∧ body.record.text = " hi " ∧
      readText? readJson (print body.toJson) = some body ∧
      ∀ other, ofDraft { d with tags := none } "did:plc:abc" = .ok other →
        print other.toJson ≠ print body.toJson := by
  intro d
  have hd : d.Legible := {
    created := by decide +kernel
    wellFormed := by decide +kernel
    floats := by decide +kernel }
  obtain ⟨hbody, hsettled, -, -, -, -, -, hread, hdiffer⟩ :=
    body_of_draft (by decide : Text.isBlank d.text = false) hd "did:plc:abc"
  refine ⟨_, hbody, rfl, ?_, fun other hother hprint => ?_⟩
  · rw [hread (by decide +kernel), hsettled nofun]
  · obtain ⟨-, hsame⟩ := hdiffer { d with tags := none } _ other
      ⟨hd.created, hd.wellFormed, hd.floats⟩ hother hprint
    cases congrArg PostDraft.tags hsame

/-- A value inside of as many arrays as given. -/
def nested : Nat → Json
  | 0 => .null
  | n + 1 => .array [nested n]

/-- The text of a body is not read if an embedded value nests too deep. -/
theorem unread_of_nested_embed :
    let d : PostDraft := ⟨"hi", ⟨1733446407, 0⟩, none, none, some (nested 126), none, none, none⟩
    d.Legible ∧ ∃ body, ofDraft d "did:plc:abc" = .ok body ∧ nesting body.toJson = nestingRoom + 1 ∧
      readText? readJson (print body.toJson) = none := by
  intro d
  have hd : d.Legible := {
    created := by decide +kernel
    wellFormed := by decide +kernel
    floats := by decide +kernel }
  have hbody : ofDraft d "did:plc:abc" = .ok ⟨"did:plc:abc", postCollection, d.record⟩ :=
    ofDraft_eq (by decide) _
  have hnone : (readJson nestingRoom
      (tree (toJson ⟨"did:plc:abc", postCollection, d.record⟩))).isNone = true := by decide +kernel
  refine ⟨hd, _, hbody, by decide +kernel, ?_⟩
  rw [readText?, ofChars?_print hd, Option.bind_some]
  exact Option.isNone_iff_eq_none.mp hnone

end RecordCreation

end FeedClient
