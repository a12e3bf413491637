import FeedClient.Proofs.Feed.SpelledPages
import FeedClient.Proofs.Feed.WrittenParts

/-!
# Pages of feeds

The page of an answer is spelled by the body and is the same for all inputs, and
the inputs of an answer are those that were asked for. Written again, a page is
read as the same page.
-/
namespace FeedClient

open Json

theorem PostStanding.restores : Restores PostStanding.readJson PostStanding.toJson 1 := by
  refine restores_record (by decide) (fun _ => .refl _) fun {s v} _ hms h => ?_
  simp only [Option.bind_eq_bind, Option.bind_eq_some_iff] at h
  obtain ⟨threadMuted, hthreadMuted, embeddingDisabled, hembeddingDisabled, like, hlike, repost, hrepost,
    heq⟩ := h
  obtain rfl := Option.some.inj heq
  simp only [Option.bind_eq_bind, Option.bind_some,
    restores_bool.defaulted hms rfl rfl (Nat.zero_le _) hthreadMuted,
    restores_bool.defaulted hms rfl rfl (Nat.zero_le _) hembeddingDisabled,
    restores_text.optional hms (.inl rfl) (Nat.zero_le _) hlike,
    restores_text.optional hms (.inl rfl) (Nat.zero_le _) hrepost]
  exact heq

theorem PostView.restores : Restores PostView.readJson PostView.toJson 5 := by
  refine restores_record (by decide) (fun p => ?_) fun {s p} hroom hms h => ?_
  · cases p.viewType with
    | none => exact .cons _ (.refl _)
    | some t => exact .refl _
  · obtain ⟨viewType, hviewType, h⟩ := Option.bind_eq_some_iff.mp h
    obtain ⟨uri, huri, h⟩ := Option.bind_eq_some_iff.mp h
    obtain ⟨cid, hcid, h⟩ := Option.bind_eq_some_iff.mp h
    obtain ⟨author, hauthor, h⟩ := Option.bind_eq_some_iff.mp h
    obtain ⟨record, hrecord, h⟩ := Option.bind_eq_some_iff.mp h
    obtain ⟨replyCount, hreplyCount, h⟩ := Option.bind_eq_some_iff.mp h
    obtain ⟨repostCount, hrepostCount, h⟩ := Option.bind_eq_some_iff.mp h
    obtain ⟨likeCount, hlikeCount, h⟩ := Option.bind_eq_some_iff.mp h
    obtain ⟨quoteCount, hquoteCount, h⟩ := Option.bind_eq_some_iff.mp h
    obtain ⟨indexed, hindexed, h⟩ := Option.bind_eq_some_iff.mp h
    obtain ⟨viewer, hviewer, h⟩ := Option.bind_eq_some_iff.mp h
    obtain ⟨labels, hlabels, h⟩ := Option.bind_eq_some_iff.mp h
    obtain ⟨embed, hembed, heq⟩ := Option.bind_eq_some_iff.mp h
    obtain rfl := Option.some.inj heq
    have hzero : Reader.int64 s.room (tree (ofInt64 0)) = some 0 := int64_tree 0 s.room
    -- The members begin with the type of the view or without it.
    cases viewType
    all_goals
      simp only [Option.bind_eq_bind, Option.bind_some,
        restores_text.optional hms (.inr rfl) (Nat.zero_le _) hviewType,
        restores_text.optional hms (.inl rfl) (Nat.zero_le _) huri,
        restores_text.optional hms (.inl rfl) (Nat.zero_le _) hcid,
        Account.restores.optional hms (.inl rfl) (by omega) hauthor,
        StoredPost.restores.optional hms (.inl rfl) hroom hrecord,
        restores_int64.defaulted hms hzero rfl (Nat.zero_le _) hreplyCount,
        restores_int64.defaulted hms hzero rfl (Nat.zero_le _) hrepostCount,
        restores_int64.defaulted hms hzero rfl (Nat.zero_le _) hlikeCount,
        restores_int64.defaulted hms hzero rfl (Nat.zero_le _) hquoteCount,
        restores_instant.optional hms (.inl rfl) (Nat.zero_le _) hindexed,
        PostStanding.restores.optional hms (.inl rfl) (by omega) hviewer,
        Label.restores.defaulted_nil hms rfl (by omega) hlabels,
        restores_json.optional hms (.inl rfl) (Nat.zero_le _) hembed]
      exact heq

theorem ReplyView.restores : Restores ReplyView.readJson ReplyView.toJson 6 := by
  refine restores_record (by decide) (fun _ => .refl _) fun {s r} hroom hms h => ?_
  simp only [Option.bind_eq_bind, Option.bind_eq_some_iff] at h
  obtain ⟨root, hroot, parent, hparent, heq⟩ := h
  obtain rfl := Option.some.inj heq
  simp only [Option.bind_eq_bind, Option.bind_some,
    PostView.restores.optional hms (.inl rfl) hroom hroot,
    PostView.restores.optional hms (.inl rfl) hroom hparent]
  exact heq

theorem FeedReason.restores : Restores FeedReason.readJson FeedReason.toJson 4 := by
  refine restores_record (by decide) (fun _ => .refl _) fun {s r} hroom hms h => ?_
  simp only [Option.bind_eq_bind, Option.bind_eq_some_iff] at h
  obtain ⟨reasonType, hreasonType, account, haccount, indexed, hindexed, heq⟩ := h
  obtain rfl := Option.some.inj heq
  simp only [Option.bind_eq_bind, Option.bind_some,
    restores_text.optional hms (.inl rfl) (Nat.zero_le _) hreasonType,
    Account.restores.optional hms (.inl rfl) hroom haccount,
    restores_instant.optional hms (.inl rfl) (Nat.zero_le _) hindexed]
  exact heq

theorem FeedEntry.restores : Restores FeedEntry.readJson FeedEntry.toJson 7 := by
  refine restores_record (by decide) (fun _ => .refl _) fun {s e} hroom hms h => ?_
  simp only [Option.bind_eq_bind, Option.bind_eq_some_iff] at h
  obtain ⟨post, hpost, reply, hreply, reason, hreason, heq⟩ := h
  obtain rfl := Option.some.inj heq
  simp only [Option.bind_eq_bind, Option.bind_some,
    PostView.restores.optional hms (.inl rfl) (by omega) hpost,
    ReplyView.restores.optional hms (.inl rfl) hroom hreply,
    FeedReason.restores.optional hms (.inl rfl) (by omega) hreason]
  exact heq

theorem FeedPage.restores : Restores FeedPage.readJson FeedPage.toJson 9 := by
  refine restores_record (by decide) (fun _ => .refl _) fun {s p} hroom hms h => ?_
  simp only [Option.bind_eq_bind, Option.bind_eq_some_iff] at h
  obtain ⟨entries, hentries, next, hnext, heq⟩ := h
  obtain rfl := Option.some.inj heq
  simp only [Option.bind_eq_bind, Option.bind_some,
    FeedEntry.restores.defaulted_nil hms rfl hroom hentries,
    restores_text.optional hms (.inl rfl) (Nat.zero_le _) hnext]
  exact heq

namespace FeedPage

/-- The page that a body spells. A body that says nothing spells an empty one. -/
inductive Spelled (body : String) : FeedPage → Prop where
  | nothing (h : Text.trim body = "" ∨ Text.trim body = "null") : Spelled body ⟨[], none⟩
  | tree {t : Tree} {page : FeedPage} (ht : Tree.ofChars? (Text.trim body).toList = some t)
      (hpage : FeedPage.spelling nestingRoom t page) : Spelled body page

theorem ofText?_eq_some_iff {body : String} {page : FeedPage} :
    ofText? body = some page ↔ Spelled body page := by
  simp only [ofText?]
  split
  · rename_i hnothing
    have hleaf : Tree.ofChars? (Text.trim body).toList = none ∨
        Tree.ofChars? (Text.trim body).toList = some .null := by
      rcases hnothing with h | h <;> rw [h]
      · exact .inl rfl
      · exact .inr rfl
    constructor
    · intro h
      obtain rfl := Option.some.inj h
      exact .nothing hnothing
    · intro h
      cases h with
      | nothing _ => rfl
      | tree ht hpage =>
          rw [ht] at hleaf
          rcases hleaf with hleaf | hleaf
          · cases hleaf
          · obtain rfl := Option.some.inj hleaf
            have hread := (reads _ _ _).mpr hpage
            cases hread
  · rename_i hsays
    rw [readText?, Option.bind_eq_some_iff]
    constructor
    · rintro ⟨t, ht, hread⟩
      exact .tree ht ((reads _ _ _).mp hread)
    · intro h
      cases h with
      | nothing hnothing => exact absurd hnothing hsays
      | tree ht hpage => exact ⟨_, ht, (reads _ _ _).mpr hpage⟩

theorem Spelled.unique {body : String} {page page' : FeedPage} (h : Spelled body page)
    (h' : Spelled body page') : page = page' :=
  Option.some.inj ((ofText?_eq_some_iff.mpr h).symm.trans (ofText?_eq_some_iff.mpr h'))

/-- A page that was read is read again from what is printed for it. -/
theorem readText?_print_of_spelled {body : String} {page : FeedPage} (h : Spelled body page)
    (hfloats : FloatsReadBack page.toJson) : readText? readJson (print page.toJson) = some page := by
  obtain ⟨t, ht⟩ : ∃ t, readJson nestingRoom t = some page := by
    cases h with
    | nothing _ => exact ⟨.object [], rfl⟩
    | tree _ hpage => exact ⟨_, (reads _ _ _).mpr hpage⟩
  rw [readText?_print hfloats]
  exact restores.reads (by decide) ht hfloats

theorem trim_print_object (ms : List (String × Json)) :
    Text.trim (print (.object ms)) = print (.object ms) :=
  Text.trim_of_ends (by decide) (by decide) _

/-- A page that was read is the page of what is printed for it. -/
theorem ofText?_print_of_spelled {body : String} {page : FeedPage} (h : Spelled body page)
    (hfloats : FloatsReadBack page.toJson) : ofText? (print page.toJson) = some page := by
  have hread := readText?_print_of_spelled h hfloats
  have htrim : Text.trim (print page.toJson) = print page.toJson := trim_print_object _
  simp only [ofText?, htrim]
  rw [if_neg, hread]
  rintro (hempty | hnull)
  · rw [hempty] at hread
    cases hread
  · rw [hnull] at hread
    cases hread

end FeedPage

/-- The answers to a query are the page that the body spells, with the inputs that were asked for. So
for the same body queries succeed or fail alike, and what they asked for does not show in the page. The
record of an answer is its page; written and mapped again with the same inputs, it is the same answer. -/
theorem FeedAnswer.ofBody_of_inputs (body : String) (i₁ i₂ : FeedInputs) :
    ((∃ answers, ofBody i₁ body = .ok answers) ↔ ∃ answers, ofBody i₂ body = .ok answers) ∧
    ((∃ answers, ofBody i₁ body = .ok answers) ↔ ∃ page, FeedPage.Spelled body page) ∧
    (∀ answers₁ answers₂, ofBody i₁ body = .ok answers₁ → ofBody i₂ body = .ok answers₂ →
      ∃ page, FeedPage.Spelled body page ∧ answers₁ = [⟨i₁, page⟩] ∧ answers₂ = [⟨i₂, page⟩] ∧
        (FloatsReadBack page.toJson → ofBody i₁ (print page.toJson) = .ok answers₁)) := by
  have hok : ∀ i answers, ofBody i body = .ok answers ↔
      ∃ page, FeedPage.Spelled body page ∧ answers = [⟨i, page⟩] := fun i answers => by
    simp only [ofBody, ← FeedPage.ofText?_eq_some_iff]
    cases FeedPage.ofText? body <;> simp [eq_comm]
  have hsome : ∀ i, (∃ answers, ofBody i body = .ok answers) ↔ ∃ page, FeedPage.Spelled body page :=
    fun i => by
      simp only [hok]
      exact ⟨fun ⟨_, page, hpage, _⟩ => ⟨page, hpage⟩, fun ⟨page, hpage⟩ => ⟨_, page, hpage, rfl⟩⟩
  refine ⟨(hsome i₁).trans (hsome i₂).symm, hsome i₁, ?_⟩
  intro answers₁ answers₂ h₁ h₂
  obtain ⟨page, hpage, rfl⟩ := (hok i₁ answers₁).mp h₁
  obtain ⟨page', hpage', rfl⟩ := (hok i₂ answers₂).mp h₂
  obtain rfl : page = page' := hpage.unique hpage'
  refine ⟨page, hpage, rfl, rfl, fun hfloats => ?_⟩
  rw [ofBody, FeedPage.ofText?_print_of_spelled hpage hfloats]

/-- A page with members that are named as inputs are, an entry of many parts, and one of none. -/
def pageOfInputNames : Json :=
  .object [("feed_type", .text "Author"), ("limit", .integer 3), ("cursor", .text "next"),
    ("feed", .array [
      .object [
        ("post", .object [("uri", .text "at://p"), ("likeCount", .integer 7),
          ("author", .object [("handle", .text "a.test"),
            ("labels", .array [.object [("val", .text "spam"), ("neg", .bool true)]])]),
          ("record", .object [("text", .text "hi"), ("langs", .array [.text "en"]),
            ("facets", .array [
              .object [("index", .array [.integer 0, .integer 2]), ("features", .array [])]])]),
          ("indexedAt", .text "2024-12-06T01:23:27Z"),
          ("embed", .object [("ratio", .float (.ofDecimal false 15 (-1)))])]),
        ("reply", .object [("root", .object [("cid", .text "c")])]),
        ("reason", .object [("by", .object [("did", .text "did:b")])])],
      .object []])]

set_option synthInstance.maxSize 512 in
/-- Neither the limit nor the cursor of the inputs is taken from such a body, and its entries are those
of its list, part by part. -/
theorem FeedAnswer.ofBody_of_input_names :
    let home : FeedInputs := ⟨.timeline, "reverse", some 50, none⟩
    let later : FeedInputs := ⟨.timeline, "ranked", none, some "here"⟩
    let body := print pageOfInputNames
    ∃ page, (ofBody home body = .ok [⟨home, page⟩] ∧ ofBody later body = .ok [⟨later, page⟩] ∧
        ofBody home (print page.toJson) = .ok [⟨home, page⟩]) ∧
      page.next = some "next" ∧
      (page.entries.map fun e => e.post.map fun p => (p.uri, p.likeCount, p.quoteCount)) =
        [some (some "at://p", 7, 0), none] ∧
      (page.entries.map fun e => e.post.bind (·.indexed)) = [some ⟨1733448207, 0⟩, none] ∧
      (page.entries.map fun e => (e.post.bind (·.embed)).map print) =
        [some "\x7b\"ratio\":1.5\x7d", none] ∧
      (page.entries.map fun e => (e.post.bind (·.author)).bind (·.handle)) = [some "a.test", none] ∧
      (page.entries.map fun e => (e.post.bind (·.author)).map (·.labels.map fun l => (l.value, l.negated))) =
        [some [(some "spam", true)], none] ∧
      (page.entries.map fun e => (e.post.bind (·.record)).map fun r => (r.text, r.langs)) =
        [some (some "hi", ["en"]), none] ∧
      (page.entries.map fun e => ((e.post.bind (·.record)).bind (·.facets)).map (·.map (·.range))) =
        [some [⟨0, 2⟩], none] ∧
      (page.entries.map fun e => ((e.reply.bind (·.root)).bind (·.cid),
        (e.reason.bind (·.account)).bind (·.did))) = [(some "c", some "did:b"), (none, none)] := by
  intro home later body
  -- What is read of the tree of the body is read of the body, for all inputs.
  have hread (p : FeedPage → Prop) : (∃ page ∈ FeedPage.readJson nestingRoom (tree pageOfInputNames),
      FloatsReadBack page.toJson ∧ p page) →
      ∃ page, (ofBody home body = .ok [⟨home, page⟩] ∧ ofBody later body = .ok [⟨later, page⟩] ∧
        ofBody home (print page.toJson) = .ok [⟨home, page⟩]) ∧ p page := by
    rintro ⟨page, hpage, hfloats, hp⟩
    have htrim : Text.trim body = body := FeedPage.trim_print_object _
    have hchars : body.toList = chars pageOfInputNames := String.toList_ofList
    have htree : Tree.ofChars? (Text.trim body).toList = some (tree pageOfInputNames) := by
      rw [htrim, hchars]
      exact ofChars?_chars (by decide +kernel)
    have hspelled : FeedPage.Spelled body page := .tree htree ((FeedPage.reads _ _ _).mp hpage)
    obtain ⟨hsame, hspells, hpages⟩ := ofBody_of_inputs body home later
    obtain ⟨answers, hanswers⟩ := hspells.mpr ⟨page, hspelled⟩
    obtain ⟨others, hothers⟩ := hsame.mp ⟨answers, hanswers⟩
    obtain ⟨page', hspelled', rfl, rfl, hback⟩ := hpages answers others hanswers hothers
    obtain rfl : page = page' := hspelled.unique hspelled'
    exact ⟨page, ⟨hanswers, hothers, hback hfloats⟩, hp⟩
  exact hread _ (by decide +kernel)

end FeedClient
