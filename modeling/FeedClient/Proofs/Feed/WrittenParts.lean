import FeedClient.Feed.StoredPost
import FeedClient.Proofs.Json.WrittenRecords

/-!
# Accounts and stored posts as they are written

The parts of a feed are read again from what is written for them.
-/
namespace FeedClient

open Json

theorem returns_instant {t : Calendar.Instant} (h : t.IsCivil) : Returns Reader.instant instantJson t := by
  intro room _
  have htext : Reader.text room (tree (instantJson t)) = some t.zulu := pieceText?_textPieces _
  rw [Reader.instant, htext, Option.bind_some, Calendar.Timestamp.read?_zulu h]

theorem restores_instant : Restores Reader.instant instantJson 0 where
  reads {room t a} hroom h _ := by
    obtain ⟨s, -, hread⟩ := Option.bind_eq_some_iff.mp h
    exact returns_instant (Calendar.Timestamp.isCivil_of_read? hread) hroom
  ne_null _ _ _ := nofun

theorem Label.restores : Restores Label.readJson Label.toJson 1 := by
  refine restores_record (by decide) (fun _ => .refl _) fun {s l} _ hms h => ?_
  simp only [Option.bind_eq_bind, Option.bind_eq_some_iff] at h
  obtain ⟨version, hversion, source, hsource, uri, huri, cid, hcid, value, hvalue, negated, hnegated,
    created, hcreated, expires, hexpires, heq⟩ := h
  obtain rfl := Option.some.inj heq
  simp only [Option.bind_eq_bind, Option.bind_some,
    restores_int64.optional hms (.inl rfl) (Nat.zero_le _) hversion,
    restores_text.optional hms (.inl rfl) (Nat.zero_le _) hsource,
    restores_text.optional hms (.inl rfl) (Nat.zero_le _) huri,
    restores_text.optional hms (.inl rfl) (Nat.zero_le _) hcid,
    restores_text.optional hms (.inl rfl) (Nat.zero_le _) hvalue,
    restores_bool.defaulted hms rfl rfl (Nat.zero_le _) hnegated,
    restores_instant.optional hms (.inl rfl) (Nat.zero_le _) hcreated,
    restores_instant.optional hms (.inl rfl) (Nat.zero_le _) hexpires]
  exact heq

theorem AccountStanding.restores : Restores AccountStanding.readJson AccountStanding.toJson 1 := by
  refine restores_record (by decide) (fun _ => .refl _) fun {s v} _ hms h => ?_
  simp only [Option.bind_eq_bind, Option.bind_eq_some_iff] at h
  obtain ⟨muted, hmuted, blockedBy, hblockedBy, following, hfollowing, followedBy, hfollowedBy, heq⟩ := h
  obtain rfl := Option.some.inj heq
  simp only [Option.bind_eq_bind, Option.bind_some,
    restores_bool.defaulted hms rfl rfl (Nat.zero_le _) hmuted,
    restores_bool.defaulted hms rfl rfl (Nat.zero_le _) hblockedBy,
    restores_text.optional hms (.inl rfl) (Nat.zero_le _) hfollowing,
    restores_text.optional hms (.inl rfl) (Nat.zero_le _) hfollowedBy]
  exact heq

theorem Account.restores : Restores Account.readJson Account.toJson 3 := by
  refine restores_record (by decide) (fun _ => .refl _) fun {s a} hroom hms h => ?_
  simp only [Option.bind_eq_bind, Option.bind_eq_some_iff] at h
  obtain ⟨did, hdid, handle, hhandle, displayName, hdisplayName, avatar, havatar, associated, hassociated,
    viewer, hviewer, labels, hlabels, created, hcreated, heq⟩ := h
  obtain rfl := Option.some.inj heq
  simp only [Option.bind_eq_bind, Option.bind_some,
    restores_text.optional hms (.inl rfl) (Nat.zero_le _) hdid,
    restores_text.optional hms (.inl rfl) (Nat.zero_le _) hhandle,
    restores_text.optional hms (.inl rfl) (Nat.zero_le _) hdisplayName,
    restores_text.optional hms (.inl rfl) (Nat.zero_le _) havatar,
    restores_json.optional hms (.inl rfl) (Nat.zero_le _) hassociated,
    AccountStanding.restores.optional hms (.inl rfl) (by omega) hviewer,
    Label.restores.defaulted_nil hms rfl hroom hlabels,
    restores_instant.optional hms (.inl rfl) (Nat.zero_le _) hcreated]
  exact heq

theorem StrongRef.returns (r : StrongRef) : Returns readJson toJson r := by
  refine returns_record (by decide) (.refl _) rfl fun {room} hms => ?_
  simp only [Option.bind_eq_bind, Option.bind_some,
    (returns_text r.uri).required hms "uri" rfl, (returns_text r.cid).required hms "cid" rfl]
  rfl

theorem ReplyRef.returns (r : ReplyRef) : Returns readJson toJson r := by
  refine returns_record (by decide) (.refl _) rfl fun {room} hms => ?_
  simp only [Option.bind_eq_bind, Option.bind_some,
    r.root.returns.required hms "root" rfl, r.parent.returns.required hms "parent" rfl]
  rfl

theorem ByteRange.returns (r : ByteRange) : Returns readJson toJson r := by
  refine returns_record (by decide) (.refl _) rfl fun {room} hms => ?_
  simp only [Option.bind_eq_bind, Option.bind_some,
    (returns_uint64 r.start).required hms "byteStart" rfl,
    (returns_uint64 r.stop).required hms "byteEnd" rfl]
  rfl

theorem Facet.returns {f : Facet} (h : ∀ j ∈ f.features, Returns Reader.json id j) :
    Returns readJson toJson f := by
  have hfeatures : Returns (Reader.listOf Reader.json) .array f.features := by
    simpa only [List.map_id] using returns_listOf h
  refine returns_record (by decide) (.refl _) rfl fun {room} hms => ?_
  simp only [Option.bind_eq_bind, Option.bind_some, f.range.returns.required hms "index" rfl,
    hfeatures.required hms "features" rfl]
  rfl

theorem StrongRef.floatsReadBack_toJson (r : StrongRef) : FloatsReadBack r.toJson :=
  floatsReadBack_ofMembers (by simp [floatsReadBack_text])

theorem ReplyRef.floatsReadBack_toJson (r : ReplyRef) : FloatsReadBack r.toJson :=
  floatsReadBack_ofMembers (by simp [StrongRef.floatsReadBack_toJson])

theorem ByteRange.floatsReadBack_toJson (r : ByteRange) : FloatsReadBack r.toJson :=
  floatsReadBack_ofMembers (by simp [floatsReadBack_integer])

theorem Facet.floatsReadBack_toJson {f : Facet} (h : ∀ j ∈ f.features, FloatsReadBack j) :
    FloatsReadBack f.toJson :=
  floatsReadBack_ofMembers (by simp [ByteRange.floatsReadBack_toJson, floatsReadBack_array h])

theorem StrongRef.nesting_toJson (r : StrongRef) : nesting r.toJson ≤ 1 :=
  nesting_ofMembers_le (by simp [nesting])

theorem ReplyRef.restores : Restores ReplyRef.readJson ReplyRef.toJson 2 :=
  restores_of_returns ReplyRef.returns
    (fun r => nesting_ofMembers_le (by simp [StrongRef.nesting_toJson])) nofun

theorem ByteRange.restores : Restores ByteRange.readJson ByteRange.toJson 1 :=
  restores_of_returns ByteRange.returns (fun r => nesting_ofMembers_le (by simp [nesting])) nofun

theorem restores_jsons : Restores (Reader.listOf Reader.json) .array 1 := by
  simpa only [List.map_id] using restores_json.listOf

theorem Facet.restores : Restores Facet.readJson Facet.toJson 2 := by
  refine restores_record (by decide) (fun _ => .refl _) fun {s f} hroom hms h => ?_
  simp only [Option.bind_eq_bind, Option.bind_eq_some_iff] at h
  obtain ⟨range, hrange, features, hfeatures, heq⟩ := h
  obtain rfl := Option.some.inj heq
  simp only [Option.bind_eq_bind, Option.bind_some,
    ByteRange.restores.required hms rfl hroom hrange,
    restores_jsons.required hms rfl hroom hfeatures]
  exact heq

theorem StoredPost.restores : Restores StoredPost.readJson StoredPost.toJson 4 := by
  refine restores_record (by decide) (fun _ => .refl _) fun {s p} hroom hms h => ?_
  simp only [Option.bind_eq_bind, Option.bind_eq_some_iff] at h
  obtain ⟨recordType, hrecordType, text, htext, created, hcreated, langs, hlangs, reply, hreply,
    facets, hfacets, embed, hembed, heq⟩ := h
  obtain rfl := Option.some.inj heq
  simp only [Option.bind_eq_bind, Option.bind_some,
    restores_text.optional hms (.inl rfl) (Nat.zero_le _) hrecordType,
    restores_text.optional hms (.inl rfl) (Nat.zero_le _) htext,
    restores_instant.optional hms (.inl rfl) (Nat.zero_le _) hcreated,
    restores_text.defaulted_nil hms rfl (by omega) hlangs,
    ReplyRef.restores.optional hms (.inl rfl) (by omega) hreply,
    Facet.restores.listOf.optional hms (.inl rfl) hroom hfacets,
    restores_json.optional hms (.inl rfl) (Nat.zero_le _) hembed]
  exact heq

end FeedClient
