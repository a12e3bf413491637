import FeedClient.Proofs.Entity.FeedRequests
import FeedClient.Proofs.Exchange.QueryStrings

/-!
# Spellings of the same inputs

Parameters with the same typed inputs translate to requests that differ in the page
size at most, which each request has as it was spelled. A sign or zeros in front of
it show in the address; the spelling of the kind and white space do not.
-/
namespace FeedClient

namespace FeedInputs

variable {params : Parameters} {i : FeedInputs}

/-- A page size is spelled exactly if there is one among the inputs. -/
theorem trimmed_limit (h : ofParameters params = .ok i) :
    (params.supplied? limitField).map Text.trim = i.limit.map fun _ => limitText params := by
  obtain ⟨-, -, hlimit, -⟩ := ofParameters_eq_ok_iff.mp h
  rw [limitText]
  cases hs : params.supplied? limitField with
  | none =>
      rw [hs] at hlimit
      cases hl : i.limit with
      | none => rfl
      | some n => rw [hl] at hlimit; cases hlimit
  | some text =>
      rw [hs] at hlimit
      cases hl : i.limit with
      | none => rw [hl] at hlimit; cases hlimit
      | some n => rfl

theorem queryPairs_eq_iff {t u : String} :
    i.queryPairs t = i.queryPairs u ↔ (i.limit.map fun _ => t) = i.limit.map fun _ => u := by
  cases hl : i.limit <;> simp [queryPairs, hl]

theorem isVisible_queryPairs (h : ofParameters params = .ok i) (method : Method) (endpoint : String) :
    Request.IsVisible ⟨method, endpoint, i.queryPairs (limitText params), false⟩ := by
  intro p hp
  refine ⟨?_, EntityKind.queryPairs_nonblank h p hp⟩
  have hname : p.1 = "algorithm" ∨ p.1 = "limit" ∨ p.1 = "cursor" := by
    simp only [queryPairs, List.mem_cons, List.mem_append, Option.mem_toList, Option.map_eq_some_iff] at hp
    rcases hp with rfl | ⟨_, -, rfl⟩ | ⟨_, -, rfl⟩
    · exact .inl rfl
    · exact .inr (.inl rfl)
    · exact .inr (.inr rfl)
  rcases hname with hname | hname | hname <;> rw [hname] <;> rfl

end FeedInputs

namespace EntityKind

/-- Two requests for the same inputs. Both spell them, each with its own text of the page size, a numeral
of the same number without the white space around it, and they are the same, by their addresses already, exactly if these numerals are: without a page size always,
and otherwise if it was spelled alike but for white space around it. -/
theorem requests_of_same_inputs (baseUrl : String) {params others : Parameters} {r s : Request}
    {i : FeedInputs} (hr : feed.request baseUrl params = .ok r) (hs : feed.request baseUrl others = .ok s)
    (hi : FeedInputs.ofParameters params = .ok i) (hj : FeedInputs.ofParameters others = .ok i) :
    let t := FeedInputs.limitText params
    let u := FeedInputs.limitText others
    (r = ⟨.get, baseUrl ++ "xrpc/" ++ i.kind.operation, i.queryPairs t, false⟩ ∧
      s = ⟨.get, baseUrl ++ "xrpc/" ++ i.kind.operation, i.queryPairs u, false⟩ ∧
      ∀ n, i.limit = some n →
        (params.supplied? FeedInputs.limitField).map Text.trim = some t ∧
        (others.supplied? FeedInputs.limitField).map Text.trim = some u ∧
        Numeral.uint32? t = some n ∧ Numeral.uint32? u = some n ∧
        Numeral.Denotes t.toList n.toNat ∧ Numeral.Denotes u.toList n.toNat) ∧
    (r = s ↔ (params.supplied? FeedInputs.limitField).map Text.trim =
      (others.supplied? FeedInputs.limitField).map Text.trim) ∧
    (r.url = s.url ↔ r = s) ∧ (i.limit = none → r = s) := by
  intro t u
  rw [feed_request_of_validate baseUrl (validate_of_request hr) hi] at hr
  rw [feed_request_of_validate baseUrl (validate_of_request hs) hj] at hs
  cases hr
  cases hs
  rw [FeedInputs.trimmed_limit hi, FeedInputs.trimmed_limit hj, ← FeedInputs.queryPairs_eq_iff]
  refine ⟨⟨rfl, rfl, fun n hn => ?_⟩, ⟨congrArg Request.parameters, fun h => by rw [h]⟩,
    ⟨fun h => ?_, congrArg Request.url⟩, fun hnone => ?_⟩
  · have ht := FeedInputs.uint32?_limitText hi hn
    have hu := FeedInputs.uint32?_limitText hj hn
    rw [hn, Option.map_some, Option.map_some]
    exact ⟨rfl, rfl, ht, hu, Numeral.denotes_of_uint32? ht, Numeral.denotes_of_uint32? hu⟩
  · have hpairs := (FeedInputs.isVisible_queryPairs hi _ _).parameters_eq_of_url_eq
      (FeedInputs.isVisible_queryPairs hj _ _) rfl h
    simp only at hpairs
    rw [hpairs]
  · have hpairs : i.queryPairs (FeedInputs.limitText params) =
        i.queryPairs (FeedInputs.limitText others) :=
      FeedInputs.queryPairs_eq_iff.mpr (by rw [hnone]; rfl)
    rw [hpairs]

/-- The kind by its name and by its place, and white space around every text. -/
theorem requests_of_same_inputs_respelled :
    let params := Parameters.ofPairs [("Type", "Timeline"), ("Algorithm", "abc"), ("Limit", " 25\t")]
    let others := Parameters.ofPairs [("Type", " 0"), ("Algorithm", "\tabc "), ("Limit", "25")]
    ∃ r s i, feed.request "https://bsky.social/" params = .ok r ∧
      feed.request "https://bsky.social/" others = .ok s ∧
      FeedInputs.ofParameters params = .ok i ∧ FeedInputs.ofParameters others = .ok i ∧ r = s := by
  intro params others
  let i : FeedInputs := ⟨.timeline, "abc", some 25, none⟩
  have hi : FeedInputs.ofParameters params = .ok i := rfl
  have hj : FeedInputs.ofParameters others = .ok i := rfl
  obtain ⟨r, hr⟩ : ∃ r, feed.request "https://bsky.social/" params = .ok r := ⟨_, rfl⟩
  obtain ⟨s, hs⟩ : ∃ s, feed.request "https://bsky.social/" others = .ok s := ⟨_, rfl⟩
  exact ⟨r, s, i, hr, hs, hi, hj, (requests_of_same_inputs _ hr hs hi hj).2.1.mpr rfl⟩

/-- A page size with a sign is the same input, and another request with another address. -/
theorem requests_differ_by_sign :
    let params := Parameters.ofPairs [("Type", "Timeline"), ("Algorithm", "abc"), ("Limit", "25")]
    let others := Parameters.ofPairs [("Type", "Timeline"), ("Algorithm", "abc"), ("Limit", "+25")]
    ∃ r s i, feed.request "https://bsky.social/" params = .ok r ∧
      feed.request "https://bsky.social/" others = .ok s ∧
      FeedInputs.ofParameters params = .ok i ∧ FeedInputs.ofParameters others = .ok i ∧
      r.url = "https://bsky.social/xrpc/app.bsky.feed.getTimeline?algorithm=abc&limit=25" ∧
      s.url = "https://bsky.social/xrpc/app.bsky.feed.getTimeline?algorithm=abc&limit=%2B25" ∧ r ≠ s := by
  intro params others
  let endpoint := "https://bsky.social/xrpc/app.bsky.feed.getTimeline"
  refine ⟨⟨.get, endpoint, [("algorithm", "abc"), ("limit", "25")], false⟩,
    ⟨.get, endpoint, [("algorithm", "abc"), ("limit", "+25")], false⟩,
    ⟨.timeline, "abc", some 25, none⟩, rfl, rfl, rfl, rfl, ?_, ?_, by decide⟩
  · decide +kernel
  · decide +kernel

end EntityKind

end FeedClient
