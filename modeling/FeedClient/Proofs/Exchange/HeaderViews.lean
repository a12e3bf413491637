import FeedClient.Exchange.Headers
import FeedClient.Proofs.Text.EntryOrder
import FeedClient.Text.Utf8
import Mathlib.Data.List.ReduceOption

/-!
# Two views of the headers of a response

What is kept of a response has its readable headers under their names, and the
numbers of a few of them. Of a name that comes more than once the map has the last
readable value, while the number is that of the first value, readable or not. So the
views agree on a name whose values are all the same, and on others by chance.
-/
namespace FeedClient

namespace Header

/-- The values under a name as texts, in the order of the headers, without a text where a value is
unreadable. -/
def textsUnder (headers : List Header) (name : String) : List (Option String) :=
  (headers.filter (hasName name)).map text?

theorem firstHeader?_text (headers : List Header) (name : String) :
    (firstHeader? headers name).bind text? = (textsUnder headers name).head?.join := by
  rw [textsUnder, List.head?_map, List.head?_filter, firstHeader?]
  cases headers.find? (hasName name) <;> rfl

/-- The map has the last readable value of every name. -/
theorem find?_readableHeaders (headers : List Header) (name : String) :
    Entries.find? name (readableHeaders headers) = (textsUnder headers name).reduceOption.getLast? := by
  have hreadable : (textsUnder headers name).reduceOption =
      (headers.filter fun h => h.name.toLower = name).filterMap text? := by
    rw [textsUnder, List.reduceOption, List.filterMap_map]
    rfl
  rw [hreadable]
  exact Entries.find?_ofPairs_filterMap (·.name.toLower) text? headers name

section Texts

variable {texts : List (Option String)}

theorem head?_join_of_reduceOption (h : texts.reduceOption = []) : texts.head?.join = none := by
  cases texts with
  | nil => rfl
  | cons text rest =>
      cases text with
      | none => rfl
      | some t =>
          rw [List.reduceOption_cons_of_some] at h
          cases h

/-- Of values that are all the same the first is the last. -/
theorem getLast?_reduceOption (h : ∀ s ∈ texts, ∀ t ∈ texts, s = t) :
    texts.reduceOption.getLast? = texts.head?.join := by
  cases texts with
  | nil => rfl
  | cons text rest =>
      have hall : text :: rest = List.replicate (rest.length + 1) text :=
        List.eq_replicate_iff.mpr ⟨rfl, fun s hs => h s hs text (List.mem_cons_self ..)⟩
      rw [hall]
      cases text with
      | none => rw [List.reduceOption_replicate_none]; rfl
      | some t =>
          have hread : id (some t) = some t := rfl
          rw [List.reduceOption, List.filterMap_replicate_of_some hread, List.getLast?_replicate]
          rfl

end Texts

/-- The number that a value stands for, white space around it apart. -/
def number? (text : String) : Option Int64 := Numeral.int64? (Text.trim text)

end Header

namespace RateLimit

/-- The numbers under the names of their headers. -/
def fields (r : RateLimit) : List (String × Option Int64) :=
  [(limitHeader, r.limit), (remainingHeader, r.remaining), (resetHeader, r.reset),
    (retryHeader, r.retryAfter)]

theorem fields_ofHeaders (headers : List Header) :
    (ofHeaders headers).fields = [limitHeader, remainingHeader, resetHeader, retryHeader].map
      fun name => (name, number? headers name) := rfl

theorem number?_eq_first (headers : List Header) (name : String) :
    number? headers name = (Header.textsUnder headers name).head?.join.bind Header.number? := by
  rw [number?, Header.firstHeader?_text]
  rfl

end RateLimit

namespace ResponseMeta

/-- Each number is that of the first value of its name, and the map has the last readable value. A name
that the map does not have has no number. The views agree on a name whose values are all the same, as on
one that comes once. -/
theorem views_of_headers (url : String) (status : Nat) (headers : List Header) :
    let kept := ofHead url status headers
    ∀ field ∈ kept.rateLimit.fields,
      let texts := Header.textsUnder headers field.1
      let recorded := Entries.find? field.1 kept.headers
      field.2 = texts.head?.join.bind Header.number? ∧ recorded = texts.reduceOption.getLast? ∧
      (recorded = none → field.2 = none) ∧
      ((∀ s ∈ texts, ∀ t ∈ texts, s = t) → field.2 = recorded.bind Header.number?) := by
  intro kept field hfield texts recorded
  have hfirst : field.2 = texts.head?.join.bind Header.number? := by
    have hmem : field ∈ (RateLimit.ofHeaders headers).fields := hfield
    rw [RateLimit.fields_ofHeaders] at hmem
    obtain ⟨name, -, rfl⟩ := List.mem_map.mp hmem
    exact RateLimit.number?_eq_first headers name
  have hlast : recorded = texts.reduceOption.getLast? := Header.find?_readableHeaders headers field.1
  refine ⟨hfirst, hlast, fun hnone => ?_, fun hsame => ?_⟩
  · rw [hlast, List.getLast?_eq_none_iff] at hnone
    rw [hfirst, Header.head?_join_of_reduceOption hnone]
    rfl
  · rw [hfirst, hlast, Header.getLast?_reduceOption hsame]

/-- A limit that comes twice, and a delay between white space, under a name in another case, behind an
unreadable value of another name. -/
theorem views_of_headers_repeated :
    let headers : List Header := [⟨"x-rate-limit-limit", Text.utf8Bytes "3000"⟩, ⟨"Server", [0xFF]⟩,
      ⟨"x-rate-limit-limit", Text.utf8Bytes "3000"⟩, ⟨"Retry-After", Text.utf8Bytes "\t+30 "⟩]
    let kept := ofHead "http://api.test/" 200 headers
    kept.rateLimit.limit = (Entries.find? "x-rate-limit-limit" kept.headers).bind Header.number? ∧
      kept.rateLimit.limit = some 3000 ∧
      kept.rateLimit.retryAfter = (Entries.find? "retry-after" kept.headers).bind Header.number? ∧
      kept.rateLimit.retryAfter = some 30 := by
  intro headers kept
  have hviews := views_of_headers "http://api.test/" 200 headers
  have hlimit : (RateLimit.limitHeader, kept.rateLimit.limit) ∈ kept.rateLimit.fields :=
    List.mem_cons_self ..
  have hretry : (RateLimit.retryHeader, kept.rateLimit.retryAfter) ∈ kept.rateLimit.fields :=
    List.mem_of_getLast? rfl
  have htwice : Header.textsUnder headers RateLimit.limitHeader = [some "3000", some "3000"] := by
    decide +kernel
  have honce : Header.textsUnder headers RateLimit.retryHeader = [some "\t+30 "] := by decide +kernel
  obtain ⟨hnumber, -, -, hagree⟩ := hviews _ hlimit
  obtain ⟨hdelay, -, -, hagreeOnce⟩ := hviews _ hretry
  rw [htwice] at hnumber hagree
  rw [honce] at hdelay hagreeOnce
  refine ⟨hagree (by decide), hnumber.trans (by decide +kernel), hagreeOnce (by decide),
    hdelay.trans (by decide +kernel)⟩

/-- Where a limit is repeated with another value the map has the last one, and the number is that of the
first. Where the first delay is unreadable the map has the second one, and there is no number. -/
theorem views_differ_of_repeated :
    let headers : List Header := [⟨"x-rate-limit-limit", Text.utf8Bytes "5"⟩,
      ⟨"x-rate-limit-limit", Text.utf8Bytes "7"⟩, ⟨"retry-after", [0xFF]⟩,
      ⟨"retry-after", Text.utf8Bytes "30"⟩]
    let kept := ofHead "http://api.test/" 200 headers
    (kept.rateLimit.limit = some 5 ∧
      (Entries.find? "x-rate-limit-limit" kept.headers).bind Header.number? = some 7) ∧
    kept.rateLimit.retryAfter = none ∧
      (Entries.find? "retry-after" kept.headers).bind Header.number? = some 30 := by
  decide +kernel

end ResponseMeta

end FeedClient
