import FeedClient.Proofs.Exchange.HeaderViews
import FeedClient.Proofs.Text.Numerals
import FeedClient.Proofs.Text.PercentDecoding

/-!
# What is kept of a response

Of a response that begins its address and its status are kept, the last readable value
of every name among its headers, and the number in the first value of each of four names.
This says all that is kept.
-/
namespace FeedClient

namespace Header

/-- A value is readable, as the text of the same codes, if its bytes are visible ASCII, spaces and
tabs. -/
structure Says (h : Header) (text : String) : Prop where
  visible : ∀ b ∈ h.value, b.toNat = 9 ∨ 32 ≤ b.toNat ∧ b.toNat ≤ 126
  codes : text.toList.map Char.toNat = h.value.map UInt8.toNat

theorem isVisible_iff {b : UInt8} :
    isVisible b = true ↔ b.toNat = 9 ∨ 32 ≤ b.toNat ∧ b.toNat ≤ 126 := by
  simp [isVisible]

theorem map_toNat_ofNat {bytes : List UInt8} (h : ∀ b ∈ bytes, isVisible b = true) :
    (bytes.map fun b => Char.ofNat b.toNat).map Char.toNat = bytes.map UInt8.toNat := by
  rw [List.map_map]
  refine List.map_congr_left fun b hb => Percent.toNat_ofNat_ascii ?_
  have hvisible := isVisible_iff.mp (h b hb)
  omega

theorem text?_eq_some_iff {h : Header} {text : String} : h.text? = some text ↔ h.Says text := by
  unfold text?
  constructor
  · intro htext
    split at htext
    · rename_i hvisible
      have hall := List.all_eq_true.mp hvisible
      obtain rfl := Option.some.inj htext
      refine ⟨fun b hb => isVisible_iff.mp (hall b hb), ?_⟩
      rw [String.toList_ofList]
      exact map_toNat_ofNat hall
    · cases htext
  · rintro ⟨hvisible, hcodes⟩
    have hall : ∀ b ∈ h.value, isVisible b = true := fun b hb => isVisible_iff.mpr (hvisible b hb)
    have hchars : (h.value.map fun b => Char.ofNat b.toNat) = text.toList := by
      refine List.map_injective_iff.mpr (fun _ _ => Char.toNat_inj.mp) ?_
      rw [map_toNat_ofNat hall, hcodes]
    rw [if_pos (List.all_eq_true.mpr hall), hchars, String.ofList_toList]

/-- The last readable value of a name, which is given in lower case. -/
def IsLast (headers : List Header) (name text : String) : Prop :=
  ∃ before h after, headers = before ++ h :: after ∧ h.name.toLower = name ∧ h.Says text ∧
    ∀ g ∈ after, g.name.toLower = name → ∀ other, ¬g.Says other

/-- The number in the first value of a name, white space around it apart. -/
def IsFirstNumber (headers : List Header) (name : String) (n : Int64) : Prop :=
  ∃ before h after text, headers = before ++ h :: after ∧ (∀ g ∈ before, g.name.toLower ≠ name) ∧
    h.name.toLower = name ∧ h.Says text ∧ Numeral.Denotes (Text.trim text).toList n.toInt

theorem find?_readableHeaders_eq_some_iff {headers : List Header} {name text : String} :
    Entries.find? name (readableHeaders headers) = some text ↔ IsLast headers name text := by
  have hnone : ∀ g : Header, g.text? = none ↔ ∀ other, ¬g.Says other := fun g => by
    simp only [Option.eq_none_iff_forall_ne_some, ne_eq, text?_eq_some_iff]
  rw [readableHeaders, Entries.find?_ofPairs_filterMap_eq_some_iff]
  simp only [text?_eq_some_iff, hnone, IsLast]

end Header

theorem RateLimit.number?_eq_some_iff {headers : List Header} {name : String} {n : Int64} :
    number? headers name = some n ↔ Header.IsFirstNumber headers name n := by
  rw [number?, Option.bind_eq_some_iff]
  constructor
  · rintro ⟨text, htext, hn⟩
    obtain ⟨h, hfirst, hsays⟩ := Option.bind_eq_some_iff.mp htext
    obtain ⟨hname, before, after, rfl, hbefore⟩ := List.find?_eq_some_iff_append.mp hfirst
    refine ⟨before, h, after, text, rfl, fun g hg => ?_, of_decide_eq_true hname,
      Header.text?_eq_some_iff.mp hsays, Numeral.int64?_eq_some_iff.mp hn⟩
    simpa [Header.hasName] using hbefore g hg
  · rintro ⟨before, h, after, text, rfl, hbefore, hname, hsays, hn⟩
    refine ⟨text, Option.bind_eq_some_iff.mpr ⟨h, ?_, Header.text?_eq_some_iff.mpr hsays⟩,
      Numeral.int64?_eq_some_iff.mpr hn⟩
    refine List.find?_eq_some_iff_append.mpr ⟨decide_eq_true hname, before, after, rfl, fun g hg => ?_⟩
    simpa [Header.hasName] using hbefore g hg

namespace ResponseMeta

/-- All that is kept of the response to a request at an address. -/
structure Describes (m : ResponseMeta) (url : String) (status : Nat) (headers : List Header) : Prop where
  address : m.url = url
  code : m.status = status
  ordered : Entries.Ordered m.headers
  values : ∀ name text, (name, text) ∈ m.headers ↔ Header.IsLast headers name text
  limit : ∀ n, m.rateLimit.limit = some n ↔ Header.IsFirstNumber headers "x-rate-limit-limit" n
  remaining : ∀ n,
    m.rateLimit.remaining = some n ↔ Header.IsFirstNumber headers "x-rate-limit-remaining" n
  reset : ∀ n, m.rateLimit.reset = some n ↔ Header.IsFirstNumber headers "x-rate-limit-reset" n
  retryAfter : ∀ n, m.rateLimit.retryAfter = some n ↔ Header.IsFirstNumber headers "retry-after" n

variable {url : String} {status : Nat} {headers : List Header}

theorem describes_ofHead (url : String) (status : Nat) (headers : List Header) :
    (ofHead url status headers).Describes url status headers where
  address := rfl
  code := rfl
  ordered := Entries.ordered_ofPairs _
  values _ _ := (Entries.ordered_ofPairs _).mem_iff.trans Header.find?_readableHeaders_eq_some_iff
  limit _ := RateLimit.number?_eq_some_iff
  remaining _ := RateLimit.number?_eq_some_iff
  reset _ := RateLimit.number?_eq_some_iff
  retryAfter _ := RateLimit.number?_eq_some_iff

/-- A response is described in one way only. -/
theorem Describes.unique {m k : ResponseMeta} (hm : m.Describes url status headers)
    (hk : k.Describes url status headers) : m = k := by
  obtain ⟨_, _, mheaders, ⟨_, _, _, _⟩⟩ := m
  obtain ⟨_, _, kheaders, ⟨_, _, _, _⟩⟩ := k
  have hheaders : mheaders = kheaders :=
    hm.ordered.ext hk.ordered fun ⟨name, text⟩ => (hm.values name text).trans (hk.values name text).symm
  have hlimit := Option.ext fun n => (hm.limit n).trans (hk.limit n).symm
  have hremaining := Option.ext fun n => (hm.remaining n).trans (hk.remaining n).symm
  have hreset := Option.ext fun n => (hm.reset n).trans (hk.reset n).symm
  have hretry := Option.ext fun n => (hm.retryAfter n).trans (hk.retryAfter n).symm
  have hurl := hm.address.trans hk.address.symm
  have hstatus := hm.code.trans hk.code.symm
  simp only at hlimit hremaining hreset hretry hurl hstatus
  rw [hurl, hstatus, hheaders, hlimit, hremaining, hreset, hretry]

theorem describes_iff {m : ResponseMeta} :
    m.Describes url status headers ↔ m = ofHead url status headers :=
  ⟨fun h => h.unique (describes_ofHead ..), fun h => h ▸ describes_ofHead ..⟩

end ResponseMeta

end FeedClient
