import FeedClient.Text.Blank
import FeedClient.Text.Entries
import FeedClient.Text.Numeral

/-!
# Response headers

The headers of a response in the order in which they came, a name possibly more
than once. A value is bytes; it reads as text only if all of them are visible
ASCII, spaces or tabs.
-/
namespace FeedClient

structure Header where
  name : String
  value : List UInt8
  deriving DecidableEq, Repr

namespace Header

def isVisible (b : UInt8) : Bool := b.toNat = 9 || (32 ≤ b.toNat && b.toNat ≤ 126)

def text? (h : Header) : Option String :=
  if h.value.all isVisible then some (String.ofList (h.value.map fun b => Char.ofNat b.toNat)) else none

/-- Names do not depend on case. -/
def hasName (name : String) (h : Header) : Bool := h.name.toLower = name

end Header

/-- The first header of a name, given in lower case. -/
def firstHeader? (headers : List Header) (name : String) : Option Header :=
  headers.find? (Header.hasName name)

/-- The readable values under their names, of which the last of a name counts. -/
def readableHeaders (headers : List Header) : List (String × String) :=
  Entries.ofPairs (headers.filterMap fun h => h.text?.map fun text => (h.name.toLower, text))

/-- What a service says about the calls that it still allows. -/
structure RateLimit where
  limit : Option Int64
  remaining : Option Int64
  /-- The second of the epoch at which counting starts again. -/
  reset : Option Int64
  /-- Seconds to wait. -/
  retryAfter : Option Int64
  deriving DecidableEq, Repr

namespace RateLimit

/-- The number in the first header of a name. -/
def number? (headers : List Header) (name : String) : Option Int64 :=
  ((firstHeader? headers name).bind Header.text?).bind fun text => Numeral.int64? (Text.trim text)

def limitHeader : String := "x-rate-limit-limit"

def remainingHeader : String := "x-rate-limit-remaining"

def resetHeader : String := "x-rate-limit-reset"

def retryHeader : String := "retry-after"

def ofHeaders (headers : List Header) : RateLimit where
  limit := number? headers limitHeader
  remaining := number? headers remainingHeader
  reset := number? headers resetHeader
  retryAfter := number? headers retryHeader

end RateLimit

/-- What is kept of a response. -/
structure ResponseMeta where
  url : String
  status : Nat
  headers : List (String × String)
  rateLimit : RateLimit
  deriving DecidableEq, Repr

def ResponseMeta.ofHead (url : String) (status : Nat) (headers : List Header) : ResponseMeta :=
  ⟨url, status, readableHeaders headers, RateLimit.ofHeaders headers⟩

end FeedClient
