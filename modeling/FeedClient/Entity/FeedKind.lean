import FeedClient.Json.Variant
import FeedClient.Query.Value

/-!
# Kinds of feeds

A kind is given by its name or by its place in the list of kinds, and selects
the operation that serves it.
-/
namespace FeedClient

inductive FeedKind where
  /-- The home timeline of the signed-in account. -/
  | timeline
  deriving DecidableEq, Repr, Inhabited

namespace FeedKind

def all : List FeedKind := [.timeline]

def name : FeedKind → String
  | .timeline => "Timeline"

def names : List String := all.map name

def operation : FeedKind → String
  | .timeline => "app.bsky.feed.getTimeline"

def ordinal : FeedKind → Int64
  | .timeline => 0

def toValue (k : FeedKind) : Value := .enumeration "FeedType" k.name k.ordinal

/-- The kind of a name or a place, white space around it apart. -/
def ofText? (s : String) : Option FeedKind :=
  match all.find? (·.name = Text.trim s) with
  | some k => some k
  | none => (Numeral.unsigned? (Nat.pow 2 64 - 1) (Text.trim s).toList).bind (all[·]?)

def ofName? (s : String) : Option FeedKind := all.find? (·.name = s)

def readJson : Json.Reader FeedKind := Json.Reader.alternative ofName?

end FeedKind

end FeedClient
