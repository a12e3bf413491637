import FeedClient.Xml.Entity
import FeedClient.Xml.Event

/-!
# Error elements of a document

Every outermost `error` element gives one entry: the number of its `code`
attribute, and the text of all that it holds. Only text inside of such an
element has to be readable.
-/
namespace FeedClient.Xml

structure ErrorElement where
  code : Int64
  message : List Char
  deriving DecidableEq, Repr

def errorName : List Char := ['e', 'r', 'r', 'o', 'r']

def codeName : List Char := ['c', 'o', 'd', 'e']

/-- The number of the `code` attribute, zero where there is none. -/
def codeOf (attributes : List Char) : Int64 :=
  match (Event.attribute? codeName attributes).bind unescape? with
  | some cs => (Numeral.int64? (Text.trim (String.ofList cs))).getD 0
  | none => 0

/-- Reads events outside of an error element, or inside of one at a depth below it. -/
def scanFrom : Option (ErrorElement × Nat) → List Event → Option (List ErrorElement)
  | _, [] => some []
  | none, .opening name attributes :: es =>
    scanFrom (if name = errorName then some (⟨codeOf attributes, []⟩, 0) else none) es
  | none, .selfClosing name attributes :: es =>
    if name = errorName then (scanFrom none es).map (⟨codeOf attributes, []⟩ :: ·)
    else scanFrom none es
  | none, _ :: es => scanFrom none es
  | some (e, depth), .opening .. :: es => scanFrom (some (e, depth + 1)) es
  | some (e, 0), .closing _ :: es => (scanFrom none es).map (e :: ·)
  | some (e, depth + 1), .closing _ :: es => scanFrom (some (e, depth)) es
  | some (e, depth), .text cs :: es =>
    match unescape? cs with
    | some t => scanFrom (some (⟨e.code, e.message ++ t⟩, depth)) es
    | none => none
  | some (e, depth), .verbatim cs :: es => scanFrom (some (⟨e.code, e.message ++ cs⟩, depth)) es
  | some inside, _ :: es => scanFrom (some inside) es

/-- The outermost error elements in document order. -/
def errorElements? (events : List Event) : Option (List ErrorElement) := scanFrom none events

end FeedClient.Xml
