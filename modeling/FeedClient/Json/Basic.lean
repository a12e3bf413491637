import FeedClient.Decimal.Notation
import FeedClient.Text.Entries

/-!
# JSON values

Numbers are whole numbers of 64 bits, signed or unsigned, or floating-point
numbers. The members of an object are sorted by name, each name once.
-/
namespace FeedClient

inductive Json where
  | null
  | bool (b : Bool)
  | integer (n : Int)
  | float (x : Binary64)
  | text (s : String)
  | array (items : List Json)
  | object (members : List (String × Json))
  deriving Repr, Inhabited

namespace Json

/-- An object of some members, of which the last of a name counts. -/
def ofMembers (members : List (String × Json)) : Json := .object (Entries.ofPairs members)

def member? (name : String) : Json → Option Json
  | .object members => Entries.find? name members
  | _ => none

def ofOption {α : Type} (write : α → Json) : Option α → Json
  | none => .null
  | some a => write a

def ofInt64 (n : Int64) : Json := .integer n.toInt

end Json

end FeedClient
