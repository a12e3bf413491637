import FeedClient.Text.Blank
import FeedClient.Text.Entries

/-!
# Parameters

The texts that a filter gives to the fields of an entity. A field counts as
supplied only if its text is not blank.
-/
namespace FeedClient

structure Parameters where
  entries : List (String × String)
  deriving DecidableEq, Repr

namespace Parameters

def empty : Parameters := ⟨[]⟩

def insert (p : Parameters) (name value : String) : Parameters :=
  ⟨Entries.insert name value p.entries⟩

def find? (p : Parameters) (name : String) : Option String := Entries.find? name p.entries

/-- The text of a field, unless it is missing or blank. -/
def supplied? (p : Parameters) (name : String) : Option String :=
  (p.find? name).bind Text.nonblank?

def ofPairs (pairs : List (String × String)) : Parameters := ⟨Entries.ofPairs pairs⟩

end Parameters

end FeedClient
