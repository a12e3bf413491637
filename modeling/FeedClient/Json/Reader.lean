import FeedClient.Json.Number
import FeedClient.Calendar.Timestamp

/-!
# Reading values out of JSON trees

A reader takes what it needs from a tree and passes over the rest. It enters
arrays and objects only as long as there is room for the nesting. A record is
read from an object, by the names of its fields, or from an array, by their
order.
-/
namespace FeedClient.Json

/-- Reads a value, entering at most the given number of nested arrays and objects. -/
abbrev Reader (α : Type) := Nat → Tree → Option α

/-- The nesting that a stored value may have. -/
def nestingRoom : Nat := 127

mutual

/-- Any value; of the members of a name the last one counts. -/
def ofTree? : Tree → Nat → Option Json
  | .null, _ => some .null
  | .bool b, _ => some (.bool b)
  | .number l, _ => l.json?
  | .text ps, _ => (pieceText? ps).map .text
  | .array _, 0 => none
  | .array ts, room + 1 => (ofItems? ts room).map .array
  | .object _, 0 => none
  | .object ms, room + 1 => (ofPairs? ms room).map ofMembers

def ofItems? : List Tree → Nat → Option (List Json)
  | [], _ => some []
  | t :: ts, room =>
    match ofTree? t room, ofItems? ts room with
    | some j, some js => some (j :: js)
    | _, _ => none

def ofPairs? : List (List Piece × Tree) → Nat → Option (List (String × Json))
  | [], _ => some []
  | (ps, t) :: ms, room =>
    match pieceText? ps, ofTree? t room, ofPairs? ms room with
    | some name, some j, some rest => some ((name, j) :: rest)
    | _, _, _ => none

end

/-- Reads all of a text. -/
def readText? {α : Type} (read : Reader α) (s : String) : Option α :=
  (Tree.ofChars? s.toList).bind (read nestingRoom)

/-- The value that a text spells. -/
def parse? (s : String) : Option Json := readText? (fun room t => ofTree? t room) s

namespace Reader

def json : Reader Json := fun room t => ofTree? t room

def text : Reader String
  | _, .text ps => pieceText? ps
  | _, _ => none

def bool : Reader Bool
  | _, .bool b => some b
  | _, _ => none

/-- A whole number within bounds. -/
def integer (least greatest : Int) : Reader Int
  | _, .number l => l.integer?.filter fun n => least ≤ n && n ≤ greatest
  | _, _ => none

def int64 : Reader Int64 := fun room t =>
  (integer (-(Nat.pow 2 63)) (Nat.pow 2 63 - 1) room t).map Int64.ofInt

def uint64 : Reader UInt64 := fun room t =>
  (integer 0 (Nat.pow 2 64 - 1) room t).map fun n => UInt64.ofNat n.toNat

def float : Reader Binary64
  | _, .number l =>
    match l.json? with
    | some (.integer n) => some (Binary64.ofDecimal (n < 0) n.natAbs 0)
    | some (.float x) => some x
    | _ => none
  | _, _ => none

def instant : Reader Calendar.Instant := fun room t => (text room t).bind Calendar.Timestamp.read?

def listOf {α : Type} (read : Reader α) : Reader (List α)
  | room + 1, .array ts => ts.mapM (read room)
  | _, _ => none

/-- Named values; of the values of a name the last one counts. -/
def entriesOf {α : Type} (read : Reader α) : Reader (List (String × α))
  | room + 1, .object ms =>
    (ms.mapM fun (ps, t) => do return (← pieceText? ps, ← read room t)).map Entries.ofPairs
  | _, _ => none

end Reader

/-- Where the fields of a record come from. -/
inductive Form where
  | named (members : List (String × Tree))
  | listed (items : List Tree)

/-- A record as written: its field names in order, and room for what the fields hold. -/
structure Source where
  names : List String
  form : Form
  room : Nat

namespace Source

/-- What is written for a field. -/
def find? (s : Source) (name : String) : Option Tree :=
  match s.form with
  | .named members => Entries.find? name members
  | .listed items => items[s.names.idxOf name]?

def required {α : Type} (s : Source) (name : String) (read : Reader α) : Option α :=
  (s.find? name).bind (read s.room)

/-- A field that `null` leaves open, and in an object its absence too. -/
def optional {α : Type} (s : Source) (name : String) (read : Reader α) : Option (Option α) :=
  match s.find? name, s.form with
  | none, .named _ => some none
  | none, .listed _ => none
  | some .null, _ => some none
  | some t, _ => (read s.room t).map some

/-- A field that takes a default value where it is absent. -/
def defaulted {α : Type} (s : Source) (name : String) (a : α) (read : Reader α) : Option α :=
  match s.find? name with
  | none => some a
  | some t => read s.room t

/-- An optional field with a default for its absence in either form. -/
def defaultedOption {α : Type} (s : Source) (name : String) (a : Option α) (read : Reader α) :
    Option (Option α) :=
  match s.find? name with
  | none => some a
  | some .null => some none
  | some t => (read s.room t).map some

end Source

/-- The source of a record with the given fields: an object in which no field occurs twice, or an
array of no more items than fields. -/
def source? (names : List String) : Nat → Tree → Option Source
  | room + 1, .object ms => do
    let members ← ms.mapM fun (ps, t) => (pieceText? ps).map (·, t)
    if names.all fun n => (members.filter fun m => m.1 == n).length ≤ 1 then
      some ⟨names, .named members, room⟩
    else none
  | room + 1, .array ts => if ts.length ≤ names.length then some ⟨names, .listed ts, room⟩ else none
  | _, _ => none

/-- A reader for a record of named fields. -/
def record {α : Type} (names : List String) (read : Source → Option α) : Reader α := fun room t =>
  (source? names room t).bind read

end FeedClient.Json
