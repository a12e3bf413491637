import FeedClient.Json.Variant
import FeedClient.Query.Value

/-!
# The stored form of values

A value is stored as JSON under the name of its kind, so that reading it gives
back the same kind: the whole number 1 and the floating-point number 1 differ.
-/
namespace FeedClient.Value

open Json (Tree)

def nameOfNull : String := "Null"

/-- The value of a kind that holds no other values. -/
def ofContent? (tag : String) (room : Nat) (t : Tree) : Option Value :=
  if tag = nameOfNull then (match t with | .null => some .null | _ => none)
  else if tag = "Bool" then (Json.Reader.bool room t).map .bool
  else if tag = "Int" then (Json.Reader.int64 room t).map .int
  else if tag = "Float" then (Json.Reader.float room t).map .float
  else if tag = "String" then (Json.Reader.text room t).map .text
  else if tag = "DateTime" then (Json.Reader.instant room t).map .instant
  else if tag = "Enum" then
    Json.record ["type_name", "variant", "ordinal"] (fun s => do
      return .enumeration (← s.required "type_name" Json.Reader.text)
        (← s.required "variant" Json.Reader.text) (← s.required "ordinal" Json.Reader.int64)) room t
  else none

mutual

def ofStored? : Tree → Nat → Option Value
  | .object [(ps, .object ms)], room + 1 =>
    match Json.pieceText? ps, room with
    | some "Object", inner + 1 => (ofStoredMembers? ms inner).map fun vs => .object (Entries.ofPairs vs)
    | some tag, _ => ofContent? tag room (.object ms)
    | none, _ => none
  | .object [(ps, t)], room + 1 => (Json.pieceText? ps).bind fun tag => ofContent? tag room t
  | .text ps, _ => if Json.pieceText? ps = some nameOfNull then some .null else none
  | _, _ => none

def ofStoredMembers? : List (List Json.Piece × Tree) → Nat → Option (List (String × Value))
  | [], _ => some []
  | (ps, t) :: ms, room =>
    match Json.pieceText? ps, ofStored? t room, ofStoredMembers? ms room with
    | some name, some v, some rest => some ((name, v) :: rest)
    | _, _, _ => none

end

def readStored : Json.Reader Value := fun room t => ofStored? t room

mutual

/-- A number that is not finite is stored as `null`, and is lost. -/
def stored : Value → Json
  | .null => .text nameOfNull
  | .bool b => .object [("Bool", .bool b)]
  | .int n => .object [("Int", Json.ofInt64 n)]
  | .float x => .object [("Float", .float x)]
  | .text s => .object [("String", .text s)]
  | .enumeration typeName variant ordinal =>
    .object [("Enum", Json.ofMembers [("type_name", .text typeName), ("variant", .text variant),
      ("ordinal", Json.ofInt64 ordinal)])]
  | .instant t => .object [("DateTime", .text t.zulu)]
  | .object members => .object [("Object", .object (storedMembers members))]

def storedMembers : List (String × Value) → List (String × Json)
  | [] => []
  | (name, v) :: rest => (name, stored v) :: storedMembers rest

end

end FeedClient.Value
