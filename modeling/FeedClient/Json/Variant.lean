import FeedClient.Json.Reader

/-!
# Tagged alternatives

One of several alternatives is written as an object of one member, named after
the alternative and holding its content. An alternative without content is
written as its name alone, and also read from a member that is `null`.
-/
namespace FeedClient.Json

/-- The name of an alternative, with its content and the room that is left for it. -/
structure Variant where
  tag : String
  content : Option Tree
  room : Nat

def variant? : Nat → Tree → Option Variant
  | room + 1, .object [(ps, t)] => (pieceText? ps).map fun tag => ⟨tag, some t, room⟩
  | _, .text ps => (pieceText? ps).map fun tag => ⟨tag, none, 0⟩
  | _, _ => none

/-- Whether an alternative has no content. -/
def Variant.isPlain (v : Variant) : Bool :=
  match v.content with
  | none | some .null => true
  | _ => false

/-- A reader for alternatives without content. -/
def Reader.alternative {α : Type} (ofTag? : String → Option α) : Reader α := fun room t =>
  match variant? room t with
  | some v => if v.isPlain then ofTag? v.tag else none
  | none => none

end FeedClient.Json
