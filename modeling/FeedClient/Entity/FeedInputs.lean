import FeedClient.Entity.Descriptor
import FeedClient.Entity.FeedKind

/-!
# Feed queries

The field table of a feed, the typed inputs of a feed query, and the request
that parameters translate to. A feed is the one entity that can be queried.
-/
namespace FeedClient

structure FeedInputs where
  kind : FeedKind
  algorithm : String
  limit : Option UInt32
  cursor : Option String
  deriving DecidableEq, Repr

namespace FeedInputs

def kindField : String := "Type"

def algorithmField : String := "Algorithm"

def limitField : String := "Limit"

def cursorField : String := "Cursor"

/-- A page size as a number, if it is one of 32 bits. -/
def readLimit? (text : String) : Option UInt32 := Numeral.uint32? (Text.trim text)

/-- The typed inputs that parameters spell. -/
def ofParameters (params : Parameters) : Except RequestError FeedInputs :=
  match params.supplied? kindField with
  | none => .error (.missingParameter kindField)
  | some kindText =>
    match FeedKind.ofText? kindText with
    | none => .error (.outOfRange kindField kindText)
    | some kind =>
      match params.supplied? algorithmField with
      | none => .error (.missingParameter algorithmField)
      | some algorithm =>
        let cursor := (params.supplied? cursorField).map Text.trim
        match params.supplied? limitField with
        | none => .ok ⟨kind, Text.trim algorithm, none, cursor⟩
        | some limitText =>
          match readLimit? limitText with
          | none => .error (.outOfRange limitField limitText)
          | some limit => .ok ⟨kind, Text.trim algorithm, some limit, cursor⟩

end FeedInputs

/-- The kinds of entities that can be queried. -/
inductive EntityKind where
  | feed
  deriving DecidableEq, Repr

namespace EntityKind

def feedTable : Descriptor where
  tag := "Feed"
  fields := [
    ⟨FeedInputs.kindField, none, true, some (.oneOf FeedKind.names)⟩,
    ⟨FeedInputs.algorithmField, some "algorithm", true, none⟩,
    ⟨FeedInputs.limitField, some "limit", false, some (.range 1 100)⟩,
    ⟨FeedInputs.cursorField, some "cursor", false, none⟩]
  pattern := Value.isoPattern

def descriptor : EntityKind → Descriptor
  | .feed => feedTable

def ofTag (tag : String) : Except RequestError EntityKind :=
  if tag = feedTable.tag then .ok .feed else .error (.unsupportedEntity tag)

def tag (k : EntityKind) : String := k.descriptor.tag

/-- The request for an entity, if the table of the entity has nothing against the parameters. -/
def request (k : EntityKind) (baseUrl : String) (params : Parameters) : Except RequestError Request := do
  k.descriptor.validate params
  match k with
  | .feed =>
    let inputs ← FeedInputs.ofParameters params
    return k.descriptor.appendQuery params
      (Request.get (baseUrl ++ "xrpc/" ++ inputs.kind.operation))

end EntityKind

end FeedClient
