import FeedClient.Text.Entries
import FeedClient.Yaml.Token

/-!
# Nodes of a YAML document

The content of a document: scalars, sequences and mappings. An alias is replaced
by the node that it names; inside of that node itself it stands for an empty
sequence. A text holds one document at most, and none is an empty plain scalar.
-/
namespace FeedClient.Yaml

inductive Node where
  | scalar (style : Style) (tag : Option String) (text : String)
  | sequence (items : List Node)
  | mapping (pairs : List (Node × Node))
  deriving Repr, Inhabited

namespace Node

def empty (tag : Option String) : Node := .scalar .plain tag ""

/-- What is left to read, the named nodes, and the short forms of tags. A node that is not read to
its end has a name but no content yet. -/
structure Reading where
  tokens : List Token
  anchors : List (String × Option Node)
  handles : List (String × String)

abbrev Parser := StateT Reading Option

namespace Parser

def peek? : Parser (Option Token) := do return (← get).tokens.head?

def skip : Parser Unit := modify fun r => { r with tokens := r.tokens.tail }

def fail {α : Type} : Parser α := StateT.lift none

/-- Past a token that has to be there. -/
def expect (t : Token) : Parser Unit := do
  if (← peek?) = some t then skip else fail

/-- Past a token if it is there, and whether it was. -/
def accept (t : Token) : Parser Bool := do
  if (← peek?) = some t then
    skip
    return true
  else return false

def aliased (name : String) : Parser Node := do
  match Entries.find? name (← get).anchors with
  | some (some n) => return n
  | some none => return .sequence []
  | none => fail

def openAnchor : Option String → Parser Unit
  | none => pure ()
  | some name => modify fun r => { r with anchors := (name, none) :: r.anchors }

def closeAnchor (n : Node) : Option String → Parser Node
  | none => pure n
  | some name => do
    modify fun r => { r with anchors := (name, some n) :: r.anchors }
    return n

def verbatim (handle rest : String) : Parser String := do
  if handle = "" then return rest
  else match Entries.find? handle (← get).handles with
    | some expansion => return expansion ++ rest
    | none => fail

/-- The anchor and the tag before a node, in either order. -/
def properties : Parser (Option String × Option String) := do
  match ← peek? with
  | some (.anchor name) =>
    skip
    match ← peek? with
    | some (.tag handle rest) =>
      skip
      return (some name, some (← verbatim handle rest))
    | _ => return (some name, none)
  | some (.tag handle rest) =>
    skip
    match ← peek? with
    | some (.anchor name) =>
      skip
      return (some name, some (← verbatim handle rest))
    | _ => return (none, some (← verbatim handle rest))
  | _ => return (none, none)

/-- Whether the next token is one of those that leave a node empty. -/
def isAt (ends : List Token) : Parser Bool := do
  match ← peek? with
  | some t => return ends.contains t
  | none => return true

mutual

/-- A node; a sequence of a mapping's value may stand in the mapping's own column. -/
def node : Nat → Bool → Bool → Parser Node
  | 0, _, _ => fail
  | fuel + 1, isBlock, isValue => do
    match ← peek? with
    | some (.alias name) =>
      skip
      aliased name
    | _ =>
      let (anchor, tag) ← properties
      openAnchor anchor
      let n ← content fuel isBlock isValue (anchor.isSome || tag.isSome) tag
      closeAnchor n anchor

def content : Nat → Bool → Bool → Bool → Option String → Parser Node
  | 0, _, _, _, _ => fail
  | fuel + 1, isBlock, isValue, hasProperties, tag => do
    match ← peek?, isBlock, isValue with
    | some .entry, _, true => return .sequence (← flushItems fuel)
    | some (.scalar style text), _, _ =>
      skip
      return .scalar style tag text
    | some .flowSequenceStart, _, _ =>
      skip
      return .sequence (← flowItems fuel true)
    | some .flowMappingStart, _, _ =>
      skip
      return .mapping (← flowPairs fuel true)
    | some .sequenceStart, true, _ =>
      skip
      return .sequence (← items fuel)
    | some .mappingStart, true, _ =>
      skip
      return .mapping (← pairs fuel)
    | _, _, _ => if hasProperties then return empty tag else fail

/-- A node, or an empty one before the given tokens. -/
def nodeUnless : Nat → List Token → Bool → Bool → Parser Node
  | 0, _, _, _ => fail
  | fuel + 1, ends, isBlock, isValue => do
    if ← isAt ends then return empty none else node fuel isBlock isValue

/-- The items of a block sequence and its end. -/
def items : Nat → Parser (List Node)
  | 0 => fail
  | fuel + 1 => do
    if ← accept .entry then
      let n ← nodeUnless fuel [.entry, .blockEnd] true false
      return n :: (← items fuel)
    else
      expect .blockEnd
      return []

/-- The items of a sequence in the column of its mapping. -/
def flushItems : Nat → Parser (List Node)
  | 0 => fail
  | fuel + 1 => do
    if ← accept .entry then
      let n ← nodeUnless fuel [.entry, .key, .value, .blockEnd] true false
      return n :: (← flushItems fuel)
    else return []

/-- The pairs of a block mapping and its end. -/
def pairs : Nat → Parser (List (Node × Node))
  | 0 => fail
  | fuel + 1 => do
    match ← peek? with
    | some .blockEnd =>
      skip
      return []
    | some .key =>
      skip
      let k ← nodeUnless fuel [.key, .value, .blockEnd] true true
      let v ← value fuel [.key, .value, .blockEnd] true
      return (k, v) :: (← pairs fuel)
    | _ => fail

/-- The value behind a colon, or an empty one. -/
def value : Nat → List Token → Bool → Parser Node
  | 0, _, _ => fail
  | fuel + 1, ends, isBlock => do
    if ← accept .value then nodeUnless fuel ends isBlock isBlock else return empty none

/-- The items of a flow sequence and its end; an item may be a single pair. -/
def flowItems : Nat → Bool → Parser (List Node)
  | 0, _ => fail
  | fuel + 1, isFirst => do
    if ← accept .flowSequenceEnd then return []
    if !isFirst then expect .comma
    if ← accept .flowSequenceEnd then return []
    if ← accept .key then
      let k ← nodeUnless fuel [.value, .comma, .flowSequenceEnd] false false
      let v ← value fuel [.comma, .flowSequenceEnd] false
      return .mapping [(k, v)] :: (← flowItems fuel false)
    else
      let n ← node fuel false false
      return n :: (← flowItems fuel false)

/-- The pairs of a flow mapping and its end; a key may stand without a value. -/
def flowPairs : Nat → Bool → Parser (List (Node × Node))
  | 0, _ => fail
  | fuel + 1, isFirst => do
    if ← accept .flowMappingEnd then return []
    if !isFirst then expect .comma
    if ← accept .flowMappingEnd then return []
    if ← accept .key then
      let k ← nodeUnless fuel [.value, .comma, .flowMappingEnd] false false
      let v ← value fuel [.comma, .flowMappingEnd] false
      return (k, v) :: (← flowPairs fuel false)
    else
      let k ← node fuel false false
      return (k, empty none) :: (← flowPairs fuel false)

end

/-- Directives before a document: the version once, and short forms of tags. -/
def directives : Nat → Bool → Parser Bool
  | 0, _ => fail
  | fuel + 1, hasVersion => do
    match ← peek? with
    | some .version =>
      if hasVersion then fail
      else
        skip
        let _ ← directives fuel true
        return true
    | some (.tagHandle handle expansion) =>
      skip
      modify fun r => { r with handles := (handle, expansion) :: r.handles }
      let _ ← directives fuel hasVersion
      return true
    | _ => return false

def skipDocumentEnds : Nat → Parser Unit
  | 0 => pure ()
  | fuel + 1 => do
    if ← accept .documentEnd then skipDocumentEnds fuel else pure ()

/-- The only document of a text. -/
def document (fuel : Nat) : Parser Node := do
  if (← peek?).isNone then return empty none
  let hasDirectives ← directives fuel false
  let isMarked ← accept .documentStart
  if hasDirectives && !isMarked then fail
  let n ← if isMarked then
      nodeUnless fuel [.documentStart, .documentEnd] true false
    else node fuel true false
  skipDocumentEnds fuel
  if (← peek?).isNone then return n else fail

end Parser

/-- The short forms of tags that need no directive. -/
def defaultHandles : List (String × String) := [("!", "!"), ("!!", "tag:yaml.org,2002:")]

/-- The document of a text, if the text can be read. -/
def ofText? (s : String) : Option Node :=
  match Token.ofText? s with
  | none => none
  | some tokens =>
    ((Parser.document (8 * tokens.length + 8)).run ⟨tokens, [], defaultHandles⟩).map (·.1)

end Node

end FeedClient.Yaml
