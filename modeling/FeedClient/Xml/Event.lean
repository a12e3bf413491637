import FeedClient.Text.Blank

/-!
# Markup events

A document is read as a list of events: tags, stretches of text, and markup that
carries no content. End tags have to match the open element; elements may stay
open at the end, but no markup may. The text of a tag behind its name is kept as
written, for attributes to be looked up in it.
-/
namespace FeedClient.Xml

inductive Event where
  | opening (name attributes : List Char)
  | selfClosing (name attributes : List Char)
  | closing (name : List Char)
  | text (cs : List Char)
  /-- The content of a section in which nothing is markup. -/
  | verbatim (cs : List Char)
  /-- A comment, an instruction or a document type. -/
  | aside
  deriving DecidableEq, Repr

def isXmlSpace (c : Char) : Bool := c = ' ' || c = '\t' || c = '\n' || c = '\r'

namespace Event

/-- Up to the first `>` outside of quotation marks. -/
def tagBody? : Option Char → List Char → Option (List Char × List Char)
  | _, [] => none
  | none, c :: cs =>
    if c = '>' then some ([], cs)
    else if c = '"' ∨ c = '\'' then (tagBody? (some c) cs).map fun (b, r) => (c :: b, r)
    else (tagBody? none cs).map fun (b, r) => (c :: b, r)
  | some q, c :: cs =>
    (tagBody? (if c = q then none else some q) cs).map fun (b, r) => (c :: b, r)

/-- Up to the first `>` at which what was read before, in reverse, is complete. -/
def markupBody? (complete : List Char → Bool) : List Char → List Char → Option (List Char × List Char)
  | _, [] => none
  | seen, c :: cs =>
    if c = '>' && complete seen then some (seen.reverse, cs)
    else markupBody? complete (c :: seen) cs

def endsComment (seen : List Char) : Bool :=
  4 < seen.length && ['-', '-'].isPrefixOf seen

def endsVerbatim (seen : List Char) : Bool := [']', ']'].isPrefixOf seen

def endsInstruction (seen : List Char) : Bool := ['?'].isPrefixOf seen

/-- Angle brackets inside of a document type are balanced. -/
def endsDocumentType (seen : List Char) : Bool :=
  (seen.filter (· = '<')).length = (seen.filter (· = '>')).length

/-- The event of markup that begins with an exclamation mark. -/
def declaration? (cs : List Char) : Option (Event × List Char) :=
  match cs with
  | '!' :: '[' :: _ => do
    let (body, rest) ← markupBody? endsVerbatim [] cs
    if "![CDATA[".toList.isPrefixOf body then
      some (.verbatim ((body.drop 8).take (body.length - 10)), rest)
    else none
  | '!' :: '-' :: _ => do
    let (body, rest) ← markupBody? endsComment [] cs
    if "!--".toList.isPrefixOf body then some (.aside, rest) else none
  | '!' :: d :: _ =>
    if d = 'D' ∨ d = 'd' then do
      let (body, rest) ← markupBody? endsDocumentType [] cs
      let isNamed := (body.drop 8).any fun c => !isXmlSpace c
      if (body.take 8).map Char.toUpper = "!DOCTYPE".toList ∧ isNamed then some (.aside, rest)
      else none
    else none
  | _ => none

/-- The event of markup that begins with a question mark. -/
def instruction? (cs : List Char) : Option (Event × List Char) := do
  let (body, rest) ← markupBody? endsInstruction [] cs
  if 1 < body.length then some (.aside, rest) else none

/-- The name of an element and what stands behind it in its tag. -/
def nameAndRest (body : List Char) : List Char × List Char :=
  (body.takeWhile (!isXmlSpace ·), body.dropWhile (!isXmlSpace ·))

/-- An opening or self-closing tag. -/
def ofTag (body : List Char) : Event :=
  if body.getLast? = some '/' then
    let (name, attributes) := nameAndRest body.dropLast
    .selfClosing name attributes
  else
    let (name, attributes) := nameAndRest body
    .opening name attributes

/-- The name in an end tag: white space behind a name is not part of it. -/
def closingName (body : List Char) : List Char :=
  if body.all isXmlSpace then body else (body.reverse.dropWhile isXmlSpace).reverse

/-- The event behind a `<`. -/
def markup? (cs : List Char) : Option (Event × List Char) :=
  match cs with
  | [] => none
  | '!' :: _ => declaration? cs
  | '?' :: _ => instruction? cs
  | '/' :: more => (tagBody? none more).map fun (body, rest) => (.closing (closingName body), rest)
  | _ => (tagBody? none cs).map fun (body, rest) => (ofTag body, rest)

/-- The names of the open elements after an event; an end tag closes the innermost one. -/
def enter? (openNames : List (List Char)) : Event → Option (List (List Char))
  | .opening name _ => some (name :: openNames)
  | .closing name =>
    match openNames with
    | top :: rest => if top = name then some rest else none
    | [] => none
  | _ => some openNames

/-- The events of a text; `fuel` exceeds its length. -/
def readWithin : Nat → List (List Char) → List Char → Option (List Event)
  | 0, _, _ => none
  | fuel + 1, openNames, cs =>
    match Text.splitFirst '<' cs with
    | none => some (if cs.isEmpty then [] else [.text cs])
    | some (before, rest) => do
      let (event, rest) ← markup? rest
      let inner ← enter? openNames event
      let events ← readWithin fuel inner rest
      return if before.isEmpty then event :: events else .text before :: event :: events

/-- The events of a document, if it can be read to its end. -/
def read? (cs : List Char) : Option (List Event) := readWithin (cs.length + 1) [] cs

/-- The attributes of a tag up to a malformed one: names with their values as written. -/
def attributesWithin : Nat → List Char → List (List Char × List Char)
  | 0, _ => []
  | fuel + 1, cs =>
    let cs := cs.dropWhile isXmlSpace
    match cs with
    | [] => []
    | first :: more =>
      let key := first :: more.takeWhile fun c => c ≠ '=' && !isXmlSpace c
      match (more.dropWhile fun c => c ≠ '=' && !isXmlSpace c).dropWhile isXmlSpace with
      | '=' :: afterEq =>
        match afterEq.dropWhile isXmlSpace with
        | q :: value =>
          if q = '"' ∨ q = '\'' then
            match Text.splitFirst q value with
            | some (v, rest) => (key, v) :: attributesWithin fuel rest
            | none => []
          else []
        | [] => []
      | _ => []

/-- The value as written of the first attribute of a name. -/
def attribute? (name attributes : List Char) : Option (List Char) :=
  ((attributesWithin attributes.length attributes).find? (·.1 = name)).map (·.2)

end Event

end FeedClient.Xml
