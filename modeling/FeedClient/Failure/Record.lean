import FeedClient.Json.Reader
import FeedClient.Json.Printer
import FeedClient.Xml.ErrorScan

/-!
# Error records

The body of a failed response is read into one record, whatever convention it
follows: an XML document with one error element, a JSON document with a list of
errors, a problem document, the pair of an OAuth failure, or an error for a
request. A body of no known convention becomes the detail of an unhandled
record, so that reading never fails.
-/
namespace FeedClient

structure ErrorEntry where
  message : String
  request : Option String
  code : Option Int64
  parameters : Option (List (String × List String))
  deriving DecidableEq, Repr

structure ErrorRecord where
  title : Option String
  detail : Option String
  errorType : Option String
  status : Option Int64
  errors : List ErrorEntry
  deriving DecidableEq, Repr

namespace ErrorEntry

def readJson : Json.Reader ErrorEntry :=
  Json.record ["message", "request", "code", "parameters"] fun s => do
    return {
      message := ← s.required "message" Json.Reader.text
      request := ← s.optional "request" Json.Reader.text
      code := ← s.optional "code" Json.Reader.int64
      parameters := ← s.optional "parameters" (Json.Reader.entriesOf (Json.Reader.listOf Json.Reader.text)) }

def parametersJson (ps : List (String × List String)) : Json :=
  Json.ofMembers (ps.map fun (name, texts) => (name, .array (texts.map .text)))

def toJson (e : ErrorEntry) : Json :=
  Json.ofMembers [("message", .text e.message), ("request", Json.ofOption .text e.request),
    ("code", Json.ofOption Json.ofInt64 e.code),
    ("parameters", Json.ofOption parametersJson e.parameters)]

end ErrorEntry

/-- The fields that any of the JSON conventions uses. -/
structure ErrorBody where
  title : Option String
  detail : Option String
  errorType : Option String
  status : Option Int64
  errors : Option (List ErrorEntry)
  error : Option String
  description : Option String
  request : Option String
  deriving DecidableEq, Repr

namespace ErrorBody

/-- An entry of a list of errors: its own request is not among its fields. -/
def readEntry : Json.Reader ErrorEntry :=
  Json.record ["message", "code", "parameters"] fun s => do
    return {
      message := ← s.required "message" Json.Reader.text
      request := none
      code := ← s.optional "code" Json.Reader.int64
      parameters := ← s.optional "parameters" (Json.Reader.entriesOf (Json.Reader.listOf Json.Reader.text)) }

def readJson : Json.Reader ErrorBody :=
  Json.record ["title", "detail", "type", "status", "errors", "error", "error_description", "request"]
    fun s => do
      return {
        title := ← s.optional "title" Json.Reader.text
        detail := ← s.optional "detail" Json.Reader.text
        errorType := ← s.optional "type" Json.Reader.text
        status := ← s.optional "status" Json.Reader.int64
        errors := ← s.optional "errors" (Json.Reader.listOf readEntry)
        error := ← s.optional "error" Json.Reader.text
        description := ← s.optional "error_description" Json.Reader.text
        request := ← s.optional "request" Json.Reader.text }

/-- Whether the body follows the later conventions: a typed problem, or an OAuth pair. -/
def isTyped (b : ErrorBody) : Bool :=
  (b.title.isSome && b.errorType.isSome) || (b.error.isSome && b.description.isSome)

end ErrorBody

namespace ErrorRecord

def empty : ErrorRecord := ⟨none, none, none, none, []⟩

def unparsableXmlTitle : String :=
  "Unable to Parse Response - please examine Detail property"

def unhandledTitle : String := "Unhandled Error - please examine Detail property"

/-- The record of a body that follows no convention. -/
def unhandled (body : String) : ErrorRecord :=
  { empty with title := some unhandledTitle, detail := some body, errorType := some "Unhandled" }

def unparsableXml (body : String) : ErrorRecord :=
  { empty with
    title := some unparsableXmlTitle, detail := some body,
    errorType := some "XML Formatted Error" }

def isUnhandled (r : ErrorRecord) : Bool := r.title == some unhandledTitle

/-- The record of an OAuth failure; a missing description counts as an empty one. -/
def ofOAuth (b : ErrorBody) (error : String) : ErrorRecord :=
  let description := b.description.getD ""
  { title := some error, detail := some description, errorType := some "OAuth2", status := b.status,
    errors := [⟨description, some error, some 0, none⟩] }

/-- The record of a problem with a detail but no list. -/
def ofProblem (b : ErrorBody) (detail : String) : ErrorRecord :=
  { title := b.title, detail := some detail, errorType := b.errorType, status := b.status,
    errors := [⟨b.title.getD "", some detail, b.status, none⟩] }

/-- The record of a JSON body. A list of errors goes before an OAuth failure, and that before a
detail; without a type, a request goes before a list. -/
def ofBody (b : ErrorBody) (body : String) : ErrorRecord :=
  if b.isTyped then
    match b.errors, b.error, b.detail with
    | some entries, _, _ =>
      { title := b.title, detail := b.detail, errorType := b.errorType, status := b.status,
        errors := entries }
    | none, some error, _ => ofOAuth b error
    | none, none, some detail => ofProblem b detail
    | none, none, none => unhandled body
  else
    match b.request, b.error, b.errors with
    | some request, some message, _ => { empty with errors := [⟨message, some request, none, none⟩] }
    | some _, none, _ => unhandled body
    | none, _, some entries => { empty with errors := entries }
    | none, _, none => unhandled body

/-- The record of an XML body: that of its only error element. -/
def ofXml (body : String) : ErrorRecord :=
  match (Xml.Event.read? body.toList).bind Xml.errorElements? with
  | some [e] =>
    { empty with
      detail := some body,
      errors := [⟨Text.trim (String.ofList e.message), none, some e.code, none⟩] }
  | _ => unparsableXml body

def xmlOpenings : List (List Char) := ["<?xml".toList, "<!DOCTYPE".toList]

def isXml (body : String) : Bool :=
  xmlOpenings.any fun opening => opening.isPrefixOf (Text.trimStart body.toList)

/-- The record of any body. -/
def ofText (body : String) : ErrorRecord :=
  if isXml body then ofXml body
  else match Json.readText? ErrorBody.readJson body with
    | some b => ofBody b body
    | none => unhandled body

/-- One line for the failure: a detail that says something, else the first message, else the title. -/
def summary (r : ErrorRecord) : String :=
  match r.detail.bind Text.nonblank?, r.errors, r.title with
  | some detail, _, _ => detail
  | none, e :: _, _ => e.message
  | none, [], some title => title
  | none, [], none => ""

def readJson : Json.Reader ErrorRecord :=
  Json.record ["title", "detail", "type", "status", "errors"] fun s => do
    return {
      title := ← s.optional "title" Json.Reader.text
      detail := ← s.optional "detail" Json.Reader.text
      errorType := ← s.optional "type" Json.Reader.text
      status := ← s.optional "status" Json.Reader.int64
      errors := ← s.required "errors" (Json.Reader.listOf ErrorEntry.readJson) }

def toJson (r : ErrorRecord) : Json :=
  Json.ofMembers [("title", Json.ofOption .text r.title), ("detail", Json.ofOption .text r.detail),
    ("type", Json.ofOption .text r.errorType), ("status", Json.ofOption Json.ofInt64 r.status),
    ("errors", .array (r.errors.map ErrorEntry.toJson))]

end ErrorRecord

end FeedClient
