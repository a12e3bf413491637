import FeedClient.Json.Variant
import FeedClient.Text.Percent

/-!
# Requests

An endpoint with named query parameters in the order in which the names first
came. Pushing under a name that is present replaces the value in its place.
-/
namespace FeedClient

inductive Method where
  | get
  | post
  deriving DecidableEq, Repr

def Method.text : Method → String
  | .get => "GET"
  | .post => "POST"

def Method.ofText? (s : String) : Option Method := [Method.get, .post].find? (·.text = s)

def Method.readJson : Json.Reader Method := Json.Reader.alternative Method.ofText?

structure Request where
  method : Method
  endpoint : String
  parameters : List (String × String)
  /-- Whether the answer is a sequence of messages. -/
  streaming : Bool
  deriving DecidableEq, Repr

namespace Request

def get (endpoint : String) : Request := ⟨.get, endpoint, [], false⟩

def post (endpoint : String) : Request := ⟨.post, endpoint, [], false⟩

/-- Puts a value under a name: in place, or at the end. -/
def setParameter (name value : String) : List (String × String) → List (String × String)
  | [] => [(name, value)]
  | (n, v) :: rest => if n = name then (n, value) :: rest else (n, v) :: setParameter name value rest

def push (r : Request) (name value : String) : Request :=
  { r with parameters := setParameter name value r.parameters }

def pairText (p : String × String) : String := Percent.encode p.1 ++ "=" ++ Percent.encode p.2

/-- The encoded parameters whose values are not blank. -/
def queryString (r : Request) : String :=
  String.intercalate "&" ((r.parameters.filter fun p => !Text.isBlank p.2).map pairText)

/-- The endpoint, with a question mark and the query string if there is one. -/
def url (r : Request) : String :=
  if r.queryString = "" then r.endpoint else r.endpoint ++ "?" ++ r.queryString

end Request

end FeedClient
