import FeedClient.Exchange.Request
import FeedClient.Failure.Error
import FeedClient.Query.Parameters

/-!
# Field tables

An entity describes its fields in a table: how each is named in a filter and in
a query string, whether it is required, and which texts it accepts. Checking
goes over the table twice, first for texts that are not accepted, then for
required fields that are not supplied.
-/
namespace FeedClient

/-- Which texts a field accepts. -/
inductive Validator where
  /-- A whole number of a range that includes its ends. -/
  | range (least greatest : Int64)
  /-- One of the names, or its place among them. -/
  | oneOf (names : List String)
  deriving DecidableEq, Repr

def Validator.accepts (v : Validator) (text : String) : Bool :=
  match v with
  | .range least greatest =>
    match Numeral.signed? (Nat.pow 2 63) (Text.trim text).toList with
    | some n => least.toInt ≤ n && n ≤ greatest.toInt
    | none => false
  | .oneOf names =>
    names.contains (Text.trim text) ||
    match Numeral.unsigned? (Nat.pow 2 64 - 1) (Text.trim text).toList with
    | some n => n < names.length
    | none => false

structure FieldSpec where
  name : String
  /-- The name in the query string; a field without one only selects the endpoint. -/
  queryName : Option String
  isRequired : Bool
  validator : Option Validator
  deriving DecidableEq, Repr

namespace FieldSpec

/-- The supplied text that the field does not accept. -/
def refused? (f : FieldSpec) (params : Parameters) : Option String :=
  match f.validator, params.supplied? f.name with
  | some v, some text => if v.accepts text then none else some text
  | _, _ => none

def isMissing (f : FieldSpec) (params : Parameters) : Bool :=
  f.isRequired && (params.supplied? f.name).isNone

/-- The parameter that the field gives to a request. -/
def queryPair? (f : FieldSpec) (params : Parameters) : Option (String × String) :=
  match f.queryName, params.supplied? f.name with
  | some name, some text => some (name, Text.trim text)
  | _, _ => none

end FieldSpec

/-- An entity's table, in the order of its query string. -/
structure Descriptor where
  tag : String
  fields : List FieldSpec
  /-- The pattern for instants. -/
  pattern : String
  deriving DecidableEq, Repr

namespace Descriptor

def fieldNames (d : Descriptor) : List String := d.fields.map (·.name)

def field? (d : Descriptor) (name : String) : Option FieldSpec := d.fields.find? (·.name = name)

def firstRefused? (params : Parameters) : List FieldSpec → Option RequestError
  | [] => none
  | f :: fs =>
    match f.refused? params with
    | some text => some (.outOfRange f.name text)
    | none => firstRefused? params fs

def firstMissing? (params : Parameters) : List FieldSpec → Option RequestError
  | [] => none
  | f :: fs => if f.isMissing params then some (.missingParameter f.name) else firstMissing? params fs

/-- What is wrong with the parameters, refused texts before missing fields. -/
def fault? (d : Descriptor) (params : Parameters) : Option RequestError :=
  (firstRefused? params d.fields).orElse fun _ => firstMissing? params d.fields

def validate (d : Descriptor) (params : Parameters) : Except RequestError Unit :=
  match d.fault? params with
  | some e => .error e
  | none => .ok ()

/-- Pushes the supplied fields that have a name in the query string. -/
def appendQuery (d : Descriptor) (params : Parameters) (r : Request) : Request :=
  (d.fields.filterMap (·.queryPair? params)).foldl (fun r p => r.push p.1 p.2) r

end Descriptor

end FeedClient
