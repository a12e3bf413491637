import FeedClient.Calendar.Pattern
import FeedClient.Json.Printer

/-!
# Literal values

What a filter compares a field with, once every captured variable is resolved.
A value has a display text, used in messages, and a parameter text, used in
requests. Values of JSON keep their objects; a JSON array becomes the text of
its items.
-/
namespace FeedClient

inductive Value where
  | null
  | bool (b : Bool)
  | int (n : Int64)
  | float (x : Binary64)
  | text (s : String)
  /-- A member of an enumeration, with its place in the declaration. -/
  | enumeration (typeName variant : String) (ordinal : Int64)
  | instant (t : Calendar.Instant)
  | object (members : List (String × Value))
  deriving Repr, Inhabited

/-- Why a filter could not be folded or translated. -/
inductive QueryError where
  | unboundVariable (name : String)
  | memberNotFound (target member : String)
  | evaluation (reason : String)
  | unsupportedPredicate (reason : String)
  | typeMismatch (reason : String)
  /-- An instant met a pattern with an unknown specifier. -/
  | invalidPattern (pattern : String)
  deriving DecidableEq, Repr

def QueryError.message : QueryError → String
  | .unboundVariable name => "Unbound variable: " ++ name
  | .memberNotFound target member => "Member '" ++ member ++ "' not found on " ++ target
  | .evaluation reason => "Evaluation failed: " ++ reason
  | .unsupportedPredicate reason => "Unsupported predicate: " ++ reason
  | .typeMismatch reason => "Type error: " ++ reason
  | .invalidPattern pattern => "Invalid timestamp pattern: " ++ pattern

namespace Value

/-- The pattern of timestamps in requests. -/
def isoPattern : String := "%Y-%m-%dT%H:%M:%SZ"

def typeName : Value → String
  | .null => "null"
  | .bool _ => "bool"
  | .int _ => "int"
  | .float _ => "float"
  | .text _ => "string"
  | .enumeration .. => "enum"
  | .instant _ => "datetime"
  | .object _ => "object"

def member? (name : String) : Value → Option Value
  | .object members => Entries.find? name members
  | _ => none

def boolText (b : Bool) : String := if b then "true" else "false"

mutual

def display : Value → String
  | .null => "null"
  | .bool b => boolText b
  | .int n => Numeral.ofInt n.toInt
  | .float x => Decimal.plain x
  | .text s => "\"" ++ s ++ "\""
  | .enumeration typeName variant _ => typeName ++ "::" ++ variant
  | .instant t => t.withOffset
  | .object members => "\x7b" ++ displayMembers members ++ "\x7d"

def displayMembers : List (String × Value) → String
  | [] => ""
  | [(name, v)] => name ++ ": " ++ display v
  | (name, v) :: rest => name ++ ": " ++ display v ++ ", " ++ displayMembers rest

end

/-- The text of a value in a request; instants are written under the pattern. -/
def parameterText (pattern : String) : Value → Except QueryError String
  | .null => .ok ""
  | .bool b => .ok (boolText b)
  | .int n => .ok (Numeral.ofInt n.toInt)
  | .float x => .ok (Decimal.plain x)
  | .text s => .ok s
  | .enumeration _ _ ordinal => .ok (Numeral.ofInt ordinal.toInt)
  | .instant t =>
    match t.format? pattern with
    | some s => .ok s
    | none => .error (.invalidPattern pattern)
  | .object members => .ok (display (.object members))

mutual

/-- Equality of values, in which no NaN equals anything. -/
def same : Value → Value → Bool
  | .null, .null => true
  | .bool a, .bool b => a == b
  | .int a, .int b => a == b
  | .float a, .float b => a.same b
  | .text a, .text b => a == b
  | .enumeration s v n, .enumeration t w m => s == t && v == w && n == m
  | .instant a, .instant b => a == b
  | .object as, .object bs => sameMembers as bs
  | _, _ => false

def sameMembers : List (String × Value) → List (String × Value) → Bool
  | [], [] => true
  | (a, v) :: as, (b, w) :: bs => a == b && same v w && sameMembers as bs
  | _, _ => false

end

def ofInt32 (n : Int32) : Value := .int n.toInt64

def ofUInt32 (n : UInt32) : Value := .int (Int64.ofNat n.toNat)

/-- An unsigned number too large for a signed one is kept as its numeral. -/
def ofUInt64 (n : UInt64) : Value :=
  if n.toNat < Nat.pow 2 63 then .int (Int64.ofNat n.toNat) else .text (Numeral.ofNat n.toNat)

def ofOption {α : Type} (convert : α → Value) : Option α → Value
  | none => .null
  | some a => convert a

/-- A whole number of JSON, or a floating-point number where it does not fit a signed one. -/
def ofInteger (n : Int) : Value :=
  if -(Nat.pow 2 63) ≤ n ∧ n < Nat.pow 2 63 then .int (Int64.ofInt n)
  else .float (Binary64.ofDecimal (n < 0) n.natAbs 0)

mutual

def ofJson : Json → Value
  | .null => .null
  | .bool b => .bool b
  | .integer n => ofInteger n
  | .float x => .float x
  | .text s => .text s
  | .array items => .text (String.ofList (Json.itemChars items))
  | .object members => .object (ofMembers members)

def ofMembers : List (String × Json) → List (String × Value)
  | [] => []
  | (name, j) :: rest => (name, ofJson j) :: ofMembers rest

end

end Value

end FeedClient
