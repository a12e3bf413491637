import FeedClient.Query.Predicate
import FeedClient.Query.Parameters

/-!
# Reading parameters out of a filter

Only conjunctions of equalities between a field and a literal translate. The
first part of the tree that is something else is refused with its display, and
of several equalities for one field the last one counts.
-/
namespace FeedClient

/-- The fields whose equalities are collected, and the pattern for instants. -/
structure Extractor where
  recognized : List String
  pattern : String

namespace Extractor

/-- The field and the literal of an equality, whichever side they stand on. -/
def fieldLiteral? : Operand → Operand → Option (String × Value)
  | .field name, .literal v => some (name, v)
  | .literal v, .field name => some (name, v)
  | _, _ => none

def disjunctionReason (p : Predicate) : String := "disjunction is not supported: " ++ p.display

def negationReason (p : Predicate) : String := "negation is not supported: " ++ p.display

def operatorReason (op : Comparison) (p : Predicate) : String :=
  "operator '" ++ op.symbol ++ "' is not supported: " ++ p.display

def operandsReason (p : Predicate) : String :=
  "expected a field compared with a literal: " ++ p.display

/-- Adds the parameters of a predicate to those already collected. -/
def collect (x : Extractor) : Predicate → Parameters → Except QueryError Parameters
  | .and l r, params =>
    match x.collect l params with
    | .error e => .error e
    | .ok collected => x.collect r collected
  | .or l r, _ => .error (.unsupportedPredicate (disjunctionReason (.or l r)))
  | .not p, _ => .error (.unsupportedPredicate (negationReason (.not p)))
  | .compare l op r, params =>
    if op ≠ .eq then .error (.unsupportedPredicate (operatorReason op (.compare l op r)))
    else match fieldLiteral? l r with
      | none => .error (.unsupportedPredicate (operandsReason (.compare l op r)))
      | some (name, v) =>
        if x.recognized.contains name then
          match v.parameterText x.pattern with
          | .error e => .error e
          | .ok text => .ok (params.insert name text)
        else .ok params

def extract (x : Extractor) (p : Predicate) : Except QueryError Parameters :=
  x.collect p Parameters.empty

end Extractor

end FeedClient
