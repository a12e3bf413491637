import FeedClient.Query.Value

/-!
# Operands of comparisons

An operand is a field of the queried entity, or something with a value: a
literal, a captured variable, a member of another operand, or a computation of
the caller's. A computation is known by its label and its identity; two with the
same outcome need not be the same one.
-/
namespace FeedClient

/-- A deferred value that the caller supplies. -/
structure Computation where
  label : String
  identity : Nat
  outcome : Except QueryError Value

inductive Operand where
  | field (name : String)
  | literal (v : Value)
  | variable (name : String)
  | member (target : Operand) (name : String)
  | computed (c : Computation)

namespace Operand

/-- Member after member of a captured variable. -/
def path (variableName : String) (members : List String) : Operand :=
  members.foldl .member (.variable variableName)

/-- Whether a field of the entity occurs in the operand, so that it has no value before the query. -/
def isOpen : Operand → Bool
  | .field _ => true
  | .member target _ => target.isOpen
  | .literal _ | .variable _ | .computed _ => false

def literal? : Operand → Option Value
  | .literal v => some v
  | _ => none

def field? : Operand → Option String
  | .field name => some name
  | _ => none

/-- Whether nothing in the operand is left to evaluate. -/
def isSettled (e : Operand) : Bool := e.isOpen || e.literal?.isSome

def display : Operand → String
  | .field name => "it." ++ name
  | .literal v => v.display
  | .variable name => name
  | .member target name => target.display ++ "." ++ name
  | .computed c => c.label ++ "()"

/-- Equality of operands; computations are equal if label and identity are. -/
def same : Operand → Operand → Bool
  | .field a, .field b => a == b
  | .literal a, .literal b => a.same b
  | .variable a, .variable b => a == b
  | .member s a, .member t b => s.same t && a == b
  | .computed a, .computed b => a.label == b.label && a.identity == b.identity
  | _, _ => false

end Operand

end FeedClient
