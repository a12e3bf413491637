import FeedClient.Query.Predicate

/-!
# Folding captured values into a filter

Folding replaces every operand that does not wait for the entity by the literal
of its value. The first operand without a value, from left to right, decides
the error.
-/
namespace FeedClient

/-- The variables that a caller has bound; binding again replaces. -/
structure Captures where
  entries : List (String × Value)

namespace Captures

def empty : Captures := ⟨[]⟩

def bind (c : Captures) (name : String) (v : Value) : Captures := ⟨Entries.insert name v c.entries⟩

def find? (c : Captures) (name : String) : Option Value := Entries.find? name c.entries

def isEmpty (c : Captures) : Bool := c.entries.isEmpty

end Captures

namespace Operand

/-- The value of an operand under captures. -/
def value (captures : Captures) : Operand → Except QueryError Value
  | .literal v => .ok v
  | .variable name =>
    match captures.find? name with
    | some v => .ok v
    | none => .error (.unboundVariable name)
  | .member target name =>
    match target.value captures with
    | .error e => .error e
    | .ok v =>
      match v.member? name with
      | some w => .ok w
      | none => .error (.memberNotFound target.display name)
  | .computed c => c.outcome
  | .field name =>
    .error (.typeMismatch ("field '" ++ name ++ "' cannot be evaluated before the query runs"))

/-- The literal of the operand's value; an open operand stays. -/
def fold (captures : Captures) (e : Operand) : Except QueryError Operand :=
  if e.isOpen then .ok e else (e.value captures).map .literal

end Operand

namespace Predicate

def fold (captures : Captures) : Predicate → Except QueryError Predicate
  | .and l r => do return .and (← l.fold captures) (← r.fold captures)
  | .or l r => do return .or (← l.fold captures) (← r.fold captures)
  | .not p => do return .not (← p.fold captures)
  | .compare l op r => do return .compare (← l.fold captures) op (← r.fold captures)

end Predicate

end FeedClient
