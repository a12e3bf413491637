import FeedClient.Query.Operand

/-!
# Filters

A predicate is a tree of comparisons under conjunction, disjunction and
negation. Any tree can be built and displayed; which ones translate into a
request is a matter of extraction.
-/
namespace FeedClient

inductive Comparison where
  | eq
  | ne
  | gt
  | ge
  | lt
  | le
  deriving DecidableEq, Repr

def Comparison.symbol : Comparison → String
  | .eq => "=="
  | .ne => "!="
  | .gt => ">"
  | .ge => ">="
  | .lt => "<"
  | .le => "<="

inductive Predicate where
  | and (left right : Predicate)
  | or (left right : Predicate)
  | not (inner : Predicate)
  | compare (left : Operand) (op : Comparison) (right : Operand)

namespace Predicate

/-- A field compared with a literal. -/
def field (name : String) (op : Comparison) (v : Value) : Predicate :=
  .compare (.field name) op (.literal v)

/-- The conjunction of predicates from left to right; none for no predicate. -/
def all? : List Predicate → Option Predicate
  | [] => none
  | p :: ps => some (ps.foldl .and p)

/-- Whether every operand is a literal or waits for the entity. -/
def isSettled : Predicate → Bool
  | .and l r => l.isSettled && r.isSettled
  | .or l r => l.isSettled && r.isSettled
  | .not p => p.isSettled
  | .compare l _ r => l.isSettled && r.isSettled

/-- Conjunctions are written without parentheses. -/
def display : Predicate → String
  | .and l r => l.display ++ " && " ++ r.display
  | .or l r => "(" ++ l.display ++ " || " ++ r.display ++ ")"
  | .not p => "!(" ++ p.display ++ ")"
  | .compare l op r => l.display ++ " " ++ op.symbol ++ " " ++ r.display

def same : Predicate → Predicate → Bool
  | .and a b, .and c d => a.same c && b.same d
  | .or a b, .or c d => a.same c && b.same d
  | .not a, .not b => a.same b
  | .compare a o b, .compare c p d => a.same c && o == p && b.same d
  | _, _ => false

/-- The operands from left to right. -/
def operands : Predicate → List Operand
  | .and l r => l.operands ++ r.operands
  | .or l r => l.operands ++ r.operands
  | .not p => p.operands
  | .compare l _ r => [l, r]

/-- The parts of nested conjunctions from left to right. -/
def conjuncts : Predicate → List Predicate
  | .and l r => l.conjuncts ++ r.conjuncts
  | p => [p]

end Predicate

end FeedClient
