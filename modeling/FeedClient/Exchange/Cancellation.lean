/-!
# Cancellation

A source fires all signals that were taken from it. A signal keeps what it knows
when its source is gone: it stays fired if the source was cancelled, and never
fires otherwise.
-/
namespace FeedClient

/-- The sources that were created so far. -/
structure Sources where
  /-- The number of sources created. -/
  count : Nat
  /-- The sources that can still be cancelled. -/
  live : List Nat
  fired : List Nat
  deriving DecidableEq, Repr

/-- What a waiting call looks at; without a source it never fires. -/
structure Signal where
  source : Option Nat
  deriving DecidableEq, Repr

namespace Signal

def never : Signal := ⟨none⟩

end Signal

namespace Sources

def none : Sources := ⟨0, [], []⟩

/-- A new source, and its number. -/
def create (s : Sources) : Nat × Sources :=
  (s.count, { s with count := s.count + 1, live := s.count :: s.live })

/-- Fires the signals of a source that is still there. -/
def cancel (s : Sources) (source : Nat) : Sources :=
  if source ∈ s.live then { s with fired := source :: s.fired } else s

def drop (s : Sources) (source : Nat) : Sources :=
  { s with live := s.live.filter (· ≠ source) }

def isCancelled (s : Sources) (source : Nat) : Bool := s.fired.contains source

def isFired (s : Sources) (signal : Signal) : Bool :=
  match signal.source with
  | some source => s.isCancelled source
  | .none => false

end Sources

end FeedClient
