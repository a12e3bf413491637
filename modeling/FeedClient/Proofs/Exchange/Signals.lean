import FeedClient.Exchange.Cancellation
import FeedClient.Exchange.Course
import Mathlib.Data.List.Basic
import Mathlib.Data.List.Induction

/-!
# When signals fire

Sources are created, cancelled and dropped in any order. A signal fires exactly if
its own source was cancelled while it was there, whenever the signal was taken
from it and whatever happened to the source since. What a call under the signal
finds at each of its moments follows from what was done to sources before.
-/
namespace FeedClient

/-- What is done to sources, which are numbered as they are created. -/
inductive SourceStep where
  | create
  | cancel (source : Nat)
  | drop (source : Nat)
  deriving DecidableEq, Repr

namespace Sources

def step (s : Sources) : SourceStep → Sources
  | .create => s.create.2
  | .cancel source => s.cancel source
  | .drop source => s.drop source

def run (s : Sources) (steps : List SourceStep) : Sources := steps.foldl step s

/-- Only a creation counts. -/
theorem count_step (s : Sources) (x : SourceStep) :
    (s.step x).count = s.count + if x = .create then 1 else 0 := by
  cases x with
  | create => rfl
  | cancel source => rw [step, cancel]; split <;> rfl
  | drop source => rfl

/-- A source is there after a step that creates it, and until one that drops it. -/
theorem mem_live_step {s : Sources} {x : SourceStep} {source : Nat} :
    source ∈ (s.step x).live ↔
      (x = .create ∧ s.count = source) ∨ (source ∈ s.live ∧ x ≠ .drop source) := by
  cases x with
  | create => simp [step, create, eq_comm]
  | cancel other =>
      have hsame : (s.step (.cancel other)).live = s.live := by rw [step, cancel]; split <;> rfl
      simp [hsame]
  | drop other =>
      have hother : other = source ↔ source = other := eq_comm
      simp [step, drop, hother]

/-- A source fires when it is cancelled while it is there. -/
theorem mem_fired_step {s : Sources} {x : SourceStep} {source : Nat} :
    source ∈ (s.step x).fired ↔ source ∈ s.fired ∨ (x = .cancel source ∧ source ∈ s.live) := by
  cases x with
  | create => simp [step, create]
  | cancel other =>
      by_cases hother : other ∈ s.live
      · rw [step, cancel, if_pos hother, List.mem_cons, SourceStep.cancel.injEq]
        constructor
        · rintro (rfl | h)
          · exact .inr ⟨rfl, hother⟩
          · exact .inl h
        · rintro (h | ⟨rfl, -⟩)
          · exact .inr h
          · exact .inl rfl
      · rw [step, cancel, if_neg hother, SourceStep.cancel.injEq]
        refine ⟨.inl, ?_⟩
        rintro (h | ⟨rfl, h⟩)
        · exact h
        · exact absurd h hother
  | drop other => simp [step, drop]

theorem run_append (s : Sources) (xs ys : List SourceStep) : s.run (xs ++ ys) = (s.run xs).run ys :=
  List.foldl_append ..

theorem run_concat (s : Sources) (steps : List SourceStep) (x : SourceStep) :
    s.run (steps ++ [x]) = (s.run steps).step x :=
  List.foldl_concat ..

/-- The source was created and has not been dropped. -/
def IsThere (steps : List SourceStep) (source : Nat) : Prop :=
  ∃ before after, steps = before ++ .create :: after ∧ before.count .create = source ∧
    .drop source ∉ after

/-- The source was cancelled, while it was there. -/
def WasCancelled (steps : List SourceStep) (source : Nat) : Prop :=
  ∃ before after, steps = before ++ .cancel source :: after ∧ IsThere before source

section Histories

variable {steps : List SourceStep} {x y : SourceStep} {source : Nat}

/-- A step of a longer history is its last one, or a step of the history before. -/
theorem concat_eq_append_cons_iff {before after : List SourceStep} :
    steps ++ [x] = before ++ y :: after ↔
      (steps = before ∧ x = y ∧ after = []) ∨
        ∃ rest, after = rest ++ [x] ∧ steps = before ++ y :: rest := by
  constructor
  · intro h
    rcases List.eq_nil_or_concat' after with rfl | ⟨rest, z, rfl⟩
    · obtain ⟨hsteps, hx⟩ := List.append_inj' h rfl
      exact .inl ⟨hsteps, List.cons.inj hx |>.1, rfl⟩
    · have hassoc : before ++ y :: (rest ++ [z]) = (before ++ y :: rest) ++ [z] := by simp
      obtain ⟨hsteps, hx⟩ := List.append_inj' (h.trans hassoc) rfl
      obtain rfl : x = z := (List.cons.inj hx).1
      exact .inr ⟨rest, rfl, hsteps⟩
  · rintro (⟨rfl, rfl, rfl⟩ | ⟨rest, rfl, rfl⟩)
    · rfl
    · simp

theorem isThere_concat_iff :
    IsThere (steps ++ [x]) source ↔
      (x = .create ∧ steps.count .create = source) ∨ (IsThere steps source ∧ x ≠ .drop source) := by
  constructor
  · rintro ⟨before, after, h, hcount, hdrop⟩
    rcases concat_eq_append_cons_iff.mp h with ⟨rfl, rfl, rfl⟩ | ⟨rest, rfl, rfl⟩
    · exact .inl ⟨rfl, hcount⟩
    · have hrest : .drop source ∉ rest := fun hmem => hdrop (List.mem_append_left _ hmem)
      refine .inr ⟨⟨before, rest, rfl, hcount, hrest⟩, ?_⟩
      rintro rfl
      exact hdrop (by simp)
  · rintro (⟨rfl, hcount⟩ | ⟨⟨before, after, rfl, hcount, hdrop⟩, hx⟩)
    · exact ⟨steps, [], rfl, hcount, by simp⟩
    · refine ⟨before, after ++ [x], by simp, hcount, ?_⟩
      simp [hdrop, Ne.symm hx]

theorem wasCancelled_concat_iff :
    WasCancelled (steps ++ [x]) source ↔
      WasCancelled steps source ∨ (x = .cancel source ∧ IsThere steps source) := by
  constructor
  · rintro ⟨before, after, h, hthere⟩
    rcases concat_eq_append_cons_iff.mp h with ⟨rfl, rfl, rfl⟩ | ⟨rest, rfl, rfl⟩
    · exact .inr ⟨rfl, hthere⟩
    · exact .inl ⟨before, rest, rfl, hthere⟩
  · rintro (⟨before, after, rfl, hthere⟩ | ⟨rfl, hthere⟩)
    · exact ⟨before, after ++ [x], by simp, hthere⟩
    · exact ⟨steps, [], rfl, hthere⟩

/-- What is known of sources is what their history says. The induction is on the last step. -/
theorem run_none_spec (steps : List SourceStep) :
    (none.run steps).count = steps.count .create ∧
    (∀ source, source ∈ (none.run steps).live ↔ IsThere steps source) ∧
    ∀ source, source ∈ (none.run steps).fired ↔ WasCancelled steps source := by
  induction steps using List.reverseRecOn with
  | nil =>
      have hthere : ∀ source, ¬IsThere [] source := by
        rintro source ⟨before, after, h, -⟩
        cases before <;> cases h
      have hcancelled : ∀ source, ¬WasCancelled [] source := by
        rintro source ⟨before, after, h, -⟩
        cases before <;> cases h
      simp [run, none, hthere, hcancelled]
  | append_singleton steps x ih =>
      obtain ⟨hcount, hlive, hfired⟩ := ih
      rw [run_concat]
      refine ⟨?_, fun source => ?_, fun source => ?_⟩
      · rw [count_step, hcount, List.count_append, List.count_singleton]
        simp
      · rw [mem_live_step, isThere_concat_iff, hcount, hlive]
      · rw [mem_fired_step, wasCancelled_concat_iff, hfired, hlive]

end Histories

end Sources

/-- The source of the signal was cancelled, while it was there. -/
def Signal.WasFired (signal : Signal) (steps : List SourceStep) : Prop :=
  ∃ source, signal.source = some source ∧ Sources.WasCancelled steps source

namespace Sources

/-- A signal is fired if its own source was cancelled, and for no other reason. -/
theorem isFired_run_iff {signal : Signal} {steps : List SourceStep} :
    (none.run steps).isFired signal = true ↔ signal.WasFired steps := by
  obtain ⟨-, -, hfired⟩ := run_none_spec steps
  cases signal with
  | mk taken =>
      cases taken with
      | none => simp [isFired, Signal.WasFired]
      | some source => simp [isFired, isCancelled, Signal.WasFired, hfired]

end Sources

/-- What a call finds when it looks, and what was done to sources since it looked last. -/
structure Look where
  steps : List SourceStep
  arrival : Option Arrival
  late : Bool
  deriving DecidableEq, Repr

namespace Sources

/-- The moments of a call under a signal. -/
def moments (signal : Signal) : Sources → List Look → List Moment
  | _, [] => []
  | s, l :: looks =>
    ⟨(s.run l.steps).isFired signal, l.arrival, l.late⟩ :: moments signal (s.run l.steps) looks

/-- The course of a call under a signal, after what was done to sources before. -/
def course (signal : Signal) (before : List SourceStep) (looks : List Look) : Course :=
  ⟨(none.run before).isFired signal, moments signal (none.run before) looks⟩

/-- At each look the signal is fired if its source was cancelled by then. The induction is on the looks
and carries what was done before. -/
theorem moments_at (signal : Signal) (before : List SourceStep) (earlier : List Look) (l : Look)
    (later : List Look) :
    ∃ waited m rest, moments signal (none.run before) (earlier ++ l :: later) = waited ++ m :: rest ∧
      waited.length = earlier.length ∧ m.arrival = l.arrival ∧ m.late = l.late ∧
      (m.cancelled = true ↔ signal.WasFired (before ++ earlier.flatMap (·.steps) ++ l.steps)) := by
  induction earlier generalizing before with
  | nil =>
      let m : Moment := ⟨((none.run before).run l.steps).isFired signal, l.arrival, l.late⟩
      refine ⟨[], m, _, rfl, rfl, rfl, rfl, ?_⟩
      rw [List.flatMap_nil, List.append_nil, ← isFired_run_iff, run_append]
  | cons first earlier ih =>
      obtain ⟨waited, m, rest, hmoments, hlength, harrival, hlate, hfired⟩ := ih (before ++ first.steps)
      rw [run_append] at hmoments
      let n : Moment := ⟨((none.run before).run first.steps).isFired signal, first.arrival, first.late⟩
      refine ⟨n :: waited, m, rest, ?_, congrArg Nat.succ hlength, harrival, hlate, ?_⟩
      · rw [List.cons_append, moments, hmoments, List.cons_append]
      · rw [hfired, List.flatMap_cons, List.append_assoc before]

end Sources

end FeedClient
