import FeedClient.Proofs.Exchange.MessageLines
import Mathlib.Tactic.MkIffOfInductiveProp

/-!
# Waiting for a response

A call waits through moments that do not end its wait, and the moment that it
comes to in this way decides what becomes of it. So a response begins, or its body
is complete, or the signal of the call ends the wait, exactly if the wait comes to
such a moment.
-/
namespace FeedClient

/-- A wait that goes on in moments of some kind comes to a moment, with others still to follow. -/
def Reaches (goesOn : Moment → Prop) (ms : List Moment) (m : Moment) (rest : List Moment) : Prop :=
  ∃ waited, ms = waited ++ m :: rest ∧ ∀ w ∈ waited, goesOn w

section Reaching

variable {goesOn : Moment → Prop} {m n : Moment} {ms rest : List Moment}

theorem not_reaches_nil : ¬Reaches goesOn [] m rest := by
  rintro ⟨waited, h, -⟩
  cases waited <;> cases h

theorem Reaches.here (m : Moment) (rest : List Moment) : Reaches goesOn (m :: rest) m rest :=
  ⟨[], rfl, List.forall_mem_nil _⟩

theorem reaches_cons_iff :
    Reaches goesOn (n :: ms) m rest ↔ (n = m ∧ ms = rest) ∨ goesOn n ∧ Reaches goesOn ms m rest := by
  constructor
  · rintro ⟨waited, h, hall⟩
    cases waited with
    | nil => exact .inl (List.cons.inj h)
    | cons w waited =>
        obtain ⟨rfl, rfl⟩ := List.cons.inj h
        obtain ⟨hw, hwaited⟩ := List.forall_mem_cons.mp hall
        exact .inr ⟨hw, waited, rfl, hwaited⟩
  · rintro (⟨rfl, rfl⟩ | ⟨hn, waited, rfl, hwaited⟩)
    · exact .here n ms
    · exact ⟨n :: waited, rfl, List.forall_mem_cons.mpr ⟨hn, hwaited⟩⟩

/-- A wait that goes on in its first moment comes to that one or to a later one. -/
theorem exists_reaches_cons_iff {P : Moment → List Moment → Prop} :
    (∃ m rest, Reaches goesOn (n :: ms) m rest ∧ P m rest) ↔
      P n ms ∨ goesOn n ∧ ∃ m rest, Reaches goesOn ms m rest ∧ P m rest := by
  constructor
  · rintro ⟨m, rest, h, hp⟩
    rcases reaches_cons_iff.mp h with ⟨rfl, rfl⟩ | ⟨hn, h⟩
    · exact .inl hp
    · exact .inr ⟨hn, m, rest, h, hp⟩
  · rintro (hp | ⟨hn, m, rest, h, hp⟩)
    · exact ⟨n, ms, .here n ms, hp⟩
    · exact ⟨m, rest, reaches_cons_iff.mpr (.inr ⟨hn, h⟩), hp⟩

end Reaching

namespace Moment

/-- A call that waits for the beginning of a response goes on to wait. -/
@[mk_iff]
structure KeepsWaiting (m : Moment) : Prop where
  uncancelled : m.cancelled = false
  arrival : m.arrival = none
  early : m.late = false

/-- A call that reads a body goes on to read. -/
@[mk_iff]
structure KeepsReading (m : Moment) : Prop where
  uncancelled : m.cancelled = false
  arrival : m.arrival = none ∨ ∃ bytes, m.arrival = some (.piece bytes)
  early : m.late = false

end Moment

/-- The response begins before anything else ends the wait for it. -/
def ResponseHead.Begins (h : ResponseHead) (ms : List Moment) : Prop :=
  ∃ m rest, Reaches Moment.KeepsWaiting ms m rest ∧ m.cancelled = false ∧
    m.arrival = some (.head h.status h.headers) ∧ rest = h.following

theorem awaitHead_eq_ok_iff {millis : UInt64} {ms : List Moment} {h : ResponseHead} :
    awaitHead millis ms = .ok h ↔ h.Begins ms := by
  unfold ResponseHead.Begins
  induction ms with
  | nil => simp [awaitHead, not_reaches_nil]
  | cons n ms ih =>
      rw [exists_reaches_cons_iff, ← ih, awaitHead, Moment.keepsWaiting_iff]
      obtain ⟨status, headers, following⟩ := h
      cases n.cancelled with
      | true => simp
      | false =>
          cases n.arrival with
          | none => cases n.late <;> simp
          | some arrival =>
              cases arrival with
              | head => simp [and_assoc]
              | piece => simp
              | ended => simp
              | broken => simp

theorem awaitHead_eq_cancelled_iff {millis : UInt64} {ms : List Moment} :
    awaitHead millis ms = .error .cancelled ↔
      ∃ m rest, Reaches Moment.KeepsWaiting ms m rest ∧ m.cancelled = true := by
  induction ms with
  | nil => simp [awaitHead, not_reaches_nil]
  | cons n ms ih =>
      rw [exists_reaches_cons_iff, ← ih, awaitHead, Moment.keepsWaiting_iff]
      cases n.cancelled with
      | true => simp
      | false =>
          cases n.arrival with
          | none => cases n.late <;> simp
          | some arrival =>
              cases arrival with
              | head => simp
              | piece => simp
              | ended => simp
              | broken => simp

theorem awaitBody_eq_ok_iff {millis : UInt64} {before bytes : List UInt8} {ms : List Moment} :
    awaitBody millis before ms = .ok bytes ↔
      ∃ m rest, Reaches Moment.KeepsReading ms m rest ∧ m.cancelled = false ∧
        m.arrival = some .ended ∧ before ++ received ms = bytes := by
  induction ms generalizing before with
  | nil => simp [awaitBody, not_reaches_nil]
  | cons n ms ih =>
      rw [exists_reaches_cons_iff, awaitBody, Moment.keepsReading_iff, received]
      cases n.cancelled with
      | true => simp
      | false =>
          cases n.arrival with
          | none => cases n.late <;> simp [ih]
          | some arrival =>
              cases arrival with
              | head => simp
              | piece => cases n.late <;> simp [ih]
              | ended => simp
              | broken => simp

theorem awaitBody_eq_cancelled_iff {millis : UInt64} {before : List UInt8} {ms : List Moment} :
    awaitBody millis before ms = .error .cancelled ↔
      ∃ m rest, Reaches Moment.KeepsReading ms m rest ∧ m.cancelled = true := by
  induction ms generalizing before with
  | nil => simp [awaitBody, not_reaches_nil]
  | cons n ms ih =>
      rw [exists_reaches_cons_iff, awaitBody, Moment.keepsReading_iff]
      cases n.cancelled with
      | true => simp
      | false =>
          cases n.arrival with
          | none => cases n.late <;> simp [ih]
          | some arrival =>
              cases arrival with
              | head => simp
              | piece => cases n.late <;> simp [ih]
              | ended => simp
              | broken => simp

/-- A wait ends in one way only. -/
theorem ResponseHead.Begins.unique {ms : List Moment} {h k : ResponseHead} (hh : h.Begins ms)
    (hk : k.Begins ms) : h = k := by
  have hbegun : awaitHead 0 ms = .ok h := awaitHead_eq_ok_iff.mpr hh
  have hother : awaitHead 0 ms = .ok k := awaitHead_eq_ok_iff.mpr hk
  exact Except.ok.inj (hbegun.symm.trans hother)

namespace ResponseHead

/-- The body is complete, as this text, before anything else ends the wait for it. -/
def Completes (h : ResponseHead) (text : String) : Prop :=
  ∃ m rest, Reaches Moment.KeepsReading h.following m rest ∧ m.cancelled = false ∧
    m.arrival = some .ended ∧ text = bodyText h.headers (received h.following)

theorem body_eq_ok_iff {h : ResponseHead} {millis : UInt64} {text : String} :
    h.body millis = .ok text ↔ h.Completes text := by
  have hmap : h.body millis = .ok text ↔
      ∃ bytes, awaitBody millis [] h.following = .ok bytes ∧ bodyText h.headers bytes = text := by
    rw [body]
    cases awaitBody millis [] h.following <;> simp [Except.map]
  rw [hmap]
  constructor
  · rintro ⟨bytes, hbytes, rfl⟩
    obtain ⟨m, rest, hm, hc, ha, rfl⟩ := awaitBody_eq_ok_iff.mp hbytes
    exact ⟨m, rest, hm, hc, ha, rfl⟩
  · rintro ⟨m, rest, hm, hc, ha, rfl⟩
    exact ⟨_, awaitBody_eq_ok_iff.mpr ⟨m, rest, hm, hc, ha, rfl⟩, rfl⟩

theorem body_eq_cancelled_iff {h : ResponseHead} {millis : UInt64} :
    h.body millis = .error .cancelled ↔
      ∃ m rest, Reaches Moment.KeepsReading h.following m rest ∧ m.cancelled = true := by
  have hbytes : h.body millis = .error .cancelled ↔
      awaitBody millis [] h.following = .error .cancelled := by
    rw [body]
    cases awaitBody millis [] h.following <;> simp [Except.map]
  exact hbytes.trans awaitBody_eq_cancelled_iff

end ResponseHead

end FeedClient
