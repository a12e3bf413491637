import FeedClient.Text.Utf8
import Mathlib.Tactic.SplitIfs

/-!
# ASCII bytes in lossy text

An ASCII byte never belongs to a longer character. It ends one that is unfinished
and is a character itself, so that bytes can be decoded in parts around it.
-/
namespace FeedClient.Text

namespace Utf8

/-- After a first byte that does not stand alone, only bytes beyond ASCII go on. -/
def Expectation.BeyondAscii (e : Expectation) : Prop := 0x80 ≤ e.low

theorem start?_ascii {b : Nat} (h : b ≤ 0x7F) : start? b = some ⟨0, 0, 0, b⟩ := by
  rw [start?, if_pos h]

theorem beyondAscii_of_start? {b : Nat} {e : Expectation} (h : start? b = some e)
    (hr : e.remaining ≠ 0) : e.BeyondAscii := by
  unfold start? at h
  unfold Expectation.BeyondAscii
  split_ifs at h <;> simp only [Option.some.injEq] at h <;> subst h <;> simp_all

/-- The induction is on the bytes in front; what they leave unfinished goes on beyond ASCII only. -/
theorem decode_append_ascii {b : UInt8} (hb : b.toNat ≤ 0x7F) (bs cs : List UInt8)
    (state : Option Expectation) (hs : ∀ e, state = some e → e.BeyondAscii) :
    decode state (bs ++ b :: cs) = decode state bs ++ Char.ofNat b.toNat :: decode none cs := by
  induction bs generalizing state with
  | nil =>
      cases state with
      | none => simp [decode, start?_ascii hb]
      | some e =>
          have he : 0x80 ≤ e.low := hs e rfl
          have hout : ¬(e.low ≤ b.toNat ∧ b.toNat ≤ e.high) := by omega
          simp [decode, start?_ascii hb, hout]
  | cons a bs ih =>
      have hnone := ih none (by simp)
      have hstart : ∀ f, start? a.toNat = some f → f.remaining ≠ 0 →
          decode (some f) (bs ++ b :: cs) =
            decode (some f) bs ++ Char.ofNat b.toNat :: decode none cs := by
        intro f hf hr
        refine ih (some f) ?_
        rintro _ ⟨⟩
        exact beyondAscii_of_start? hf hr
      rw [List.cons_append]
      cases state with
      | none =>
          cases hf : start? a.toNat with
          | none => simp [decode, hf, hnone]
          | some f =>
              by_cases hr : f.remaining = 0
              · simp [decode, hf, hr, hnone]
              · simp [decode, hf, hr, hstart f hf hr]
      | some e =>
          by_cases hin : e.low ≤ a.toNat ∧ a.toNat ≤ e.high
          · by_cases hr : e.remaining ≤ 1
            · simp [decode, hin, hr, hnone]
            · have hnext := ih
                (some ⟨e.remaining - 1, 0x80, 0xBF, e.bits * 64 + (a.toNat - 0x80)⟩)
                (by rintro _ ⟨⟩; exact Nat.le_refl 0x80)
              simp [decode, hin, hr, hnext]
          · cases hf : start? a.toNat with
            | none => simp [decode, hin, hf, hnone]
            | some f =>
                by_cases hr : f.remaining = 0
                · simp [decode, hin, hf, hr, hnone]
                · simp [decode, hin, hf, hr, hstart f hf hr]

end Utf8

/-- Bytes are decoded in parts around an ASCII byte. -/
theorem ofUtf8Lossy_append_ascii {b : UInt8} (hb : b.toNat ≤ 0x7F) (bs cs : List UInt8) :
    ofUtf8Lossy (bs ++ b :: cs) = ofUtf8Lossy bs ++ Char.ofNat b.toNat :: ofUtf8Lossy cs :=
  Utf8.decode_append_ascii hb bs cs none (by simp)

end FeedClient.Text
