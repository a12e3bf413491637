import FeedClient.Decimal.Notation
import FeedClient.Proofs.Text.WrittenNumbers
import Mathlib.Data.List.TakeWhile

/-!
# Large whole numbers as floating-point numbers

From `2 ^ 63` on the floating-point numbers are multiples of `2 ^ 11`. The plain
text of one of them has zeros behind at most seventeen digits, or spells the number
to the last digit. Either way it denotes a multiple of four, so a whole number of
64 bits that is none has another text than the floating-point number next to it.
-/
namespace FeedClient

theorem Numeral.value_replicate_zero (acc k : Nat) :
    value acc (List.replicate k '0') = acc * Nat.pow 10 k := by
  induction k generalizing acc with
  | zero => exact (Nat.mul_one acc).symm
  | succ k ih =>
      have hnext : value acc ('0' :: List.replicate k '0') = value (acc * 10) (List.replicate k '0') := rfl
      rw [List.replicate_succ, hnext, ih, Nat.mul_assoc, Nat.mul_comm 10]
      rfl

namespace Binary64

theorem le_roundDiv (num den : Nat) : num / den ≤ roundDiv num den := by
  rw [roundDiv]
  split
  · exact Nat.le_refl _
  · split
    · omega
    · split <;> omega

variable {n : Nat}

theorem log2_of_large (hlow : Nat.pow 2 63 ≤ n) (hhigh : n < Nat.pow 2 64) : Nat.log2 n = 63 := by
  have hne : n ≠ 0 := by
    rintro rfl
    exact absurd hlow (by decide)
  have h := (Nat.log2_eq_iff hne).mpr ⟨hlow, hhigh⟩
  exact h

theorem unitExponent_of_large (hlow : Nat.pow 2 63 ≤ n) (hhigh : n < Nat.pow 2 64) :
    unitExponent n 1 = 11 := by
  have h63 : Nat.pow 2 63 = 9223372036854775808 := rfl
  have h52 : Nat.pow 2 52 = 4503599627370496 := rfl
  have hexponent : ((Nat.log2 n : Int) - (Nat.log2 1 : Int) - 52) = 11 := by
    rw [log2_of_large hlow hhigh]
    rfl
  have hunits : inUnits n 1 11 = (n, 2048) := Prod.ext (Nat.mul_one n) rfl
  rw [unitExponent]
  simp only [hexponent, hunits]
  rw [if_neg (by omega)]
  rfl

/-- A large whole number becomes a multiple of `2 ^ 11`. -/
theorem exists_ofDecimal_eq (hlow : Nat.pow 2 63 ≤ n) (hhigh : n < Nat.pow 2 64) :
    ∃ m e, ofDecimal false n 0 = .finite false m (11 + (e : Nat)) ∧ Nat.pow 2 52 ≤ m := by
  have h52 : Nat.pow 2 52 = 4503599627370496 := rfl
  have h53 : Nat.pow 2 53 = 9007199254740992 := rfl
  have h63 : Nat.pow 2 63 = 9223372036854775808 := rfl
  have h64 : Nat.pow 2 64 = 18446744073709551616 := rfl
  have hcount : digitCount n ≤ 20 := by
    rw [digitCount, Nat.length_toDigits_le_iff (by decide) (by decide)]
    exact Nat.lt_trans hhigh (by decide)
  have hunit := unitExponent_of_large hlow hhigh
  have hunits : inUnits n 1 11 = (n, 2048) := Prod.ext (Nat.mul_one n) rfl
  have hratio : ofDecimal false n 0 = ofRatio false n 1 := by
    have hnum : n * Nat.pow 10 (0 : Int).toNat = n := Nat.mul_one n
    have hden : Nat.pow 10 (-(0 : Int)).toNat = 1 := rfl
    rw [ofDecimal, if_neg (by omega), hnum, hden]
    simp only
    rw [if_neg (by omega), if_neg (by omega)]
  have hround : Nat.pow 2 52 ≤ roundDiv n 2048 := Nat.le_trans (by omega) (le_roundDiv n 2048)
  rw [hratio, ofRatio, if_neg (by omega)]
  simp only [hunit, hunits]
  split
  · exact ⟨_, 1, if_neg (by decide), Nat.le_refl _⟩
  · exact ⟨_, 0, if_neg (by decide), hround⟩

end Binary64

namespace Decimal

variable {tie : Tie} {m : Nat} {e exponent point : Int} {d : Magnitude}

theorem exponent_of_nearestOn (h : nearestOn tie m e exponent = some d) : d.exponent = exponent := by
  rw [nearestOn] at h
  dsimp only at h
  split at h
  · split at h
    · cases h; rfl
    · split at h
      · cases h; rfl
      · cases tie with
        | up => cases h; rfl
        | even => dsimp only at h; split at h <;> cases h <;> rfl
  · cases h; rfl
  · cases h; rfl
  · cases h

/-- A decimal that is found lies on one of the grids that are searched. -/
theorem exponent_of_searchFrom {fuel places : Nat}
    (h : searchFrom tie m e point fuel places = some d) : point - (places + fuel : Nat) < d.exponent := by
  induction fuel generalizing places with
  | zero => cases h
  | succ fuel ih =>
      rw [searchFrom] at h
      cases hnear : nearestOn tie m e (point - places) with
      | some found =>
          rw [hnear] at h
          obtain rfl : found = d := Option.some.inj h
          rw [exponent_of_nearestOn hnear]
          omega
      | none =>
          rw [hnear] at h
          have hlater := ih h
          omega

/-- A whole number is written as its digits with zeros behind them. -/
theorem positional_significant {k : Nat} (h : d.exponent = k) :
    positional d.significant.1 d.significant.2 = Nat.toDigits 10 d.digits ++ List.replicate k '0' := by
  let isZero : Char → Bool := (· = '0')
  have hkept : d.significant = (((Nat.toDigits 10 d.digits).reverse.dropWhile isZero).reverse,
      d.exponent + (Nat.toDigits 10 d.digits).length) := rfl
  rw [hkept, h]
  generalize hall : Nat.toDigits 10 d.digits = all
  have hpositive : 0 < all.length := by
    rw [← hall]
    exact List.length_pos_iff.mpr Nat.toDigits_ne_nil
  generalize hzeros : all.reverse.takeWhile isZero = zeros
  generalize hrest : all.reverse.dropWhile isZero = rest
  have hsplit : all = rest.reverse ++ zeros.reverse := by
    rw [← List.reverse_append, ← hzeros, ← hrest, List.takeWhile_append_dropWhile, List.reverse_reverse]
  have hzero : zeros.reverse = List.replicate zeros.length '0' := by
    rw [List.eq_replicate_iff]
    refine ⟨List.length_reverse, fun c hc => ?_⟩
    rw [List.mem_reverse, ← hzeros] at hc
    have hp : isZero c = true := List.mem_takeWhile_imp hc
    exact of_decide_eq_true hp
  have hlength : all.length = rest.length + zeros.length := by simp [hsplit]
  have hbehind : ((k : Int) + all.length).toNat - rest.reverse.length = zeros.length + k := by
    rw [List.length_reverse]
    omega
  rw [positional, if_neg (by omega), if_pos (by rw [List.length_reverse]; omega), hbehind,
    ← List.replicate_append_replicate, ← List.append_assoc, ← hzero, ← hsplit]

/-- The text of a whole number denotes it. -/
theorem value_positional {k : Nat} (h : d.exponent = k) :
    Numeral.value 0 (positional d.significant.1 d.significant.2) = d.digits * Nat.pow 10 k := by
  rw [positional_significant h, Numeral.value_append, Numeral.value_toDigits,
    Numeral.value_replicate_zero]

theorem lt_digitCount {n k : Nat} (hk : 0 < k) (h : Nat.pow 10 k ≤ n) : k < Binary64.digitCount n := by
  refine Nat.not_le.mp fun hle => ?_
  exact Nat.not_lt.mpr h ((Nat.length_toDigits_le_iff (by decide) hk).mp hle)

theorem le_pointPosition {n : Nat} (h : Nat.pow 10 18 ≤ n) : 19 ≤ pointPosition n 1 := by
  have hpoint (scaled : Nat) (hcount : 18 + 340 < Binary64.digitCount scaled) :
      19 ≤ (Binary64.digitCount (scaled / 1) : Int) - 340 := by
    rw [Nat.div_one]
    omega
  apply hpoint
  apply lt_digitCount (by decide)
  calc Nat.pow 10 (18 + 340) = Nat.pow 10 18 * Nat.pow 10 340 := Nat.pow_add ..
    _ ≤ n * Nat.pow 10 340 := Nat.mul_le_mul_right _ h

/-- The decimal of a large multiple of a power of two has zeros at its end, or it is exact. -/
theorem shortest_of_large {k : Nat} (h : Nat.pow 10 18 ≤ m * Nat.pow 2 k) :
    2 ≤ (shortest tie m k).exponent ∨ shortest tie m k = ⟨m * Nat.pow 2 k, 0⟩ := by
  have hratio : Binary64.ratio m k = (m * Nat.pow 2 k, 1) := by
    rw [Binary64.ratio, Int.toNat_natCast, Int.toNat_neg_natCast]
  have hpoint := le_pointPosition h
  rw [shortest, hratio]
  dsimp only
  cases hfound : searchFrom tie m k (pointPosition (m * Nat.pow 2 k) 1) 17 1 with
  | some d =>
      left
      have hgrid := exponent_of_searchFrom hfound
      rw [Option.getD_some]
      omega
  | none =>
      right
      rw [Option.getD_none, exact, if_pos (Int.natCast_nonneg k), Int.toNat_natCast]

theorem toList_plain (hm : m ≠ 0) :
    (plain (.finite false m e)).toList =
      positional (shortest .up m e).significant.1 (shortest .up m e).significant.2 := by
  rw [plain, if_neg hm]
  generalize (shortest .up m e).significant = parts
  cases parts
  exact String.toList_ofList

/-- The plain text of a large multiple of `2 ^ 11` denotes a multiple of four: the zeros at its end
account for that, or the number itself does. -/
theorem four_dvd_value_plain {k : Nat} (h : Nat.pow 10 18 ≤ m * Nat.pow 2 (11 + k)) :
    4 ∣ Numeral.value 0 (plain (.finite false m (11 + k : Nat))).toList := by
  have hm : m ≠ 0 := by
    rintro rfl
    rw [Nat.zero_mul] at h
    exact absurd h (by decide)
  rw [toList_plain hm]
  have hform : 2 ≤ (shortest .up m (11 + k : Nat)).exponent ∨ _ := shortest_of_large h
  rcases hform with hzeros | hexact
  · obtain ⟨j, hj⟩ := Int.eq_ofNat_of_zero_le (Int.le_trans (by decide) hzeros)
    have hpow : 4 ∣ Nat.pow 10 j :=
      Nat.dvd_trans (by decide : 4 ∣ Nat.pow 10 2) (Nat.pow_dvd_pow 10 (by omega))
    rw [value_positional hj]
    exact Nat.dvd_mul_left_of_dvd hpow _
  · have hpow : 4 ∣ Nat.pow 2 (11 + k) :=
      Nat.dvd_trans (by decide : 4 ∣ Nat.pow 2 11) (Nat.pow_dvd_pow 2 (Nat.le_add_right ..))
    have hwhole : (shortest .up m (11 + k : Nat)).exponent = (0 : Nat) := by rw [hexact]; rfl
    rw [value_positional hwhole, hexact]
    exact Nat.dvd_mul_right_of_dvd (Nat.dvd_mul_left_of_dvd hpow m) _

/-- A large whole number is not spelled by the floating-point number next to it, unless it is a
multiple of four. -/
theorem plain_ofDecimal_ne {n : Nat} (hlow : Nat.pow 2 63 ≤ n) (hhigh : n < Nat.pow 2 64)
    (hfour : n % 4 ≠ 0) : plain (Binary64.ofDecimal false n 0) ≠ Numeral.ofNat n := by
  intro heq
  obtain ⟨m, k, hnear, hm⟩ := Binary64.exists_ofDecimal_eq hlow hhigh
  have hlarge : Nat.pow 10 18 ≤ m * Nat.pow 2 (11 + k) := by
    calc Nat.pow 10 18 ≤ Nat.pow 2 52 * Nat.pow 2 11 := by decide
      _ ≤ m * Nat.pow 2 (11 + k) :=
        Nat.mul_le_mul hm (Nat.pow_le_pow_right (by decide) (Nat.le_add_right ..))
  have hmultiple := four_dvd_value_plain hlarge
  have hspelled : Binary64.finite false m (11 + k : Nat) = Binary64.ofDecimal false n 0 := hnear.symm
  rw [hspelled, heq, Numeral.ofNat, String.toList_ofList, Numeral.value_toDigits] at hmultiple
  exact hfour (Nat.mod_eq_zero_of_dvd hmultiple)

end Decimal

end FeedClient
