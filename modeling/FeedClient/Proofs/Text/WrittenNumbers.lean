import FeedClient.Proofs.Text.Numerals
import FeedClient.Proofs.Text.Trimming
import Mathlib.Data.List.Induction

/-!
# Numbers as they are written

The digits of a number denote it, also with zeros in front, and only zero begins
with a zero.
-/
namespace FeedClient.Numeral

theorem isDigit_eq (c : Char) : isDigit c = c.isDigit := by
  rw [isDigit, digit?, Char.isDigit, Bool.eq_iff_iff]
  split
  · rename_i h
    simp only [Option.isSome_some, true_iff, Bool.and_eq_true, decide_eq_true_eq]
    exact h
  · rename_i h
    simp only [Option.isSome_none, Bool.false_eq_true, false_iff, Bool.and_eq_true,
      decide_eq_true_eq]
    exact h

theorem isSpace_of_isDigit {c : Char} (h : isDigit c = true) : Text.isSpace c = false := by
  have hcode : 48 ≤ c.toNat ∧ c.toNat ≤ 57 := by
    rw [isDigit, digit?] at h
    split at h
    · assumption
    · cases h
  simp only [Text.isSpace, Bool.or_eq_false_iff, Bool.and_eq_false_iff, decide_eq_false_iff_not,
    beq_eq_false_iff_ne]
  omega

theorem value_append (acc : Nat) (cs ds : List Char) : value acc (cs ++ ds) = value (value acc cs) ds :=
  List.foldl_append ..

theorem value_zeros (n : Nat) (cs : List Char) : value 0 (List.replicate n '0' ++ cs) = value 0 cs := by
  induction n with
  | zero => rfl
  | succ n ih => rw [List.replicate_succ]; exact ih

theorem toNat_digitChar {n : Nat} (h : n < 10) : (Nat.digitChar n).toNat - 48 = n := by
  have hall : ∀ m < 10, (Nat.digitChar m).toNat - 48 = m := by decide
  exact hall n h

theorem value_toDigits (n : Nat) : value 0 (Nat.toDigits 10 n) = n := by
  induction n using Nat.strongRecOn with
  | ind n ih =>
      rw [Nat.toDigits_eq_if (by decide)]
      split
      · rename_i h
        simp [value, toNat_digitChar h]
      · rename_i h
        have hmod : n % 10 < 10 := Nat.mod_lt _ (by decide)
        rw [value_append, ih (n / 10) (by omega)]
        simp only [value, List.foldl_cons, List.foldl_nil, toNat_digitChar hmod]
        omega

theorem areDigits_toDigits (n : Nat) : AreDigits (Nat.toDigits 10 n) := by
  refine ⟨Nat.toDigits_ne_nil, fun c hc => ?_⟩
  rw [isDigit_eq]
  exact Nat.isDigit_of_mem_toDigits (by decide) (by decide) hc

section WholeNumbers

variable {n : Int}

theorem ofInt_natCast (n : Nat) : ofInt n = ofNat n := by
  rw [ofInt, if_neg (Int.not_lt.mpr (Int.natCast_nonneg n)), Int.natAbs_natCast, ofNat]

theorem toList_ofInt_of_neg (h : n < 0) : (ofInt n).toList = '-' :: Nat.toDigits 10 n.natAbs := by
  have hsign : "-".toList = ['-'] := rfl
  rw [ofInt, if_pos h, String.toList_append, hsign, String.toList_ofList, List.singleton_append]

theorem toList_ofInt_of_nonneg (h : 0 ≤ n) : (ofInt n).toList = Nat.toDigits 10 n.natAbs := by
  rw [ofInt, if_neg (Int.not_lt.mpr h), String.toList_ofList]

/-- What is written for a whole number within the bounds of a reader is read as that number. -/
theorem signed?_ofInt {bound : Nat} (hlow : -bound ≤ n) (hhigh : n < bound) :
    signed? bound (ofInt n).toList = some n := by
  rw [signed?_eq_some_iff]
  by_cases h : n < 0
  · left
    refine ⟨_, toList_ofInt_of_neg h, areDigits_toDigits _, ?_, ?_⟩
    · rw [value_toDigits]
      omega
    · rw [value_toDigits]
      omega
  · right
    refine ⟨_, .inl (toList_ofInt_of_nonneg (by omega)), areDigits_toDigits _, ?_, ?_⟩
    · rw [value_toDigits]
      omega
    · rw [value_toDigits]
      omega

theorem unsigned?_ofInt {limit : Nat} (hlow : 0 ≤ n) (hhigh : n ≤ limit) :
    unsigned? limit (ofInt n).toList = some n.toNat := by
  rw [unsigned?_eq_some_iff]
  refine ⟨_, .inl (toList_ofInt_of_nonneg hlow), areDigits_toDigits _, ?_, by omega⟩
  rw [value_toDigits]
  omega

theorem isDigit_of_mem_ofInt {c : Char} (h : c ∈ (ofInt n).toList) : c = '-' ∨ isDigit c = true := by
  have hdigits := (areDigits_toDigits n.natAbs).2
  by_cases hn : n < 0
  · rw [toList_ofInt_of_neg hn] at h
    exact (List.mem_cons.mp h).imp_right (hdigits c)
  · rw [toList_ofInt_of_nonneg (by omega)] at h
    exact .inr (hdigits c h)

theorem isSpace_of_mem_ofInt {c : Char} (h : c ∈ (ofInt n).toList) : Text.isSpace c = false := by
  rcases isDigit_of_mem_ofInt h with rfl | hc
  · rfl
  · exact isSpace_of_isDigit hc

/-- Different numbers are written differently. -/
theorem ofInt_inj {m : Int} (h : ofInt n = ofInt m) : n = m := by
  let bound := n.natAbs + m.natAbs + 1
  have hn : signed? bound (ofInt n).toList = some n := signed?_ofInt (by omega) (by omega)
  have hm : signed? bound (ofInt m).toList = some m := signed?_ofInt (by omega) (by omega)
  rw [h] at hn
  exact Option.some.inj (hn.symm.trans hm)

@[simp] theorem trim_ofInt (n : Int) : Text.trim (ofInt n) = ofInt n :=
  Text.trim_of_notSpace fun _ => isSpace_of_mem_ofInt

theorem ofInt_ne_nil (n : Int) : (ofInt n).toList ≠ [] := by
  by_cases hn : n < 0
  · rw [toList_ofInt_of_neg hn]
    exact List.cons_ne_nil _ _
  · rw [toList_ofInt_of_nonneg (by omega)]
    exact Nat.toDigits_ne_nil

theorem isBlank_ofInt (n : Int) : Text.isBlank (ofInt n) = false := by
  obtain ⟨c, cs, hcs⟩ := List.exists_cons_of_ne_nil (ofInt_ne_nil n)
  have hc : c ∈ (ofInt n).toList := by rw [hcs]; exact List.mem_cons_self ..
  rw [Text.isBlank, hcs, List.all_cons, isSpace_of_mem_ofInt hc, Bool.false_and]

end WholeNumbers

/-- Digits that begin with a zero are that zero alone. -/
theorem toDigits_of_head_zero {n : Nat} {cs : List Char} (h : Nat.toDigits 10 n = '0' :: cs) :
    cs = [] := by
  induction n using Nat.strongRecOn generalizing cs with
  | ind n ih =>
      rw [Nat.toDigits_eq_if (by decide)] at h
      split at h
      · exact (List.cons.inj h).2.symm
      · rename_i hten
        cases hfront : Nat.toDigits 10 (n / 10) with
        | nil => exact absurd hfront Nat.toDigits_ne_nil
        | cons c front =>
            rw [hfront, List.cons_append] at h
            obtain ⟨rfl, -⟩ := List.cons.inj h
            obtain rfl := ih (n / 10) (by omega) hfront
            -- A quotient that is written as zero is zero, and then there is one digit only.
            have hzero : n / 10 = 0 := by rw [← value_toDigits (n / 10), hfront]; rfl
            omega

section Padding

theorem value_padded (width n : Nat) : value 0 (padded '0' width n) = n := by
  rw [padded, value_zeros, value_toDigits]

theorem areDigits_padded (width n : Nat) : AreDigits (padded '0' width n) := by
  obtain ⟨hne, hdigits⟩ := areDigits_toDigits n
  refine ⟨List.append_ne_nil_of_right_ne_nil _ hne, fun c hc => ?_⟩
  rcases List.mem_append.mp hc with hc | hc
  · rw [List.eq_of_mem_replicate hc]
    rfl
  · exact hdigits c hc

theorem length_padded {width n : Nat} (hwidth : 0 < width) (h : n < Nat.pow 10 width) :
    (padded '0' width n).length = width := by
  have hle := (Nat.length_toDigits_le_iff (by decide) hwidth).mpr h
  rw [padded, List.length_append, List.length_replicate]
  omega

end Padding

/-- Digits denote a number with no more of them. -/
theorem value_lt {cs : List Char} (h : ∀ c ∈ cs, isDigit c = true) : value 0 cs < Nat.pow 10 cs.length := by
  induction cs using List.reverseRecOn with
  | nil => simp [value]
  | append_singleton cs c ih =>
      have hc : isDigit c = true := h c (by simp)
      have hlt := ih fun d hd => h d (List.mem_append_left _ hd)
      have hcode : c.toNat - 48 < 10 := by
        rw [isDigit, digit?] at hc
        split at hc
        · omega
        · cases hc
      have hpow : Nat.pow 10 (cs.length + 1) = Nat.pow 10 cs.length * 10 := rfl
      rw [value_append, List.length_append, List.length_singleton, hpow]
      simp only [value, List.foldl_cons, List.foldl_nil] at hlt ⊢
      omega

end FeedClient.Numeral
