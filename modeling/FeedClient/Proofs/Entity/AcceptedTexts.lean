import FeedClient.Proofs.Entity.FeedRequests

/-!
# What validators accept

A validator reads numerals into words of 64 bits, and what does not fit a word is
refused. Its answer is nevertheless that of the unbounded value: a numeral that is
too long for a word is out of every range of words, and behind the last name of a list.
-/
namespace FeedClient

namespace Validator

variable {s : String}

theorem accepts_range_iff {least greatest : Int64} :
    (range least greatest).accepts s = true ↔
      ∃ i, Numeral.signed? (Nat.pow 2 63) (Text.trim s).toList = some i ∧
        least.toInt ≤ i ∧ i ≤ greatest.toInt := by
  unfold accepts
  cases Numeral.signed? (Nat.pow 2 63) (Text.trim s).toList <;> simp

theorem accepts_oneOf_iff {names : List String} :
    (oneOf names).accepts s = true ↔ Text.trim s ∈ names ∨
      ∃ n, Numeral.unsigned? (Nat.pow 2 64 - 1) (Text.trim s).toList = some n ∧ n < names.length := by
  unfold accepts
  cases Numeral.unsigned? (Nat.pow 2 64 - 1) (Text.trim s).toList <;> simp

/-- Validators decide by the unbounded value of a numeral, for every range of words and for every list
of names whose places are words. Numerals of one number are in the same ranges. Among the kinds of feeds
a validator accepts what is read as a kind. -/
theorem accepts_by_value (s : String) {names : List String} (h : names.length ≤ Nat.pow 2 64) :
    let cs := (Text.trim s).toList
    (∀ least greatest : Int64, (range least greatest).accepts s = true ↔
      ∃ i, Numeral.Denotes cs i ∧ least.toInt ≤ i ∧ i ≤ greatest.toInt) ∧
    (∀ i, Numeral.Denotes cs i → ∀ least greatest : Int64,
      (range least greatest).accepts s = true ↔ least.toInt ≤ i ∧ i ≤ greatest.toInt) ∧
    ((oneOf names).accepts s = true ↔ Text.trim s ∈ names ∨
      ∃ n : Nat, Numeral.Denotes cs n ∧ cs.head? ≠ some '-' ∧ n < names.length) ∧
    ((oneOf FeedKind.names).accepts s = true ↔ ∃ kind, FeedKind.ofText? s = some kind) := by
  intro cs
  have hrange : ∀ least greatest : Int64, (range least greatest).accepts s = true ↔
      ∃ i, Numeral.Denotes cs i ∧ least.toInt ≤ i ∧ i ≤ greatest.toInt := fun least greatest => by
    -- A number between two words is a word.
    have hleast : -(Nat.pow 2 63 : Int) ≤ least.toInt := least.le_toInt
    have hgreatest : greatest.toInt < (Nat.pow 2 63 : Int) := greatest.toInt_lt
    rw [accepts_range_iff]
    constructor
    · rintro ⟨i, hi, hrange⟩
      exact ⟨i, ((Numeral.signed?_iff_denotes (by decide)).mp hi).1, hrange⟩
    · rintro ⟨i, hi, hlow, hhigh⟩
      have hword : -(Nat.pow 2 63 : Int) ≤ i ∧ i < (Nat.pow 2 63 : Int) :=
        ⟨Int.le_trans hleast hlow, Int.lt_of_le_of_lt hhigh hgreatest⟩
      exact ⟨i, (Numeral.signed?_iff_denotes (by decide)).mpr ⟨hi, hword⟩, hlow, hhigh⟩
  refine ⟨hrange, fun i hi least greatest => ?_, ?_, ?_⟩
  · rw [hrange]
    constructor
    · rintro ⟨j, hj, hbounds⟩
      rwa [hi.unique hj]
    · exact fun hbounds => ⟨i, hi, hbounds⟩
  · -- A place in the list is a word.
    have hword : 0 < Nat.pow 2 64 := by decide
    rw [accepts_oneOf_iff]
    refine or_congr_right (exists_congr fun n => ?_)
    rw [Numeral.unsigned?_iff_denotes]
    constructor
    · rintro ⟨⟨hn, hhead, -⟩, hlt⟩
      exact ⟨hn, hhead, hlt⟩
    · rintro ⟨hn, hhead, hlt⟩
      exact ⟨⟨hn, hhead, by omega⟩, hlt⟩
  · rw [← FeedKind.isSome_ofText?, Option.isSome_iff_exists]

/-- A numeral with a sign, between white space, with more digits than a word has, and one whose value is
too large for a word. -/
theorem accepts_by_value_padded :
    let names := ["Old", "New", "Hot"]
    let padded := "\t+0000000000000000000000000000002 "
    let large := "100000000000000000000000000000002"
    names.length ≤ Nat.pow 2 64 ∧ (range 2 100).accepts padded = true ∧
      (oneOf names).accepts padded = true ∧ (oneOf names).accepts "-0" = false ∧
      (range 2 9223372036854775807).accepts large = false := by
  intro names padded large
  have h : names.length ≤ Nat.pow 2 64 := by decide
  have hpadded : Numeral.Denotes (Text.trim padded).toList 2 := Numeral.denotes_iff.mpr <|
    .inr ⟨"0000000000000000000000000000002".toList, .inr (by decide +kernel),
      ⟨by decide +kernel, List.all_eq_true.mp (by decide +kernel)⟩, by decide +kernel⟩
  have hlarge : Numeral.Denotes (Text.trim large).toList 100000000000000000000000000000002 :=
    Numeral.denotes_iff.mpr <| .inr ⟨large.toList, .inl (by decide +kernel),
      ⟨by decide +kernel, List.all_eq_true.mp (by decide +kernel)⟩, by decide +kernel⟩
  obtain ⟨-, hrange, hplace, -⟩ := accepts_by_value padded h
  obtain ⟨-, -, hsigned, -⟩ := accepts_by_value "-0" h
  obtain ⟨-, hbeyond, -⟩ := accepts_by_value large h
  refine ⟨h, (hrange 2 hpadded 2 100).mpr (by decide),
    hplace.mpr (.inr ⟨2, hpadded, by decide +kernel, by decide⟩), ?_, ?_⟩
  · rw [Bool.eq_false_iff, ne_eq, hsigned]
    rintro (hname | ⟨n, -, hhead, -⟩)
    · exact absurd hname (by decide +kernel)
    · exact hhead (by decide +kernel)
  · rw [Bool.eq_false_iff, ne_eq, hbeyond _ hlarge]
    decide

end Validator

end FeedClient
