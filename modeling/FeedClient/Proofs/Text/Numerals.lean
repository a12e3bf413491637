import FeedClient.Text.Numeral

/-!
# Numerals and their values

The readers of numerals stop at the limit of a machine word. What they accept is
nevertheless said by the unbounded value of the digits, so that two readers with
different limits agree on every numeral whose value is within both.
-/
namespace FeedClient.Numeral

/-- One or more ASCII digits. -/
def AreDigits (cs : List Char) : Prop := cs ≠ [] ∧ ∀ c ∈ cs, isDigit c

theorem magnitude?_eq_some_iff {limit n : Nat} {cs : List Char} :
    magnitude? limit cs = some n ↔ AreDigits cs ∧ n = value 0 cs ∧ n ≤ limit := by
  cases cs with
  | nil => simp [magnitude?, AreDigits]
  | cons c cs =>
      rw [magnitude?, readDigits_eq_some_iff (Nat.zero_le limit)]
      simp [AreDigits]

/-- Digits have no sign in front. -/
theorem AreDigits.head_ne {c : Char} {cs : List Char} (h : AreDigits (c :: cs)) :
    c ≠ '+' ∧ c ≠ '-' := by
  have hc : isDigit c = true := h.2 c (List.mem_cons_self ..)
  constructor
  · rintro rfl; exact absurd hc (by decide)
  · rintro rfl; exact absurd hc (by decide)

theorem unsigned?_eq_some_iff {limit n : Nat} {cs : List Char} :
    unsigned? limit cs = some n ↔
      ∃ ds, (cs = ds ∨ cs = '+' :: ds) ∧ AreDigits ds ∧ n = value 0 ds ∧ n ≤ limit := by
  unfold unsigned?
  split
  · rename_i ds
    rw [magnitude?_eq_some_iff]
    constructor
    · exact fun h => ⟨ds, .inr rfl, h⟩
    · rintro ⟨es, he | he, h⟩
      · subst he; exact absurd rfl h.1.head_ne.1
      · obtain rfl : ds = es := by simpa using he
        exact h
  · rename_i hplus
    rw [magnitude?_eq_some_iff]
    constructor
    · exact fun h => ⟨cs, .inl rfl, h⟩
    · rintro ⟨es, he | he, h⟩
      · subst he; exact h
      · exact absurd he (hplus es)

/-- Of the numerals with a sign of their own, those with a plus have the value of the digits and
those with a minus its negation. -/
theorem signed?_eq_some_iff {bound : Nat} {i : Int} {cs : List Char} :
    signed? bound cs = some i ↔
      (∃ ds, cs = '-' :: ds ∧ AreDigits ds ∧ i = -(value 0 ds : Int) ∧ value 0 ds ≤ bound) ∨
      ∃ ds, (cs = ds ∨ cs = '+' :: ds) ∧ AreDigits ds ∧ i = value 0 ds ∧ value 0 ds ≤ bound - 1 := by
  unfold signed?
  split
  · rename_i ds
    simp only [Option.map_eq_some_iff, Option.bind_eq_bind, Option.bind_eq_some_iff, Option.pure_def,
      Option.some.injEq, magnitude?_eq_some_iff]
    constructor
    · rintro ⟨_, ⟨n, ⟨hd, rfl, hle⟩, rfl⟩, rfl⟩
      exact .inl ⟨ds, rfl, hd, rfl, hle⟩
    · rintro (⟨es, he, hd, rfl, hle⟩ | ⟨es, he | he, hd, -⟩)
      · obtain rfl : ds = es := by simpa using he
        exact ⟨_, ⟨_, ⟨hd, rfl, hle⟩, rfl⟩, rfl⟩
      · subst he; exact absurd rfl hd.head_ne.2
      · simp at he
  · rename_i ds
    simp only [Option.map_eq_some_iff, Option.bind_eq_bind, Option.bind_eq_some_iff, Option.pure_def,
      Option.some.injEq, magnitude?_eq_some_iff]
    constructor
    · rintro ⟨_, ⟨n, ⟨hd, rfl, hle⟩, rfl⟩, rfl⟩
      exact .inr ⟨ds, .inr rfl, hd, rfl, hle⟩
    · rintro (⟨es, he, -⟩ | ⟨es, he | he, hd, rfl, hle⟩)
      · simp at he
      · subst he; exact absurd rfl hd.head_ne.1
      · obtain rfl : ds = es := by simpa using he
        exact ⟨_, ⟨_, ⟨hd, rfl, hle⟩, rfl⟩, rfl⟩
  · rename_i hminus hplus
    simp only [Option.map_eq_some_iff, Option.bind_eq_bind, Option.bind_eq_some_iff, Option.pure_def,
      Option.some.injEq, magnitude?_eq_some_iff]
    constructor
    · rintro ⟨_, ⟨n, ⟨hd, rfl, hle⟩, rfl⟩, rfl⟩
      exact .inr ⟨cs, .inl rfl, hd, rfl, hle⟩
    · rintro (⟨es, he, -⟩ | ⟨es, he | he, hd, rfl, hle⟩)
      · exact absurd he (hminus es)
      · subst he; exact ⟨_, ⟨_, ⟨hd, rfl, hle⟩, rfl⟩, rfl⟩
      · exact absurd he (hplus es)

/-- A reader without minus signs reads every positive numeral within its limit. Zero is left out
because it can be written with a minus sign. -/
theorem unsigned?_of_signed? {bound limit : Nat} {i : Int} {cs : List Char}
    (h : signed? bound cs = some i) (hpos : 0 < i) (hle : i ≤ limit) :
    unsigned? limit cs = some i.toNat := by
  rw [unsigned?_eq_some_iff]
  rcases signed?_eq_some_iff.mp h with ⟨ds, -, -, rfl, -⟩ | ⟨ds, hcs, hd, rfl, -⟩
  · omega
  · exact ⟨ds, hcs, hd, by omega, by omega⟩

/-- Digits behind an optional sign, and the whole number that they denote, however many they are. -/
inductive Denotes : List Char → Int → Prop where
  | plain {ds : List Char} (h : AreDigits ds) : Denotes ds (value 0 ds)
  | plus {ds : List Char} (h : AreDigits ds) : Denotes ('+' :: ds) (value 0 ds)
  | minus {ds : List Char} (h : AreDigits ds) : Denotes ('-' :: ds) (-(value 0 ds : Int))

section Readers

variable {cs : List Char}

theorem denotes_iff {i : Int} :
    Denotes cs i ↔ (∃ ds, cs = '-' :: ds ∧ AreDigits ds ∧ i = -(value 0 ds : Int)) ∨
      ∃ ds, (cs = ds ∨ cs = '+' :: ds) ∧ AreDigits ds ∧ i = value 0 ds := by
  constructor
  · rintro (h | h | h)
    · exact .inr ⟨_, .inl rfl, h, rfl⟩
    · exact .inr ⟨_, .inr rfl, h, rfl⟩
    · exact .inl ⟨_, rfl, h, rfl⟩
  · rintro (⟨ds, rfl, h, rfl⟩ | ⟨ds, rfl | rfl, h, rfl⟩)
    · exact .minus h
    · exact .plain h
    · exact .plus h

/-- A numeral denotes one number: it begins with a digit or with one of the signs. -/
theorem Denotes.unique {i j : Int} (hi : Denotes cs i) (hj : Denotes cs j) : i = j := by
  cases hi with
  | plain h =>
      cases hj with
      | plain => rfl
      | plus => exact absurd rfl h.head_ne.1
      | minus => exact absurd rfl h.head_ne.2
  | plus h =>
      cases hj with
      | plain h => exact absurd rfl h.head_ne.1
      | plus => rfl
  | minus h =>
      cases hj with
      | plain h => exact absurd rfl h.head_ne.2
      | minus => rfl

/-- A reader of signed words reads the numerals of the numbers within its bounds. -/
theorem signed?_iff_denotes {bound : Nat} (hbound : 0 < bound) {i : Int} :
    signed? bound cs = some i ↔ Denotes cs i ∧ -bound ≤ i ∧ i < bound := by
  rw [signed?_eq_some_iff, denotes_iff]
  constructor
  · rintro (⟨ds, hcs, hd, rfl, hle⟩ | ⟨ds, hcs, hd, rfl, hle⟩)
    · exact ⟨.inl ⟨ds, hcs, hd, rfl⟩, by omega, by omega⟩
    · exact ⟨.inr ⟨ds, hcs, hd, rfl⟩, by omega, by omega⟩
  · rintro ⟨⟨ds, hcs, hd, rfl⟩ | ⟨ds, hcs, hd, rfl⟩, hlow, hhigh⟩
    · exact .inl ⟨ds, hcs, hd, rfl, by omega⟩
    · exact .inr ⟨ds, hcs, hd, rfl, by omega⟩

/-- A reader of unsigned words reads the numerals up to its limit that have no minus sign. It does not
read a zero that has one. -/
theorem unsigned?_iff_denotes {limit n : Nat} :
    unsigned? limit cs = some n ↔ Denotes cs n ∧ cs.head? ≠ some '-' ∧ n ≤ limit := by
  rw [unsigned?_eq_some_iff, denotes_iff]
  constructor
  · rintro ⟨ds, hcs, hd, rfl, hle⟩
    refine ⟨.inr ⟨ds, hcs, hd, rfl⟩, ?_, hle⟩
    rcases hcs with rfl | rfl
    · intro hhead
      obtain ⟨es, rfl⟩ := List.head?_eq_some_iff.mp hhead
      exact hd.head_ne.2 rfl
    · simp
  · rintro ⟨⟨ds, rfl, -⟩ | ⟨ds, hcs, hd, hn⟩, hhead, hle⟩
    · exact absurd rfl hhead
    · exact ⟨ds, hcs, hd, by omega, hle⟩

/-- A text is read as a signed word exactly if it denotes the value of that word. -/
theorem int64?_eq_some_iff {s : String} {n : Int64} :
    int64? s = some n ↔ Denotes s.toList n.toInt := by
  have hlow : -(Nat.pow 2 63 : Int) ≤ n.toInt := n.le_toInt
  have hhigh : n.toInt < (Nat.pow 2 63 : Int) := n.toInt_lt
  rw [int64?, Option.map_eq_some_iff]
  constructor
  · rintro ⟨i, hi, rfl⟩
    obtain ⟨hdenotes, hbounds⟩ := (signed?_iff_denotes (by decide)).mp hi
    rwa [Int64.toInt_ofInt_of_le hbounds.1 hbounds.2]
  · intro h
    exact ⟨n.toInt, (signed?_iff_denotes (by decide)).mpr ⟨h, hlow, hhigh⟩, Int64.ofInt_toInt n⟩

/-- A text that is read as an unsigned word of 32 bits denotes the value of that word. -/
theorem denotes_of_uint32? {s : String} {n : UInt32} (h : uint32? s = some n) :
    Denotes s.toList n.toNat := by
  obtain ⟨m, hm, rfl⟩ := Option.map_eq_some_iff.mp h
  obtain ⟨hdenotes, -, hle⟩ := unsigned?_iff_denotes.mp hm
  have hword : m < UInt32.size := Nat.lt_of_le_of_lt hle (by decide)
  rwa [UInt32.toNat_ofNat_of_lt' hword]

end Readers

end FeedClient.Numeral
