import FeedClient.Proofs.Decimal.LargeIntegers
import FeedClient.Proofs.Json.StoredValues
import FeedClient.Proofs.Query.MemberPaths

/-!
# Whole numbers in requests

A whole number is written as its numeral, whichever way it became a value, as long
as it is below `2 ^ 63`. From there on an unsigned number is kept as its numeral,
but one of JSON is not: it becomes the floating-point number next to it, and unless
it is a multiple of four the request has another number.
-/
namespace FeedClient

theorem Json.parse?_ofInt {n : Int} (h : IsWord n) : parse? (Numeral.ofInt n) = some (.integer n) := by
  have hwell : WellFormed (.integer n) := fun v hv => by
    obtain rfl := List.mem_singleton.mp hv
    exact h
  have hprinted : print (.integer n) = Numeral.ofInt n := String.ofList_toList
  have hread := readText?_print (floatsReadBack_integer n) (fun room t => ofTree? t room)
  rw [hprinted] at hread
  exact hread.trans (ofTree?_tree hwell (floatsReadBack_integer n) nestingRoom)

namespace Value

/-- The ways in which the whole number `n` becomes a value. -/
inductive Converts : Int → Value → Prop where
  | int32 (n : Int32) : Converts n.toInt (.ofInt32 n)
  | int64 (n : Int64) : Converts n.toInt (.int n)
  | uint32 (n : UInt32) : Converts n.toNat (.ofUInt32 n)
  | uint64 (n : UInt64) : Converts n.toNat (.ofUInt64 n)
  | option {α : Type} {convert : α → Value} {a : α} {n : Int} (h : Converts n (convert a)) :
      Converts n (.ofOption convert (some a))
  | json {n : Int} (h : Json.IsWord n) : Converts n (.ofJson (.integer n))

section Texts

variable {n : Int} {v : Value} {pattern : String}

theorem parameterText_ofInt64Nat {m : Nat} (h : m < Nat.pow 2 63) :
    (Value.int (Int64.ofNat m)).parameterText pattern = .ok (Numeral.ofInt m) := by
  rw [parameterText, Int64.toInt_ofNat_of_lt h]

theorem parameterText_ofJson_small (h : Json.IsWord n) (hn : n < Nat.pow 2 63) :
    (ofJson (.integer n)).parameterText pattern = .ok (Numeral.ofInt n) := by
  rw [ofJson, ofInteger, if_pos ⟨h.1, hn⟩, parameterText, Int64.toInt_ofInt_of_le h.1 hn]

theorem parameterText_ofJson_large (hn : Nat.pow 2 63 ≤ n) :
    (ofJson (.integer n)).parameterText pattern =
      .ok (Decimal.plain (Binary64.ofDecimal false n.toNat 0)) := by
  have h63 : Nat.pow 2 63 = 9223372036854775808 := rfl
  have hsign : decide (n < 0) = false := decide_eq_false (by omega)
  have habs : n.natAbs = n.toNat := by omega
  rw [ofJson, ofInteger, if_neg (by omega), hsign, habs, parameterText]

/-- A converted number is written as its numeral, unless it is a large one of JSON. -/
theorem Converts.text_or_large (h : Converts n v) :
    v.parameterText pattern = .ok (Numeral.ofInt n) ∨ Nat.pow 2 63 ≤ n ∧ v = .ofJson (.integer n) := by
  induction h with
  | int32 n =>
      left
      rw [ofInt32, parameterText, Int32.toInt_toInt64]
  | int64 n => exact .inl rfl
  | uint32 n => exact .inl (parameterText_ofInt64Nat (Nat.lt_trans n.toNat_lt (by decide)))
  | uint64 n =>
      left
      rw [ofUInt64]
      split
      · rename_i hn
        exact parameterText_ofInt64Nat hn
      · rw [parameterText, Numeral.ofInt_natCast]
  | option _ ih => exact ih
  | @json n h =>
      by_cases hn : n < Nat.pow 2 63
      · exact .inl (parameterText_ofJson_small h hn)
      · exact .inr ⟨Int.not_lt.mp hn, rfl⟩

/-- A large number of JSON is altered unless it is a multiple of four. -/
theorem text_ofJson_ne (h : Json.IsWord n) (hn : Nat.pow 2 63 ≤ n) (hfour : n % 4 ≠ 0) :
    (ofJson (.integer n)).parameterText pattern ≠ .ok (Numeral.ofInt n) := by
  have h63 : Nat.pow 2 63 = 9223372036854775808 := rfl
  obtain ⟨-, hhigh⟩ := h
  obtain ⟨m, rfl⟩ := Int.eq_ofNat_of_zero_le (by omega : 0 ≤ n)
  rw [parameterText_ofJson_large hn, Numeral.ofInt_natCast]
  intro heq
  exact Decimal.plain_ofDecimal_ne (by omega) (by omega) (by omega) (Except.ok.inj heq)

end Texts

/-- Numbers below `2 ^ 63` are written exactly whatever they were converted from, and the larger ones
unless they come from JSON. A number of JSON is one as well where it is a member inside of a captured
value. From `2 ^ 63` on its text is that of the nearest floating-point number. -/
theorem integer_texts {n : Int} (h : Json.IsWord n) (pattern : String) :
    (n < Nat.pow 2 63 → ∀ v, Converts n v → v.parameterText pattern = .ok (Numeral.ofInt n)) ∧
    (∀ v, Converts n v → v ≠ .ofJson (.integer n) → v.parameterText pattern = .ok (Numeral.ofInt n)) ∧
    Json.parse? (Numeral.ofInt n) = some (.integer n) ∧
    (∀ (captures : Captures) (name : String) (j : Json) (names : List String),
      captures.find? name = some (.ofJson j) → j.at? names = some (.integer n) →
      (Operand.path name names).value captures = .ok (.ofJson (.integer n))) ∧
    (Nat.pow 2 63 ≤ n →
      (ofJson (.integer n)).parameterText pattern =
        .ok (Decimal.plain (Binary64.ofDecimal false n.toNat 0)) ∧
      (n % 4 ≠ 0 → (ofJson (.integer n)).parameterText pattern ≠ .ok (Numeral.ofInt n))) := by
  refine ⟨fun hn v hv => ?_, fun v hv hne => ?_, Json.parse?_ofInt h, ?_, fun hn => ⟨?_, ?_⟩⟩
  · rcases hv.text_or_large with htext | ⟨hlarge, -⟩
    · exact htext
    · exact absurd hn (Int.not_lt.mpr hlarge)
  · rcases hv.text_or_large with htext | ⟨-, hjson⟩
    · exact htext
    · exact absurd hjson hne
  · intro captures name j names hfind hat
    exact Operand.value_eq_ok_iff.mpr ((Operand.denotes_path_iff hfind).mpr ⟨_, hat, rfl⟩)
  · exact parameterText_ofJson_large hn
  · exact text_ofJson_ne h hn

/-- The greatest unsigned number is written exactly where it is bound, and altered where it is a member
of a captured page. -/
theorem integer_texts_greatest :
    let n : UInt64 := 18446744073709551615
    let page : Json := .object [("id", .integer n.toNat)]
    let captures : Captures := Captures.empty.bind "page" (.ofJson page)
    Json.IsWord n.toNat ∧
    (ofUInt64 n).parameterText isoPattern = .ok (Numeral.ofInt n.toNat) ∧
    (Operand.path "page" ["id"]).value captures = .ok (.ofJson (.integer n.toNat)) ∧
    (ofJson (.integer n.toNat)).parameterText isoPattern ≠ .ok (Numeral.ofInt n.toNat) := by
  intro n page captures
  have hword : Json.IsWord n.toNat := ⟨by decide, by decide⟩
  have hkind : ofUInt64 n ≠ .ofJson (.integer n.toNat) := fun h =>
    absurd (congrArg typeName h) (by decide)
  obtain ⟨-, hexact, -, hpath, hlarge⟩ := integer_texts hword isoPattern
  refine ⟨hword, hexact _ (.uint64 n) hkind, ?_, (hlarge (by decide)).2 (by decide)⟩
  exact hpath captures "page" page ["id"] rfl rfl

/-- The two texts of the greatest unsigned number; the first of them denotes another number. -/
theorem captured_text_ne_bound :
    let n : UInt64 := 18446744073709551615
    let captures := Captures.empty.bind "page" (.ofJson (.object [("id", .integer n.toNat)]))
    ∃ v, Converts n.toNat v ∧ (Operand.path "page" ["id"]).value captures = .ok v ∧
      v.parameterText isoPattern = .ok "18446744073709552000" ∧
      (ofUInt64 n).parameterText isoPattern = .ok "18446744073709551615" := by
  refine ⟨.ofJson (.integer 18446744073709551615), .json ⟨by decide, by decide⟩, rfl, ?_, rfl⟩
  have htext : Decimal.plain (Binary64.ofDecimal false 18446744073709551615 0) =
      "18446744073709552000" := by decide +kernel
  exact (parameterText_ofJson_large (by decide)).trans (congrArg Except.ok htext)

end Value

end FeedClient
