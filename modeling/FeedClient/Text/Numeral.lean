import FeedClient.Text.Blank

/-!
# Decimal numerals

A numeral is an optional sign and one or more ASCII digits. Reading stops as
soon as the value passes its limit, so the work done is that of a machine word
while the answer is that of the unbounded value.
-/
namespace FeedClient.Numeral

/-- The value of an ASCII digit. -/
def digit? (c : Char) : Option Nat :=
  if 48 ≤ c.toNat ∧ c.toNat ≤ 57 then some (c.toNat - 48) else none

def isDigit (c : Char) : Bool := (digit? c).isSome

/-- Reads digits behind the value `acc`, no further than `limit`. -/
def readDigits (limit : Nat) : Nat → List Char → Option Nat
  | acc, [] => some acc
  | acc, c :: cs =>
    match digit? c with
    | none => none
    | some d => if acc * 10 + d ≤ limit then readDigits limit (acc * 10 + d) cs else none

/-- One or more digits of a value up to `limit`. -/
def magnitude? (limit : Nat) : List Char → Option Nat
  | [] => none
  | c :: cs => readDigits limit 0 (c :: cs)

/-- A numeral without minus sign, of a value up to `limit`. -/
def unsigned? (limit : Nat) : List Char → Option Nat
  | '+' :: cs => magnitude? limit cs
  | cs => magnitude? limit cs

/-- A numeral with a value of at least `-bound` and below `bound`. -/
def signed? (bound : Nat) : List Char → Option Int
  | '-' :: cs => (magnitude? bound cs).map fun n => -(n : Int)
  | '+' :: cs => (magnitude? (bound - 1) cs).map fun n => (n : Int)
  | cs => (magnitude? (bound - 1) cs).map fun n => (n : Int)

def int64? (s : String) : Option Int64 := (signed? (Nat.pow 2 63) s.toList).map Int64.ofInt

def int32? (s : String) : Option Int32 := (signed? (Nat.pow 2 31) s.toList).map Int32.ofInt

def uint64? (s : String) : Option UInt64 := (unsigned? (Nat.pow 2 64 - 1) s.toList).map UInt64.ofNat

def uint32? (s : String) : Option UInt32 := (unsigned? (Nat.pow 2 32 - 1) s.toList).map UInt32.ofNat

/-- The value that a list of digits denotes behind `acc`, whatever its length. -/
def value (acc : Nat) (cs : List Char) : Nat :=
  cs.foldl (fun n c => n * 10 + (c.toNat - 48)) acc

theorem readDigits_eq_some_iff {limit acc n : Nat} {cs : List Char} (h : acc ≤ limit) :
    readDigits limit acc cs = some n ↔
      (∀ c ∈ cs, isDigit c) ∧ n = value acc cs ∧ n ≤ limit := by
  induction cs generalizing acc with
  | nil => simp [readDigits, value]; grind
  | cons c cs ih =>
    have grow : ∀ (xs : List Char) (a : Nat), a ≤ value a xs := by
      intro xs
      induction xs with
      | nil => simp [value]
      | cons x xs ihx =>
        intro a
        have := ihx (a * 10 + (x.toNat - 48))
        simp only [value, List.foldl_cons] at this ⊢
        omega
    simp only [readDigits]
    by_cases hc : 48 ≤ c.toNat ∧ c.toNat ≤ 57
    · have hd : digit? c = some (c.toNat - 48) := by simp [digit?, hc]
      have hv : value acc (c :: cs) = value (acc * 10 + (c.toNat - 48)) cs := by
        simp [value, List.foldl_cons]
      simp only [hd]
      split
      · rename_i hle
        rw [ih hle, hv]
        simp [isDigit, hd]
      · rename_i hle
        have := grow cs (acc * 10 + (c.toNat - 48))
        simp only [reduceCtorEq, false_iff, not_and, hv]
        intro _ he
        omega
    · have hd : digit? c = none := by simp [digit?]; omega
      simp [hd, isDigit]

/-- The text of a whole number. -/
def ofInt (n : Int) : String :=
  if n < 0 then "-" ++ String.ofList (Nat.toDigits 10 n.natAbs)
  else String.ofList (Nat.toDigits 10 n.natAbs)

def ofNat (n : Nat) : String := String.ofList (Nat.toDigits 10 n)

/-- A number in at least `width` places, filled with `fill` on the left. -/
def padded (fill : Char) (width n : Nat) : List Char :=
  let ds := Nat.toDigits 10 n
  List.replicate (width - ds.length) fill ++ ds

end FeedClient.Numeral
