import FeedClient.Decimal.Binary64

/-!
# Fewest digits that read back

The digits of a number are those of the shortest decimal that reads back as the
number; of two such decimals the nearer one, and of two equally near ones the
one that the tie rule names. A decimal is found by testing the two neighbours of
the number on ever finer decimal grids.
-/
namespace FeedClient.Decimal

/-- Which of two equally near decimals is taken. -/
inductive Tie where
  | up
  | even
  deriving DecidableEq, Repr

/-- The decimal `digits · 10 ^ exponent`. -/
structure Magnitude where
  digits : Nat
  exponent : Int
  deriving DecidableEq, Repr

/-- The whole part of `num / den` in units of `10 ^ exponent`, with remainder and unit. -/
def onGrid (num den : Nat) (exponent : Int) : Nat × Nat × Nat :=
  let n := num * Nat.pow 10 (-exponent).toNat
  let d := den * Nat.pow 10 exponent.toNat
  (n / d, n % d, d)

/-- The position of the decimal point of `num / den`: one more than the power of its first digit. -/
def pointPosition (num den : Nat) : Int :=
  (Binary64.digitCount (num * Nat.pow 10 340 / den) : Int) - 340

/-- Whether a decimal reads back as the number. -/
def readsBack (m : Nat) (e : Int) (d : Magnitude) : Bool :=
  Binary64.ofDecimal false d.digits d.exponent == .finite false m e

/-- The neighbour on one grid that reads back, if there is one. -/
def nearestOn (tie : Tie) (m : Nat) (e : Int) (exponent : Int) : Option Magnitude :=
  let (num, den) := Binary64.ratio m e
  let (q, r, unit) := onGrid num den exponent
  let below : Magnitude := ⟨q, exponent⟩
  let above : Magnitude := ⟨q + 1, exponent⟩
  match readsBack m e below, readsBack m e above with
  | true, true =>
    if 2 * r < unit then some below
    else if unit < 2 * r then some above
    else match tie with
      | .up => some above
      | .even => if q % 2 = 0 then some below else some above
  | true, false => some below
  | false, true => some above
  | false, false => none

/-- The first hit on the grids of `places`, `places + 1`, … digits. -/
def searchFrom (tie : Tie) (m : Nat) (e : Int) (point : Int) : Nat → Nat → Option Magnitude
  | 0, _ => none
  | fuel + 1, places =>
    (nearestOn tie m e (point - places)).orElse fun _ => searchFrom tie m e point fuel (places + 1)

/-- Every digit of the number. -/
def exact (m : Nat) (e : Int) : Magnitude :=
  if 0 ≤ e then ⟨m * Nat.pow 2 e.toNat, 0⟩ else ⟨m * Nat.pow 5 (-e).toNat, e⟩

/-- The shortest decimal of `m · 2 ^ e`; seventeen digits are always enough. -/
def shortest (tie : Tie) (m : Nat) (e : Int) : Magnitude :=
  let (num, den) := Binary64.ratio m e
  (searchFrom tie m e (pointPosition num den) 17 1).getD (exact m e)

/-- The significant digits of a decimal, and the position of the point among them. -/
def Magnitude.significant (d : Magnitude) : List Char × Int :=
  let all := Nat.toDigits 10 d.digits
  let kept := (all.reverse.dropWhile (· = '0')).reverse
  (kept, d.exponent + all.length)

end FeedClient.Decimal
