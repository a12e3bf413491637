import FeedClient.Json.Basic
import FeedClient.Json.Tree

/-!
# Reading JSON numbers

A number without fraction and exponent that fits 64 bits is whole. Any other
number takes as many leading digits as fit 64 unsigned bits, and scales them by
a power of ten with one rounding for the digits and one for the scaling. A
number too large for a floating-point number cannot be read.
-/
namespace FeedClient.Json

def wordLimit : Nat := Nat.pow 2 64 - 1

/-- The digits that still fit behind `acc`, as a number, and the rest. -/
def accumulate : Nat → List Char → Nat × List Char
  | acc, [] => (acc, [])
  | acc, c :: cs =>
    let next := acc * 10 + (c.toNat - 48)
    if next ≤ wordLimit then accumulate next cs else (acc, c :: cs)

def powerOfTen (n : Nat) : Binary64 := Binary64.ofDecimal false 1 n

/-- Divides by a power of ten, in steps that are powers themselves. -/
def scaleDown (x : Binary64) (n : Nat) : Binary64 :=
  if n ≤ 308 then x.div (powerOfTen n)
  else if x.isZero then x
  else scaleDown (x.div (powerOfTen 308)) (n - 308)
termination_by n

/-- A significand times a power of ten. -/
def scale? (significand : Nat) (exponent : Int) : Option Binary64 :=
  let x := Binary64.ofNat significand
  if exponent < 0 then some (scaleDown x exponent.natAbs)
  else if x.isZero then some x
  else if 308 < exponent then none
  else
    let y := x.mul (powerOfTen exponent.natAbs)
    if y.isFinite then some y else none

/-- Exponents from here on are too large whatever they scale. -/
def exponentLimit : Nat := Nat.pow 2 31 - 1

namespace Literal

/-- Significand and power of ten before the written exponent counts. -/
def significand (l : Literal) : Nat × Int :=
  let (acc, overflow) := accumulate 0 l.whole
  match l.fraction with
  | none => (acc, overflow.length)
  | some ds =>
    let (sig, rest) := accumulate acc ds
    (sig, (overflow.length : Int) - (ds.length - rest.length : Nat))

def signed (l : Literal) (x : Binary64) : Binary64 := if l.negative then x.neg else x

/-- The floating-point number that is written. -/
def float? (l : Literal) : Option Binary64 :=
  let (sig, start) := l.significand
  match l.exponent with
  | none => (scale? sig start).map l.signed
  | some (negative, ds) =>
    let e := Numeral.value 0 ds
    if exponentLimit < e then
      if sig ≠ 0 ∧ !negative then none else some (l.signed (Binary64.zero false))
    else (scale? sig (if negative then start - e else start + e)).map l.signed

/-- The whole number that is written, if it is written as one and fits. -/
def integer? (l : Literal) : Option Int :=
  match l.fraction, l.exponent, accumulate 0 l.whole with
  | none, none, (n, []) =>
    if !l.negative then some n
    else if 0 < n ∧ n ≤ Nat.pow 2 63 then some (-(n : Int))
    else none
  | _, _, _ => none

/-- The number that is written. -/
def json? (l : Literal) : Option Json :=
  match l.integer? with
  | some n => some (.integer n)
  | none => l.float?.map .float

end Literal

end FeedClient.Json
