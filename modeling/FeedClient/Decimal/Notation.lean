import FeedClient.Decimal.Shortest
import FeedClient.Text.Numeral

/-!
# The text of a floating-point number

Two written forms: plain positional notation of any length, and the form of JSON
numbers, which keeps a fraction and turns to powers of ten for the large and the
small. Reading takes signs, fractions, exponents and the words for infinity and
not-a-number.
-/
namespace FeedClient.Decimal

/-- Digits around a decimal point, zeros filling up to it. -/
def positional (ds : List Char) (point : Int) : List Char :=
  if point ≤ 0 then ['0', '.'] ++ List.replicate (-point).toNat '0' ++ ds
  else if ds.length ≤ point.toNat then ds ++ List.replicate (point.toNat - ds.length) '0'
  else ds.take point.toNat ++ '.' :: ds.drop point.toNat

/-- One digit before the point and a power of ten with its sign. -/
def scientific (ds : List Char) (point : Int) : List Char :=
  let exponent := point - 1
  let sign := if exponent < 0 then '-' else '+'
  let fraction := if ds.length ≤ 1 then [] else '.' :: ds.drop 1
  ds.take 1 ++ fraction ++ ['e', sign] ++ Nat.toDigits 10 exponent.natAbs

def signed (negative : Bool) (cs : List Char) : List Char := if negative then '-' :: cs else cs

/-- Plain notation: no exponent, no fraction for a whole number, a tie of digits goes up. -/
def plain : Binary64 → String
  | .nan => "NaN"
  | .infinite negative => String.ofList (signed negative ['i', 'n', 'f'])
  | .finite negative m e =>
    if m = 0 then String.ofList (signed negative ['0'])
    else
      let (ds, point) := (shortest .up m e).significant
      String.ofList (signed negative (positional ds point))

/-- JSON form: positional with a fraction from `1e-5` up to `1e16`, else a power of ten; a tie of
digits goes to the even one. What is not finite has no JSON form. -/
def json? : Binary64 → Option String
  | .finite negative m e =>
    if m = 0 then some (String.ofList (signed negative ['0', '.', '0']))
    else
      let (ds, point) := (shortest .even m e).significant
      let body :=
        if -5 < point ∧ point ≤ 16 then
          if ds.length ≤ point.toNat ∧ 0 < point then positional ds point ++ ['.', '0']
          else positional ds point
        else scientific ds point
      some (String.ofList (signed negative body))
  | _ => none

/-- The parts of a decimal text behind its sign. -/
structure Parts where
  whole : List Char
  fraction : List Char
  exponent : Int
  deriving DecidableEq, Repr

/-- An exponent behind its letter: an optional sign and one or more digits. -/
def exponent? : List Char → Option Int
  | '-' :: cs => if cs.isEmpty || !cs.all Numeral.isDigit then none else some (-(Numeral.value 0 cs : Int))
  | '+' :: cs => if cs.isEmpty || !cs.all Numeral.isDigit then none else some (Numeral.value 0 cs)
  | cs => if cs.isEmpty || !cs.all Numeral.isDigit then none else some (Numeral.value 0 cs)

/-- Digits with an optional point among them and an optional exponent behind. -/
def parts? (cs : List Char) : Option Parts :=
  let whole := cs.takeWhile Numeral.isDigit
  let rest := cs.dropWhile Numeral.isDigit
  let (fraction, rest) := match rest with
    | '.' :: more => (more.takeWhile Numeral.isDigit, more.dropWhile Numeral.isDigit)
    | _ => ([], rest)
  if whole.isEmpty && fraction.isEmpty then none
  else match rest with
    | [] => some ⟨whole, fraction, 0⟩
    | 'e' :: more => (exponent? more).map fun x => ⟨whole, fraction, x⟩
    | 'E' :: more => (exponent? more).map fun x => ⟨whole, fraction, x⟩
    | _ => none

/-- The number nearest to what a text denotes. -/
def read? (s : String) : Option Binary64 :=
  let (negative, body) := match s.toList with
    | '-' :: cs => (true, cs)
    | '+' :: cs => (false, cs)
    | cs => (false, cs)
  let word := String.ofList (body.map Char.toLower)
  if word = "inf" ∨ word = "infinity" then some (.infinite negative)
  else if word = "nan" then some .nan
  else (parts? body).map fun p =>
    Binary64.ofDecimal negative (Numeral.value 0 (p.whole ++ p.fraction)) (p.exponent - p.fraction.length)

end FeedClient.Decimal
