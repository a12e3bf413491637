import FeedClient.Text.Blank
import FeedClient.Text.Utf8

/-!
# Percent-encoding

A name or value in a query string keeps the unreserved characters of RFC 3986;
every other byte of its UTF-8 form becomes a percent sign and two hexadecimal
digits. Decoding undoes it.
-/
namespace FeedClient.Percent

/-- ASCII letters and digits, hyphen, underscore, full stop and tilde. -/
def isUnreserved (b : UInt8) : Bool :=
  let n := b.toNat
  (48 ≤ n && n ≤ 57) || (65 ≤ n && n ≤ 90) || (97 ≤ n && n ≤ 122) ||
  n == 45 || n == 95 || n == 46 || n == 126

def hexDigit (n : Nat) : Char := Char.ofNat (if n < 10 then 48 + n else 55 + n)

def encodeByte (b : UInt8) : List Char :=
  if isUnreserved b then [Char.ofNat b.toNat]
  else ['%', hexDigit (b.toNat / 16), hexDigit (b.toNat % 16)]

def encodeBytes (bs : List UInt8) : List Char := bs.flatMap encodeByte

/-- The encoded form of a parameter name or value; blank text encodes to nothing. -/
def encode (s : String) : String :=
  if Text.isBlank s then "" else String.ofList (encodeBytes (Text.utf8Bytes s))

end FeedClient.Percent
