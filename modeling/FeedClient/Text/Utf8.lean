/-!
# Text and bytes

A text is written in UTF-8. Reading is lossy: each longest run of bytes that
begins a character without completing it is read as one U+FFFD.
-/
namespace FeedClient.Text

/-- The UTF-8 bytes of a text. -/
def utf8Bytes (s : String) : List UInt8 := s.toList.flatMap String.utf8EncodeChar

def replacementChar : Char := '\uFFFD'

namespace Utf8

/-- The bytes that may follow the first one: their number, and the range of the next. -/
structure Expectation where
  remaining : Nat
  low : Nat
  high : Nat
  /-- The bits read so far. -/
  bits : Nat
  deriving DecidableEq, Repr

/-- What a first byte asks for; `none` if no character begins with it. -/
def start? (b : Nat) : Option Expectation :=
  if b ≤ 0x7F then some ⟨0, 0, 0, b⟩
  else if b < 0xC2 then none
  else if b ≤ 0xDF then some ⟨1, 0x80, 0xBF, b - 0xC0⟩
  else if b = 0xE0 then some ⟨2, 0xA0, 0xBF, 0⟩
  else if b = 0xED then some ⟨2, 0x80, 0x9F, 0xD⟩
  else if b ≤ 0xEF then some ⟨2, 0x80, 0xBF, b - 0xE0⟩
  else if b = 0xF0 then some ⟨3, 0x90, 0xBF, 0⟩
  else if b ≤ 0xF3 then some ⟨3, 0x80, 0xBF, b - 0xF0⟩
  else if b = 0xF4 then some ⟨3, 0x80, 0x8F, 4⟩
  else none

/-- Reads on from the middle of a character, or from between two. -/
def decode : Option Expectation → List UInt8 → List Char
  | none, [] => []
  | some _, [] => [replacementChar]
  | none, b :: bs =>
    match start? b.toNat with
    | none => replacementChar :: decode none bs
    | some e => if e.remaining = 0 then Char.ofNat e.bits :: decode none bs else decode (some e) bs
  | some e, b :: bs =>
    if e.low ≤ b.toNat ∧ b.toNat ≤ e.high then
      let bits := e.bits * 64 + (b.toNat - 0x80)
      if e.remaining ≤ 1 then Char.ofNat bits :: decode none bs
      else decode (some ⟨e.remaining - 1, 0x80, 0xBF, bits⟩) bs
    else
      match start? b.toNat with
      | none => replacementChar :: replacementChar :: decode none bs
      | some f =>
        if f.remaining = 0 then replacementChar :: Char.ofNat f.bits :: decode none bs
        else replacementChar :: decode (some f) bs

end Utf8

/-- The text that bytes spell, with U+FFFD for what spells no character. -/
def ofUtf8Lossy (bs : List UInt8) : List Char := Utf8.decode none bs

end FeedClient.Text
