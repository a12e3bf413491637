import FeedClient.Text.Numeral

/-!
# Character and entity references

Text and attribute values refer to characters by number and to five of them by
name. A reference that is not closed, has an unknown name or names no character
makes the whole text unreadable.
-/
namespace FeedClient.Xml

/-- The character that one of the five predefined names stands for. -/
def namedChar? (name : List Char) : Option Char :=
  if name = ['l', 't'] then some '<'
  else if name = ['g', 't'] then some '>'
  else if name = ['a', 'm', 'p'] then some '&'
  else if name = ['a', 'p', 'o', 's'] then some '\''
  else if name = ['q', 'u', 'o', 't'] then some '"'
  else none

def hexDigit? (c : Char) : Option Nat :=
  let n := c.toNat
  if 48 ≤ n ∧ n ≤ 57 then some (n - 48)
  else if 97 ≤ n ∧ n ≤ 102 then some (n - 87)
  else if 65 ≤ n ∧ n ≤ 70 then some (n - 55)
  else none

/-- The number that digits of a base denote, at least one of them. -/
def codePoint? (base : Nat) (cs : List Char) : Option Nat :=
  if cs.isEmpty then none
  else cs.foldlM (fun n c => do
    let d ← hexDigit? c
    if d < base ∧ n * base + d < Nat.pow 2 32 then some (n * base + d) else none) 0

/-- The character with a number other than zero, if there is one. -/
def numberedChar? (n : Nat) : Option Char :=
  if n = 0 then none
  else if n < 0xD800 ∨ (0xDFFF < n ∧ n < 0x110000) then some (Char.ofNat n)
  else none

/-- What stands between the ampersand and the semicolon. -/
def reference? : List Char → Option Char
  | '#' :: 'x' :: ds => (codePoint? 16 ds).bind numberedChar?
  | '#' :: ds => (codePoint? 10 ds).bind numberedChar?
  | name => namedChar? name

/-- Resolves references: `inside` holds the part of one that is already read, in reverse. -/
def unescapeFrom : Option (List Char) → List Char → Option (List Char)
  | none, [] => some []
  | some _, [] => none
  | none, c :: cs =>
    if c = '&' then unescapeFrom (some []) cs else (unescapeFrom none cs).map (c :: ·)
  | some seen, c :: cs =>
    if c = ';' then
      match reference? seen.reverse with
      | some r => (unescapeFrom none cs).map (r :: ·)
      | none => none
    else if c = '&' then none
    else unescapeFrom (some (c :: seen)) cs

/-- The text with its references resolved. -/
def unescape? (cs : List Char) : Option (List Char) := unescapeFrom none cs

end FeedClient.Xml
