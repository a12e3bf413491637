import FeedClient.Text.Numeral

/-!
# JSON as written

A tree holds what a JSON text says before anything is made of it: numbers as
digits, and quoted text with its escaped code units apart. So a text can be
well-formed although a part of it, read as a value, would not be; a reader
passes over parts that it does not need.
-/
namespace FeedClient.Json

/-- A character of quoted text, or a 16-bit unit written as an escape. -/
inductive Piece where
  | char (c : Char)
  | unit (n : Nat)
  deriving DecidableEq, Repr

/-- A number as written. -/
structure Literal where
  negative : Bool
  whole : List Char
  fraction : Option (List Char)
  /-- The sign of the exponent, true for a negative one, and its digits. -/
  exponent : Option (Bool × List Char)
  deriving DecidableEq, Repr

inductive Tree where
  | null
  | bool (b : Bool)
  | number (l : Literal)
  | text (pieces : List Piece)
  | array (items : List Tree)
  | object (members : List (List Piece × Tree))
  deriving Repr, Inhabited

def isJsonSpace (c : Char) : Bool := c = ' ' || c = '\t' || c = '\n' || c = '\r'

def skipSpace (cs : List Char) : List Char := cs.dropWhile isJsonSpace

def hexValue? (c : Char) : Option Nat :=
  let n := c.toNat
  if 48 ≤ n ∧ n ≤ 57 then some (n - 48)
  else if 97 ≤ n ∧ n ≤ 102 then some (n - 87)
  else if 65 ≤ n ∧ n ≤ 70 then some (n - 55)
  else none

def hexUnit? (a b c d : Char) : Option Nat := do
  return (((← hexValue? a) * 16 + (← hexValue? b)) * 16 + (← hexValue? c)) * 16 + (← hexValue? d)

/-- The character of an escape of one letter. -/
def escaped? : Char → Option Char
  | '"' => some '"'
  | '\\' => some '\\'
  | '/' => some '/'
  | 'b' => some '\x08'
  | 'f' => some '\x0c'
  | 'n' => some '\n'
  | 'r' => some '\r'
  | 't' => some '\t'
  | _ => none

/-- Quoted text behind its opening mark, and what follows the closing one. -/
def pieces? : List Char → Option (List Piece × List Char)
  | [] => none
  | '"' :: cs => some ([], cs)
  | '\\' :: 'u' :: a :: b :: c :: d :: cs =>
    match hexUnit? a b c d, pieces? cs with
    | some n, some (ps, rest) => some (.unit n :: ps, rest)
    | _, _ => none
  | '\\' :: c :: cs =>
    match escaped? c, pieces? cs with
    | some e, some (ps, rest) => some (.char e :: ps, rest)
    | _, _ => none
  | c :: cs =>
    if c.toNat < 32 || c = '\\' then none
    else (pieces? cs).map fun (ps, rest) => (.char c :: ps, rest)

/-- Digits, at least one. -/
def digits? (cs : List Char) : Option (List Char × List Char) :=
  let ds := cs.takeWhile Numeral.isDigit
  if ds.isEmpty then none else some (ds, cs.dropWhile Numeral.isDigit)

/-- The whole part of a number: a zero alone, or digits that do not begin with one. -/
def whole? (cs : List Char) : Option (List Char × List Char) :=
  match digits? cs with
  | some ('0' :: _ :: _, _) => none
  | other => other

def fraction? : List Char → Option (Option (List Char) × List Char)
  | '.' :: cs => (digits? cs).map fun (ds, rest) => (some ds, rest)
  | cs => some (none, cs)

def exponentDigits? : List Char → Option (Option (Bool × List Char) × List Char)
  | '-' :: cs => (digits? cs).map fun (ds, rest) => (some (true, ds), rest)
  | '+' :: cs => (digits? cs).map fun (ds, rest) => (some (false, ds), rest)
  | cs => (digits? cs).map fun (ds, rest) => (some (false, ds), rest)

def exponentPart? : List Char → Option (Option (Bool × List Char) × List Char)
  | 'e' :: cs => exponentDigits? cs
  | 'E' :: cs => exponentDigits? cs
  | cs => some (none, cs)

def magnitude? (negative : Bool) (cs : List Char) : Option (Literal × List Char) := do
  let (whole, cs) ← whole? cs
  let (fraction, cs) ← fraction? cs
  let (exponent, cs) ← exponentPart? cs
  return (⟨negative, whole, fraction, exponent⟩, cs)

def literal? : List Char → Option (Literal × List Char)
  | '-' :: cs => magnitude? true cs
  | cs => magnitude? false cs

mutual

/-- A value and what follows it; two units of `fuel` for each character are enough. -/
def tree? : Nat → List Char → Option (Tree × List Char)
  | 0, _ => none
  | fuel + 1, cs =>
    match skipSpace cs with
    | 'n' :: 'u' :: 'l' :: 'l' :: rest => some (.null, rest)
    | 't' :: 'r' :: 'u' :: 'e' :: rest => some (.bool true, rest)
    | 'f' :: 'a' :: 'l' :: 's' :: 'e' :: rest => some (.bool false, rest)
    | '"' :: rest => (pieces? rest).map fun (ps, r) => (.text ps, r)
    | '[' :: rest =>
      match skipSpace rest with
      | ']' :: r => some (.array [], r)
      | _ => (items? fuel rest).map fun (ts, r) => (.array ts, r)
    | '\x7b' :: rest =>
      match skipSpace rest with
      | '\x7d' :: r => some (.object [], r)
      | _ => (members? fuel rest).map fun (ms, r) => (.object ms, r)
    | other => (literal? other).map fun (l, r) => (.number l, r)

/-- Items up to the closing bracket. -/
def items? : Nat → List Char → Option (List Tree × List Char)
  | 0, _ => none
  | fuel + 1, cs =>
    match tree? fuel cs with
    | none => none
    | some (t, rest) =>
      match skipSpace rest with
      | ']' :: r => some ([t], r)
      | ',' :: r => (items? fuel r).map fun (ts, r) => (t :: ts, r)
      | _ => none

/-- Members up to the closing brace. -/
def members? : Nat → List Char → Option (List (List Piece × Tree) × List Char)
  | 0, _ => none
  | fuel + 1, cs =>
    match skipSpace cs with
    | '"' :: afterMark =>
      match pieces? afterMark with
      | none => none
      | some (name, afterName) =>
        match skipSpace afterName with
        | ':' :: afterColon =>
          match tree? fuel afterColon with
          | none => none
          | some (t, rest) =>
            match skipSpace rest with
            | '\x7d' :: r => some ([(name, t)], r)
            | ',' :: r => (members? fuel r).map fun (ms, r) => ((name, t) :: ms, r)
            | _ => none
        | _ => none
    | _ => none

end

/-- The tree of a text that is one JSON value and nothing else. -/
def Tree.ofChars? (cs : List Char) : Option Tree :=
  match tree? (2 * cs.length + 2) cs with
  | some (t, rest) => if (skipSpace rest).isEmpty then some t else none
  | none => none

/-- Puts surrogate pairs together; a surrogate alone spells nothing. -/
def decodePieces? : List Piece → Option (List Char)
  | [] => some []
  | .char c :: ps => (decodePieces? ps).map (c :: ·)
  | .unit n :: ps =>
    if n < 0xD800 ∨ 0xDFFF < n then (decodePieces? ps).map (Char.ofNat n :: ·)
    else if 0xDBFF < n then none
    else match ps with
      | .unit m :: rest =>
        if 0xDC00 ≤ m ∧ m ≤ 0xDFFF then
          (decodePieces? rest).map (Char.ofNat (0x10000 + (n - 0xD800) * 1024 + (m - 0xDC00)) :: ·)
        else none
      | _ => none

def pieceText? (ps : List Piece) : Option String := (decodePieces? ps).map String.ofList

end FeedClient.Json
