/-!
# Places in a YAML text

A cursor is a place in a text together with its line and column, on which the
structure of a YAML text depends.
-/
namespace FeedClient.Yaml

structure Cursor where
  rest : List Char
  index : Nat
  line : Nat
  column : Nat
  deriving Repr

def isBreak (c : Char) : Bool :=
  c = '\n' || c = '\r' || c.toNat = 0x85 || c.toNat = 0x2028 || c.toNat = 0x2029

def isBlank (c : Char) : Bool := c = ' ' || c = '\t'

/-- Characters that a YAML text may contain. -/
def isAllowed (c : Char) : Bool :=
  let n := c.toNat
  n = 9 || n = 10 || n = 13 || (0x20 ≤ n && n ≤ 0x7E) || n = 0x85 || (0xA0 ≤ n && n ≤ 0xD7FF) ||
  (0xE000 ≤ n && n ≤ 0xFFFD && n ≠ 0xFEFF) || 0x10000 ≤ n

namespace Cursor

/-- The start of a text; a byte order mark there is passed over. -/
def start (s : String) : Cursor :=
  match s.toList with
  | '\uFEFF' :: cs => ⟨cs, 0, 0, 0⟩
  | cs => ⟨cs, 0, 0, 0⟩

def peek? (c : Cursor) : Option Char := c.rest.head?

/-- The character `n` places further on. -/
def lookahead? (c : Cursor) (n : Nat) : Option Char := c.rest[n]?

/-- Whether the text ends here or goes on with white space, `n` places further on. -/
def isGap (c : Cursor) (n : Nat) : Bool :=
  match c.lookahead? n with
  | none => true
  | some d => isBlank d || isBreak d

/-- Past some characters of the same line. -/
def skip (c : Cursor) (n : Nat) : Cursor :=
  ⟨c.rest.drop n, c.index + n, c.line, c.column + n⟩

/-- Past a line break, with the character that it counts as. -/
def lineBreak (c : Cursor) : Char × Cursor :=
  match c.rest with
  | '\r' :: '\n' :: cs => ('\n', ⟨cs, c.index + 2, c.line + 1, 0⟩)
  | d :: cs =>
    (if d.toNat = 0x2028 || d.toNat = 0x2029 then d else '\n', ⟨cs, c.index + 1, c.line + 1, 0⟩)
  | [] => ('\n', c)

/-- The characters from here on that have a property, and the place behind them. -/
def span (c : Cursor) (p : Char → Bool) : List Char × Cursor :=
  let cs := c.rest.takeWhile p
  (cs, c.skip cs.length)

def skipBlanks (c : Cursor) : Cursor := (c.span isBlank).2

/-- Past a comment, if one begins here. -/
def skipComment (c : Cursor) : Cursor :=
  if c.peek? = some '#' then (c.span (fun d => !isBreak d)).2 else c

/-- Whether a line begins here with one of the marks between documents. -/
def isDocumentMark (c : Cursor) : Bool :=
  c.column = 0 && c.isGap 3 && (c.rest.take 3 = ['-', '-', '-'] || c.rest.take 3 = ['.', '.', '.'])

end Cursor

end FeedClient.Yaml
