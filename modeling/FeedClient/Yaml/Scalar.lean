import FeedClient.Text.Numeral
import FeedClient.Yaml.Cursor

/-!
# Scalars of YAML

A scalar is text in one of five styles. In plain and quoted text a line break
folds into a space, and further ones are kept; in a block the breaks are kept or
folded as its head says.
-/
namespace FeedClient.Yaml

inductive Style where
  | plain
  | singleQuoted
  | doubleQuoted
  | literal
  | folded
  deriving DecidableEq, Repr

/-- White space that is not yet known to belong to a scalar. -/
inductive Gap where
  | none
  | blanks (cs : List Char)
  /-- A line break, unless it was escaped, and the breaks behind it. -/
  | breaks (first : Option Char) (rest : List Char)
  deriving DecidableEq, Repr

namespace Gap

/-- What the white space comes to inside of a scalar. -/
def folded : Gap → List Char
  | .none => []
  | .blanks cs => cs
  | .breaks (some '\n') [] => [' ']
  | .breaks (some '\n') rest => rest
  | .breaks (some c) rest => c :: rest
  | .breaks Option.none rest => rest

def addBlank (c : Char) : Gap → Gap
  | .none => .blanks [c]
  | .blanks cs => .blanks (cs ++ [c])
  | .breaks first rest => .breaks first rest

def addBreak (c : Char) : Gap → Gap
  | .breaks first rest => .breaks first (rest ++ [c])
  | _ => .breaks (some c) []

def hasBreak : Gap → Bool
  | .breaks .. => true
  | _ => false

end Gap

/-- A scalar, the place behind it, and whether a line break came last. -/
structure ScalarScan where
  style : Style
  text : List Char
  next : Cursor
  endsLine : Bool

namespace Plain

def isFlowMark (c : Char) : Bool := ",[]\x7b\x7d".toList.contains c

/-- Whether the scalar ends before the character at the cursor. -/
def endsAt (inFlow : Bool) (indent : Int) (c : Cursor) (gap : Gap) (d : Char) : Bool :=
  c.isDocumentMark ||
  (gap ≠ .none && (d = '#' || (!inFlow && (c.column : Int) < indent))) ||
  (d = ':' && c.isGap 1) || (inFlow && isFlowMark d)

/-- A colon before one of these marks is refused in a flow collection. -/
def isRefused (inFlow : Bool) (c : Cursor) (d : Char) : Bool :=
  inFlow && d = ':' && match c.lookahead? 1 with
    | some e => e = '?' || isFlowMark e
    | none => false

/-- Reads on behind the characters `text`, which are in reverse. -/
def scan (inFlow : Bool) (indent : Int) : Nat → Cursor → List Char → Gap → Option ScalarScan
  | 0, _, _, _ => none
  | fuel + 1, c, text, gap =>
    match c.peek? with
    | none => some ⟨.plain, text.reverse, c, gap.hasBreak⟩
    | some d =>
      if isBlank d then
        if gap.hasBreak && (c.column : Int) < indent && d = '\t' then none
        else scan inFlow indent fuel (c.skip 1) text (gap.addBlank d)
      else if isBreak d then
        scan inFlow indent fuel c.lineBreak.2 text (gap.addBreak c.lineBreak.1)
      else if isRefused inFlow c d then none
      else if endsAt inFlow indent c gap d then some ⟨.plain, text.reverse, c, gap.hasBreak⟩
      else scan inFlow indent fuel (c.skip 1) (d :: (gap.folded.reverse ++ text)) .none

end Plain

namespace Quoted

def hexValue? (c : Char) : Option Nat :=
  if c.isDigit then some (c.toNat - 48)
  else if 'a' ≤ c ∧ c ≤ 'f' then some (c.toNat - 87)
  else if 'A' ≤ c ∧ c ≤ 'F' then some (c.toNat - 55)
  else none

/-- The character of an escape of one letter. -/
def letter? : Char → Option Char
  | '0' => some '\x00'
  | 'a' => some '\x07'
  | 'b' => some '\x08'
  | 't' => some '\t'
  | '\t' => some '\t'
  | 'n' => some '\n'
  | 'v' => some '\x0b'
  | 'f' => some '\x0c'
  | 'r' => some '\r'
  | 'e' => some '\x1b'
  | ' ' => some ' '
  | '"' => some '"'
  | '/' => some '/'
  | '\\' => some '\\'
  | 'N' => some '\u0085'
  | '_' => some '\u00a0'
  | 'L' => some '\u2028'
  | 'P' => some '\u2029'
  | _ => none

/-- The number of hexadecimal digits behind the letter of an escape. -/
def hexLength? : Char → Option Nat
  | 'x' => some 2
  | 'u' => some 4
  | 'U' => some 8
  | _ => none

def hexNumber? (cs : List Char) : Option Nat :=
  cs.foldl (fun acc c => do return (← acc) * 16 + (← hexValue? c)) (some 0)

/-- The character of an escape behind its backslash, and the length of the escape. -/
def escape? (cs : List Char) : Option (Char × Nat) :=
  match cs with
  | [] => none
  | c :: rest =>
    match hexLength? c with
    | none => (letter? c).map (·, 1)
    | some n =>
      if rest.length < n then none
      else match hexNumber? (rest.take n) with
        | some v => if v.isValidChar then some (Char.ofNat v, n + 1) else none
        | none => none

/-- Reads on behind the characters `text`, which are in reverse. -/
def scan (isSingle : Bool) : Nat → Cursor → List Char → Gap → Option ScalarScan
  | 0, _, _, _ => none
  | fuel + 1, c, text, gap =>
    match c.rest with
    | [] => none
    | d :: rest =>
      if isBlank d then scan isSingle fuel (c.skip 1) text (gap.addBlank d)
      else if isBreak d then scan isSingle fuel c.lineBreak.2 text (gap.addBreak c.lineBreak.1)
      else if c.isDocumentMark then none
      else
        let text := gap.folded.reverse ++ text
        if isSingle then
          if d = '\'' then
            if rest.head? = some '\'' then scan isSingle fuel (c.skip 2) ('\'' :: text) .none
            else some ⟨.singleQuoted, text.reverse, c.skip 1, false⟩
          else scan isSingle fuel (c.skip 1) (d :: text) .none
        else if d = '"' then some ⟨.doubleQuoted, text.reverse, c.skip 1, false⟩
        else if d = '\\' then
          if rest.head?.any isBreak then
            scan isSingle fuel (c.skip 1).lineBreak.2 text (.breaks none [])
          else match escape? rest with
            | some (e, n) => scan isSingle fuel (c.skip (n + 1)) (e :: text) .none
            | none => none
        else scan isSingle fuel (c.skip 1) (d :: text) .none

end Quoted

namespace Block

/-- What happens to the line breaks at the end of a block. -/
inductive Chomping where
  | clip
  | strip
  | keep
  deriving DecidableEq, Repr

def chomping? : Char → Option Chomping
  | '+' => some .keep
  | '-' => some .strip
  | _ => none

/-- A digit that gives the indentation; zero is refused. -/
def increment? (c : Char) : Option Nat :=
  (Numeral.digit? c).filter (· ≠ 0)

/-- Chomping and indentation behind the mark of a block, in either order. -/
def head? (c : Cursor) : Option (Chomping × Option Nat × Cursor) :=
  match c.rest with
  | d :: e :: _ =>
    match chomping? d, Numeral.isDigit e with
    | some k, true => (increment? e).map fun n => (k, some n, c.skip 2)
    | some k, false => some (k, none, c.skip 1)
    | none, _ =>
      if Numeral.isDigit d then
        match increment? d, chomping? e with
        | some n, some k => some (k, some n, c.skip 2)
        | some n, none => some (.clip, some n, c.skip 1)
        | none, _ => none
      else some (.clip, none, c)
  | [d] =>
    match chomping? d with
    | some k => some (k, none, c.skip 1)
    | none =>
      if Numeral.isDigit d then (increment? d).map fun n => (.clip, some n, c.skip 1)
      else some (.clip, none, c)
  | [] => some (.clip, none, c)

/-- Past spaces, no further than a column if there is one. -/
def skipSpaces (indent : Option Nat) (c : Cursor) : Cursor :=
  let spaces := (c.rest.takeWhile (· = ' ')).length
  match indent with
  | none => c.skip spaces
  | some n => c.skip (min spaces (n - c.column))

/-- Empty lines: their breaks, the deepest column that one of them reaches, and the place behind. -/
def emptyLines (indent : Option Nat) : Nat → Nat → List Char → Cursor →
    Option (List Char × Nat × Cursor)
  | 0, _, _, _ => none
  | fuel + 1, deepest, breaks, c =>
    let c := skipSpaces indent c
    let deepest := max deepest c.column
    let isShort := match indent with
      | none => true
      | some n => c.column < n
    match c.peek? with
    | some d =>
      if isShort && d = '\t' then none
      else if isBreak d then
        emptyLines indent fuel deepest (breaks ++ [c.lineBreak.1]) c.lineBreak.2
      else some (breaks, deepest, c)
    | none => some (breaks, deepest, c)

/-- The lines of a block, behind text in reverse, the break before the next line, and the empty lines
behind that break. -/
def lines (isFolded : Bool) (indent : Nat) : Nat → List Char → List Char → List Char → Bool → Cursor →
    Option (List Char × List Char × List Char × Cursor)
  | 0, _, _, _, _, _ => none
  | fuel + 1, text, lead, empties, afterBlank, c =>
    match c.peek? with
    | none => some (text, lead, empties, c)
    | some d =>
      if c.column ≠ indent then some (text, lead, empties, c)
      else
        let isJoined := isFolded && lead = ['\n'] && !afterBlank && !isBlank d
        let joint :=
          if isJoined then (if empties.isEmpty then [' '] else empties) else lead ++ empties
        let (line, next) := c.span fun e => !isBreak e
        let text := line.reverse ++ joint.reverse ++ text
        if next.rest.isEmpty then some (text, [], [], next)
        else match emptyLines (some indent) (next.rest.length + 1) 0 [] next.lineBreak.2 with
          | none => none
          | some (empties, _, after) =>
            lines isFolded indent fuel text [next.lineBreak.1] empties (isBlank d) after

/-- A block behind its mark, in a structure of the given indentation. -/
def scan (isFolded : Bool) (parent : Int) (c : Cursor) : Option ScalarScan := do
  let (chomping, increment, c) ← head? c
  let c := c.skipBlanks.skipComment
  let c ← match c.peek? with
    | none => some c
    | some d => if isBreak d then some c.lineBreak.2 else none
  let fuel := c.rest.length + 1
  let fixed := increment.map fun n => if 0 ≤ parent then parent.toNat + n else n
  let (empties, deepest, c) ← emptyLines fixed fuel 0 [] c
  let indent := match fixed with
    | some n => n
    | none => max deepest (max (parent + 1).toNat 1)
  let (text, lead, empties, c) ← lines isFolded indent fuel [] [] empties false c
  let ending := match chomping with
    | .strip => []
    | .clip => lead
    | .keep => lead ++ empties
  return ⟨if isFolded then .folded else .literal, text.reverse ++ ending, c, true⟩

end Block

end FeedClient.Yaml
