import FeedClient.Yaml.Scalar

/-!
# Tokens of a YAML text

Tokens make the structure of a text explicit: where a block begins and ends by
its indentation, and which scalar is a key. A key is only recognized at the
colon behind it. So tokens are appended as they are read, what a colon opens is
kept aside with the place where it belongs, and both are merged at the end.
-/
namespace FeedClient.Yaml

inductive Token where
  | version
  /-- A short form for the beginnings of tags. -/
  | tagHandle (handle expansion : String)
  | documentStart
  | documentEnd
  | sequenceStart
  | mappingStart
  | blockEnd
  | flowSequenceStart
  | flowSequenceEnd
  | flowMappingStart
  | flowMappingEnd
  | entry
  | comma
  | key
  | value
  | alias (name : String)
  | anchor (name : String)
  | tag (handle rest : String)
  | scalar (style : Style) (text : String)
  deriving DecidableEq, Repr

/-- A token that may turn out to begin a key. -/
structure Candidate where
  /-- The number of tokens before it. -/
  position : Nat
  index : Nat
  line : Nat
  column : Nat
  /-- Whether only a key can stand there. -/
  isRequired : Bool
  deriving DecidableEq, Repr

/-- The longest key, in characters. -/
def keyLimit : Nat := 1024

/-- What has been read of a text. -/
structure Layout where
  cursor : Cursor
  /-- The tokens, the last one first. -/
  tokens : List Token
  /-- What belongs before the token of a position. -/
  openings : List (Nat × List Token)
  /-- The columns of the open blocks, the innermost first. -/
  blocks : List Nat
  /-- The candidates for keys: one for each open flow collection, and one outside of them. -/
  candidates : List (Option Candidate)
  /-- Whether a key may begin here. -/
  keyAllowed : Bool

namespace Layout

def start (s : String) : Layout := ⟨Cursor.start s, [], [], [], [none], true⟩

/-- The column of the innermost block, which is -1 outside of all blocks. -/
def indent (l : Layout) : Int :=
  match l.blocks with
  | [] => -1
  | column :: _ => column

def inFlow (l : Layout) : Bool := 1 < l.candidates.length

def emit (l : Layout) (t : Token) : Layout := { l with tokens := t :: l.tokens }

def moveTo (l : Layout) (c : Cursor) : Layout := { l with cursor := c }

def allowKey (l : Layout) (b : Bool) : Layout := { l with keyAllowed := b }

/-- Past white space and comments; behind a line break a key may begin. -/
def skipSpace : Nat → Layout → Layout
  | 0, l => l
  | fuel + 1, l =>
    match l.cursor.peek? with
    | none => l
    | some c =>
      if c = ' ' || (c = '\t' && (l.inFlow || !l.keyAllowed)) then
        skipSpace fuel (l.moveTo (l.cursor.skip 1))
      else if c = '#' then skipSpace fuel (l.moveTo l.cursor.skipComment)
      else if isBreak c then
        skipSpace fuel ((l.moveTo l.cursor.lineBreak.2).allowKey (l.keyAllowed || !l.inFlow))
      else l

def isStale (l : Layout) (k : Candidate) : Bool :=
  k.line < l.cursor.line || k.index + keyLimit < l.cursor.index

/-- Gives up the candidates on other lines; a required one must not be given up. -/
def dropStale (l : Layout) : Option Layout :=
  if l.candidates.any fun k => k.any fun k => l.isStale k && k.isRequired then none
  else some { l with candidates := l.candidates.map fun k => k.filter fun k => !l.isStale k }

/-- Gives up the innermost candidate. -/
def dropCandidate (l : Layout) : Option Layout :=
  match l.candidates with
  | some k :: rest => if k.isRequired then none else some { l with candidates := none :: rest }
  | none :: _ => some l
  | [] => some l

/-- Takes the next token for a candidate, if a key may begin here. -/
def saveCandidate (l : Layout) : Option Layout :=
  if l.keyAllowed then do
    let l ← l.dropCandidate
    let isRequired := !l.inFlow && l.indent = l.cursor.column
    let k : Candidate :=
      ⟨l.tokens.length, l.cursor.index, l.cursor.line, l.cursor.column, isRequired⟩
    return { l with candidates := some k :: l.candidates.tail }
  else some l

/-- Closes the blocks that are deeper than a column. -/
def closeBlocks (column : Int) (l : Layout) : Layout :=
  if l.inFlow then l
  else
    let closed := l.blocks.takeWhile fun (b : Nat) => decide (column < (b : Int))
    { l with
      tokens := closed.map (fun _ => Token.blockEnd) ++ l.tokens
      blocks := l.blocks.drop closed.length }

/-- Whether a structure at a column opens a block. -/
def opens (l : Layout) (column : Nat) : Bool := !l.inFlow && l.indent < column

/-- Opens a block at the cursor, if it is deeper than the innermost one. -/
def openBlock (l : Layout) (t : Token) : Layout :=
  if l.opens l.cursor.column then
    { l.emit t with blocks := l.cursor.column :: l.blocks }
  else l

/-- Between documents: all blocks end. -/
def endDocument (l : Layout) : Option Layout := do
  let l ← (l.closeBlocks (-1)).dropCandidate
  return l.allowKey false

def takeDocumentMark (l : Layout) : Option Layout := do
  let t := if l.cursor.peek? = some '-' then Token.documentStart else .documentEnd
  let l ← l.endDocument
  return (l.emit t).moveTo (l.cursor.skip 3)

def takeFlowStart (t : Token) (l : Layout) : Option Layout := do
  let l ← l.saveCandidate
  let l := { l with candidates := none :: l.candidates, keyAllowed := true }
  return (l.emit t).moveTo (l.cursor.skip 1)

def takeFlowEnd (t : Token) (l : Layout) : Option Layout := do
  let l ← l.dropCandidate
  let candidates := if l.inFlow then l.candidates.tail else l.candidates
  let l := { l with candidates := candidates, keyAllowed := false }
  return (l.emit t).moveTo (l.cursor.skip 1)

def takeComma (l : Layout) : Option Layout := do
  let l ← l.dropCandidate
  return ((l.allowKey true).emit .comma).moveTo (l.cursor.skip 1)

/-- A dash or a question mark, which may open a block. -/
def takeMark (opening t : Token) (keyAfter : Bool) (l : Layout) : Option Layout := do
  if !l.inFlow && !l.keyAllowed then none
  let l ← (l.openBlock opening).dropCandidate
  return ((l.allowKey keyAfter).emit t).moveTo (l.cursor.skip 1)

/-- A colon: what stands before it on the line is a key, unless nothing does. -/
def takeColon (l : Layout) : Option Layout :=
  match l.candidates with
  | some k :: rest =>
    let opened := l.opens k.column
    let tokens := if opened then [Token.mappingStart, .key] else [.key]
    let l := { l with
      openings := (k.position, tokens) :: l.openings
      blocks := if opened then k.column :: l.blocks else l.blocks
      candidates := none :: rest
      keyAllowed := false }
    some ((l.emit .value).moveTo (l.cursor.skip 1))
  | _ =>
    if !l.inFlow && !l.keyAllowed then none
    else
      let l := (l.openBlock .mappingStart).allowKey (!l.inFlow)
      some ((l.emit .value).moveTo (l.cursor.skip 1))

def isNameChar (c : Char) : Bool := c.isAlphanum || c = '_' || c = '-'

/-- The name behind an ampersand or an asterisk. -/
def takeName (token : String → Token) (l : Layout) : Option Layout := do
  let l ← l.saveCandidate
  let (name, c) := (l.cursor.skip 1).span isNameChar
  let isEnded := c.isGap 0 || c.peek?.any fun d => "?:,]\x7d%@`".toList.contains d
  if name.isEmpty || !isEnded then none
  else some (((l.allowKey false).emit (token (String.ofList name))).moveTo c)

def isTagChar (c : Char) : Bool :=
  c.isAlphanum || "_-;/?:@&=+$.!~*'()%,[]".toList.contains c

def isTagEnd (inFlow : Bool) (c : Cursor) : Bool :=
  c.isGap 0 || (inFlow && c.peek? = some ',')

/-- The two parts of a tag behind its exclamation mark. -/
def tag? (inFlow : Bool) (c : Cursor) : Option (Token × Cursor) :=
  match c.rest with
  | '<' :: _ =>
    let (uri, next) := (c.skip 1).span isTagChar
    if next.peek? = some '>' && !uri.isEmpty then
      some (.tag "" (String.ofList uri), next.skip 1)
    else none
  | _ =>
    let (word, next) := c.span fun d => isTagChar d && !(inFlow && Plain.isFlowMark d)
    let name := word.takeWhile isNameChar
    match word.drop name.length with
    | '!' :: rest =>
      if rest.isEmpty then none
      else some (.tag (String.ofList ('!' :: name ++ ['!'])) (String.ofList rest), next)
    | _ => some (.tag "!" (String.ofList word), next)

def takeTag (l : Layout) : Option Layout := do
  let l ← l.saveCandidate
  let (t, c) ← tag? l.inFlow (l.cursor.skip 1)
  if isTagEnd l.inFlow c then some (((l.allowKey false).emit t).moveTo c) else none

def emitScan (l : Layout) (s : ScalarScan) : Layout :=
  (l.emit (.scalar s.style (String.ofList s.text))).moveTo s.next

def takeBlock (isFolded : Bool) (l : Layout) : Option Layout := do
  let l ← l.dropCandidate
  let s ← Block.scan isFolded l.indent (l.cursor.skip 1)
  return (l.emitScan s).allowKey true

def takeQuoted (isSingle : Bool) (l : Layout) : Option Layout := do
  let l ← l.saveCandidate
  let s ← Quoted.scan isSingle l.cursor.rest.length (l.cursor.skip 1) [] .none
  return (l.emitScan s).allowKey false

def takePlain (l : Layout) : Option Layout := do
  let l ← l.saveCandidate
  let s ← Plain.scan l.inFlow (l.indent + 1) (l.cursor.rest.length + 1) l.cursor [] .none
  return (l.emitScan s).allowKey s.endsLine

/-- Past the end of a line on which nothing but a comment is left. -/
def lineEnd? (c : Cursor) : Option Cursor :=
  let c := c.skipBlanks.skipComment
  match c.peek? with
  | none => some c
  | some d => if isBreak d then some c.lineBreak.2 else none

/-- A line that begins with a percent sign: the version, or a short form for tags. -/
def takeDirective (l : Layout) : Option Layout := do
  let l ← l.endDocument
  let (name, c) := (l.cursor.skip 1).span isNameChar
  let isWord := fun (d : Char) => !isBlank d && !isBreak d
  if name = "YAML".toList then
    let (version, c) := c.skipBlanks.span isWord
    if version = "1.1".toList || version = "1.2".toList then
      return (l.emit .version).moveTo (← lineEnd? c)
    else none
  else if name = "TAG".toList then
    let (handle, c) := c.skipBlanks.span isWord
    let (expansion, c) := c.skipBlanks.span isWord
    if handle.head? = some '!' && handle.getLast? = some '!' && !expansion.isEmpty then
      return (l.emit (.tagHandle (String.ofList handle) (String.ofList expansion))).moveTo
        (← lineEnd? c)
    else none
  else none

/-- Characters that begin something else than a plain scalar. -/
def indicators : List Char := "-?:,[]\x7b\x7d#&*!|>'\"%@`".toList

/-- Whether a plain scalar can begin with a character. -/
def beginsPlain (l : Layout) (c : Char) : Bool :=
  !(isBlank c || indicators.contains c) ||
  (c = '-' && !(l.cursor.lookahead? 1).any isBlank) ||
  (!l.inFlow && (c = '?' || c = ':') && !l.cursor.isGap 1)

/-- Reads the token that begins with a character. -/
def take (l : Layout) (c : Char) : Option Layout :=
  if l.cursor.column = 0 && c = '%' then l.takeDirective
  else if l.cursor.isDocumentMark then l.takeDocumentMark
  else if c = '[' then l.takeFlowStart .flowSequenceStart
  else if c = '\x7b' then l.takeFlowStart .flowMappingStart
  else if c = ']' then l.takeFlowEnd .flowSequenceEnd
  else if c = '\x7d' then l.takeFlowEnd .flowMappingEnd
  else if c = ',' then l.takeComma
  else if c = '-' && l.cursor.isGap 1 then l.takeMark .sequenceStart .entry true
  else if c = '?' && (l.inFlow || l.cursor.isGap 1) then l.takeMark .mappingStart .key (!l.inFlow)
  else if c = ':' && (l.inFlow || l.cursor.isGap 1) then l.takeColon
  else if c = '*' then l.takeName .alias
  else if c = '&' then l.takeName .anchor
  else if c = '!' then l.takeTag
  else if c = '|' && !l.inFlow then l.takeBlock false
  else if c = '>' && !l.inFlow then l.takeBlock true
  else if c = '\'' then l.takeQuoted true
  else if c = '"' then l.takeQuoted false
  else if l.beginsPlain c then l.takePlain
  else none

/-- Reads to the end of the text. -/
def run : Nat → Layout → Option Layout
  | 0, _ => none
  | fuel + 1, l =>
    match (skipSpace (l.cursor.rest.length + 1) l).dropStale with
    | none => none
    | some l =>
      let l := l.closeBlocks l.cursor.column
      match l.cursor.peek? with
      | none => l.endDocument
      | some c => (l.take c).bind (run fuel)

/-- The tokens with what belongs before them. -/
def merged (l : Layout) : List Token :=
  (l.tokens.reverse.zipIdx).flatMap fun (t, i) =>
    (l.openings.filter fun o => o.1 = i).flatMap (·.2) ++ [t]

end Layout

/-- The tokens of a text, if it can be read. -/
def Token.ofText? (s : String) : Option (List Token) :=
  let l := Layout.start s
  if l.cursor.rest.all isAllowed then
    (l.run (l.cursor.rest.length + 1)).map Layout.merged
  else none

end FeedClient.Yaml
