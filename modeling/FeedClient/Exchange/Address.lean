import FeedClient.Text.Blank
import FeedClient.Text.Numeral
import FeedClient.Text.Utf8

/-!
# Addresses

Which texts name a place that a request can be sent to, directly or through a
proxy. An address has a scheme; behind it, an authority with a host and perhaps
a port.
-/
namespace FeedClient.Address

/-- What the beginning of an address comes to. -/
inductive Shape where
  /-- No scheme at all. -/
  | schemeless
  /-- A scheme without a host behind it. -/
  | hostless (scheme : String)
  /-- A host, which is well-formed or not. -/
  | hosted (scheme : String) (isValid : Bool)
  deriving DecidableEq, Repr

def isLetter (c : Char) : Bool := c.isAlpha

def isSchemeChar (c : Char) : Bool := c.isAlphanum || c = '+' || c = '-' || c = '.'

/-- An address without control characters and spaces at its ends, and without line ends and tabs. -/
def cleaned (s : String) : List Char :=
  let isOuter := fun (c : Char) => c.toNat ≤ 32
  let inner := (((s.toList.dropWhile isOuter).reverse).dropWhile isOuter).reverse
  inner.filter fun c => c ≠ '\t' && c ≠ '\n' && c ≠ '\r'

/-- The scheme in lower case, and what follows the colon. -/
def scheme? : List Char → Option (String × List Char)
  | c :: cs =>
    if isLetter c then
      match cs.dropWhile isSchemeChar with
      | ':' :: rest =>
        some (String.ofList ((c :: cs.takeWhile isSchemeChar).map Char.toLower), rest)
      | _ => none
    else none
  | [] => none

/-- Schemes whose addresses always have a host. -/
def hostedSchemes : List String := ["http", "https", "ws", "wss", "ftp"]

/-- What stands behind the last sign that separates a user from a host. -/
def afterUser (cs : List Char) : List Char :=
  if cs.contains '@' then (cs.reverse.takeWhile (· ≠ '@')).reverse else cs

/-- Host and port of an authority; a colon inside of brackets separates nothing. -/
def hostPort (cs : List Char) : List Char × List Char :=
  match cs with
  | '[' :: _ =>
    let inside := cs.takeWhile (· ≠ ']')
    match cs.dropWhile (· ≠ ']') with
    | [] => (inside, [])
    | bracket :: rest => (inside ++ [bracket], rest)
  | _ => (cs.takeWhile (· ≠ ':'), cs.dropWhile (· ≠ ':'))

/-- Nothing, or a colon with digits of a value below 65536. -/
def isPort : List Char → Bool
  | [] => true
  | ':' :: ds => ds.all Numeral.isDigit && Numeral.value 0 ds < 65536
  | _ => false

def hexDigit? (c : Char) : Option Nat :=
  if c.isDigit then some (c.toNat - 48)
  else if 'a' ≤ c ∧ c ≤ 'f' then some (c.toNat - 87)
  else if 'A' ≤ c ∧ c ≤ 'F' then some (c.toNat - 55)
  else none

/-- The bytes of a host in which escapes stand for bytes. -/
def unescaped : List Char → List UInt8
  | [] => []
  | '%' :: a :: b :: cs =>
    match hexDigit? a, hexDigit? b with
    | some x, some y => UInt8.ofNat (x * 16 + y) :: unescaped cs
    | _, _ => 37 :: unescaped (a :: b :: cs)
  | c :: cs => String.utf8EncodeChar c ++ unescaped cs

def isForbidden (c : Char) : Bool :=
  c.toNat ≤ 32 || c.toNat = 127 || c = Text.replacementChar || "#/:<>?@[\\]^|%".toList.contains c

def digitsValue (base : Nat) (cs : List Char) : Option Nat :=
  cs.foldl (fun acc c => do
    let d ← hexDigit? c
    if d < base then some ((← acc) * base + d) else none) (some 0)

/-- A number of an address of four bytes: decimal, octal behind a zero, or hexadecimal. -/
def byteNumber? : List Char → Option Nat
  | '0' :: 'x' :: cs => digitsValue 16 cs
  | '0' :: 'X' :: cs => digitsValue 16 cs
  | '0' :: c :: cs => digitsValue 8 (c :: cs)
  | cs => if cs.isEmpty then none else digitsValue 10 cs

/-- Labels that are the numbers of an address: the last one fills the remaining bytes. -/
def isFourBytes (labels : List (List Char)) : Bool :=
  labels.length ≤ 4 &&
  match labels.reverse.map byteNumber? with
  | some last :: others =>
    last < Nat.pow 256 (5 - labels.length) && others.all fun n => n.any (· < 256)
  | _ => false

/-- Whether a label makes its host a numeric one. -/
def isNumericLabel (cs : List Char) : Bool :=
  (!cs.isEmpty && cs.all Numeral.isDigit) ||
  match cs with
  | '0' :: x :: rest => (x = 'x' || x = 'X') && rest.all fun c => (hexDigit? c).isSome
  | _ => false

/-- A name, or the numbers of an address of four bytes. -/
def isNamedHost (cs : List Char) : Bool :=
  let name := Text.ofUtf8Lossy (unescaped cs)
  if name.isEmpty || name.any isForbidden then false
  else
    let labels := Text.splitAll '.' name
    let labels := if labels.length > 1 && labels.getLast? = some [] then labels.dropLast else labels
    match labels.getLast? with
    | some label => if isNumericLabel label then isFourBytes labels else true
    | none => false

/-- One to four hexadecimal digits. -/
def isGroup (cs : List Char) : Bool :=
  1 ≤ cs.length && cs.length ≤ 4 && cs.all fun c => (hexDigit? c).isSome

/-- Four decimal numbers below 256. -/
def isDotted (cs : List Char) : Bool :=
  let parts := Text.splitAll '.' cs
  parts.length = 4 && parts.all fun p =>
    1 ≤ p.length && p.length ≤ 3 && p.all Numeral.isDigit && Numeral.value 0 p < 256 &&
    (p.length = 1 || p.head? ≠ some '0')

/-- The number of 16-bit groups that a list of groups stands for. -/
def groupCount? (groups : List (List Char)) : Option Nat :=
  match groups.reverse with
  | last :: others =>
    if others.all isGroup then
      if isGroup last then some groups.length
      else if isDotted last then some (groups.length + 1)
      else none
    else none
  | [] => some 0

def groupsOf (cs : List Char) : List (List Char) := if cs.isEmpty then [] else Text.splitAll ':' cs

/-- What stands before and behind the first pair of colons. -/
def splitGap : List Char → Option (List Char × List Char)
  | ':' :: ':' :: cs => some ([], cs)
  | c :: cs => (splitGap cs).map fun (l, r) => (c :: l, r)
  | [] => none

/-- Eight groups, or fewer with one gap among them. -/
def isSixteenBytes (cs : List Char) : Bool :=
  match splitGap cs with
  | none => groupCount? (groupsOf cs) = some 8
  | some (before, behind) =>
    match groupCount? (groupsOf before), groupCount? (groupsOf behind) with
    | some m, some n => m + n < 8 && (groupsOf before).all isGroup
    | _, _ => false

def isHost (cs : List Char) : Bool :=
  match cs with
  | '[' :: rest => rest.getLast? = some ']' && isSixteenBytes rest.dropLast
  | _ => isNamedHost cs

def isAuthority (cs : List Char) : Bool :=
  let (host, port) := hostPort (afterUser cs)
  isHost host && isPort port

def shape (s : String) : Shape :=
  match scheme? (cleaned s) with
  | none => .schemeless
  | some (scheme, rest) =>
    if scheme ∈ hostedSchemes then
      let authority := (rest.dropWhile fun c => c = '/' || c = '\\').takeWhile fun c =>
        c ≠ '/' && c ≠ '\\' && c ≠ '?' && c ≠ '#'
      .hosted scheme (isAuthority authority)
    else match rest with
      | '/' :: '/' :: cs =>
        let authority := cs.takeWhile fun c => c ≠ '/' && c ≠ '?' && c ≠ '#'
        if authority.isEmpty then .hostless scheme else .hosted scheme (isAuthority authority)
      | _ => .hostless scheme

def webSchemes : List String := ["http", "https"]

/-- Whether a request can be sent to an address. -/
def isSendable (s : String) : Bool :=
  match shape s with
  | .hosted scheme isValid => isValid && webSchemes.contains scheme
  | _ => false

/-- Whether an address names a proxy; one without scheme or host is read again as a web address. -/
def isProxy (s : String) : Bool :=
  match shape s with
  | .hosted .. => isSendable s
  | .schemeless | .hostless _ => isSendable ("http://" ++ s)

/-- Whether a text can be the value of a request header. -/
def isHeaderValue (s : String) : Bool :=
  s.toList.all fun c => c = '\t' || (32 ≤ c.toNat && c.toNat ≠ 127)

end FeedClient.Address
