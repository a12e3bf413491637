/-!
# Blank text

White space is the Unicode property of that name. Trimming takes it off both
ends of a text, and a text is blank if nothing is left of it.
-/
namespace FeedClient.Text

/-- The Unicode property White_Space. -/
def isSpace (c : Char) : Bool :=
  let n := c.toNat
  (9 ≤ n && n ≤ 13) || n == 0x20 || n == 0x85 || n == 0xA0 || n == 0x1680 ||
  (0x2000 ≤ n && n ≤ 0x200A) || n == 0x2028 || n == 0x2029 || n == 0x202F || n == 0x205F ||
  n == 0x3000

def trimStart (cs : List Char) : List Char := cs.dropWhile isSpace

def trimEnd (cs : List Char) : List Char := (cs.reverse.dropWhile isSpace).reverse

/-- A text without the white space at its ends. -/
def trim (s : String) : String := String.ofList (trimEnd (trimStart s.toList))

/-- A text of white space only, the empty one included. -/
def isBlank (s : String) : Bool := s.toList.all isSpace

/-- A text that says something, or nothing. -/
def nonblank? (s : String) : Option String := if isBlank s then none else some s

/-- The characters of a text up to a separator, and those after it. -/
def splitFirst (separator : Char) : List Char → Option (List Char × List Char)
  | [] => none
  | c :: cs =>
    if c = separator then some ([], cs)
    else (splitFirst separator cs).map fun (l, r) => (c :: l, r)

/-- The pieces between separators; never fewer than one. -/
def splitAll (separator : Char) : List Char → List (List Char)
  | [] => [[]]
  | c :: cs =>
    if c = separator then [] :: splitAll separator cs
    else match splitAll separator cs with
      | [] => [[c]]
      | piece :: pieces => (c :: piece) :: pieces

end FeedClient.Text
