import FeedClient.Text.Invisible

/-!
# Quoted text for diagnostics

A text between quotation marks, in which the marks, backslashes, line ends and
invisible characters are written as escapes. So the quoted form shows every
character of the text.
-/
namespace FeedClient.Text

/-- One character inside of quotation marks. -/
def quotedChar (c : Char) : List Char :=
  if c = '"' then ['\\', '"']
  else if c = '\\' then ['\\', '\\']
  else if c = '\n' then ['\\', 'n']
  else if c = '\r' then ['\\', 'r']
  else if c = '\t' then ['\\', 't']
  else if c.toNat = 0 then ['\\', '0']
  else if isInvisible c then ['\\', 'u', '\x7b'] ++ Nat.toDigits 16 c.toNat ++ ['\x7d']
  else [c]

def quoted (s : String) : String := String.ofList ('"' :: s.toList.flatMap quotedChar ++ ['"'])

end FeedClient.Text
