import FeedClient.Exchange.Headers
import FeedClient.Text.Utf8

/-!
# The text of a body

A body is text in the character set that its content type names, or in UTF-8. A
byte order mark in front of it says UTF-8 in any case and is not part of the
text.
-/
namespace FeedClient

/-- The characters of the bytes 0x80 to 0x9F in the western character set. -/
def westernControls : List Nat :=
  [0x20AC, 0x81, 0x201A, 0x0192, 0x201E, 0x2026, 0x2020, 0x2021, 0x02C6, 0x2030, 0x0160, 0x2039,
    0x0152, 0x8D, 0x017D, 0x8F, 0x90, 0x2018, 0x2019, 0x201C, 0x201D, 0x2022, 0x2013, 0x2014,
    0x02DC, 0x2122, 0x0161, 0x203A, 0x0153, 0x9D, 0x017E, 0x0178]

def westernChar (b : UInt8) : Char :=
  if 0x80 ≤ b.toNat ∧ b.toNat ≤ 0x9F then Char.ofNat (westernControls.getD (b.toNat - 0x80) 0xFFFD)
  else Char.ofNat b.toNat

/-- Names of the western character set. -/
def westernNames : List String :=
  ["ascii", "us-ascii", "ansi_x3.4-1968", "iso-8859-1", "iso8859-1", "iso88591", "iso_8859-1",
    "iso_8859-1:1987", "iso-ir-100", "ibm819", "cp819", "csisolatin1", "latin1", "l1", "cp1252",
    "windows-1252", "x-cp1252"]

/-- A text without the quotation marks around it. -/
def unquoted (cs : List Char) : List Char :=
  match cs with
  | '"' :: rest => if rest.getLast? = some '"' then rest.dropLast else cs
  | _ => cs

/-- The character set among the parameters of a content type, in lower case. -/
def charset? (contentType : String) : Option String :=
  (Text.splitAll ';' contentType.toList).tail.findSome? fun parameter =>
    match Text.splitFirst '=' (Text.trimEnd (Text.trimStart parameter)) with
    | some (name, value) =>
      if name.map Char.toLower = "charset".toList then
        some (String.ofList ((unquoted value).map Char.toLower))
      else none
    | none => none

def byteOrderMark : List UInt8 := [0xEF, 0xBB, 0xBF]

def bodyChars (charset : Option String) (bytes : List UInt8) : List Char :=
  if byteOrderMark.isPrefixOf bytes then Text.ofUtf8Lossy (bytes.drop 3)
  else if charset.any westernNames.contains then bytes.map westernChar
  else Text.ofUtf8Lossy bytes

def contentTypeHeader : String := "content-type"

/-- The text of a body behind the headers of its response. -/
def bodyText (headers : List Header) (bytes : List UInt8) : String :=
  let contentType := (firstHeader? headers contentTypeHeader).bind Header.text?
  String.ofList (bodyChars (contentType.bind charset?) bytes)

end FeedClient
