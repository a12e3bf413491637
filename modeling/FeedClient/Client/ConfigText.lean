import FeedClient.Client.Config

/-!
# Configurations in YAML

A configuration is a mapping that names the settings which differ from their
defaults. A text setting takes the text of any scalar; numbers and switches are
plain scalars of their own forms. Names that are not settings are passed over.
-/
namespace FeedClient

open Yaml (Node Style)

namespace Yaml.Node

def coreTag (name : String) : String := "tag:yaml.org,2002:" ++ name

def text? : Node → Option String
  | .scalar _ _ text => some text
  | _ => none

/-- The text of a scalar that can be something else than text. -/
def untyped? (typeName : String) : Node → Option String
  | .scalar .plain _ text => some text
  | .scalar .literal tag text => if tag = some (coreTag typeName) then some text else none
  | _ => none

def switch? (n : Node) : Option Bool :=
  match n.untyped? "bool" with
  | some text =>
    if text ∈ ["true", "True", "TRUE"] then some true
    else if text ∈ ["false", "False", "FALSE"] then some false
    else none
  | none => none

/-- Digits of a base, of a value of 64 bits. -/
def digits? (base : Nat) (cs : List Char) : Option UInt64 :=
  let digit? := fun (c : Char) => (Yaml.Quoted.hexValue? c).filter (· < base)
  if cs.isEmpty then none
  else
    ((cs.foldl (fun acc c => do return (← acc) * base + (← digit? c)) (some 0)).filter
      (· < Nat.pow 2 64)).map UInt64.ofNat

/-- A decimal number does not begin with a zero unless it is one. -/
def hasLeadingZero (cs : List Char) : Bool :=
  match cs with
  | '0' :: d :: ds => (d :: ds).all Numeral.isDigit
  | _ => false

/-- A number without minus sign: decimal, hexadecimal, octal or binary. -/
def number? (n : Node) : Option UInt64 :=
  match n.untyped? "int" with
  | none => none
  | some text =>
    let cs := match text.toList with
      | '+' :: cs => cs
      | cs => cs
    match cs with
    | '0' :: 'x' :: ds => digits? 16 ds
    | '0' :: 'o' :: ds => digits? 8 ds
    | '0' :: 'b' :: ds => digits? 2 ds
    | ds => if hasLeadingZero ds then none else digits? 10 ds

/-- A text, or nothing where a plain scalar is empty or says so. -/
def optionalText? : Node → Option (Option String)
  | .scalar .plain tag text =>
    let isNull := text ∈ ["null", "Null", "NULL", "~"]
    if tag = some (coreTag "null") then (if isNull then some none else none)
    else if tag.isNone && (text = "" || isNull) then some none
    else some (some text)
  | .scalar _ _ text => some (some text)
  | _ => none

end Yaml.Node

namespace Config

/-- A configuration under one pair of a mapping. -/
def set? (c : Config) (name : String) (n : Node) : Option Config :=
  match name with
  | "base_url" => n.text?.map fun s => { c with baseUrl := s }
  | "user_agent" => n.text?.map fun s => { c with userAgent := s }
  | "timeout_ms" => n.number?.map fun k => { c with timeout := k }
  | "read_write_timeout_ms" => n.number?.map fun k => { c with bodyTimeout := k }
  | "proxy" => n.optionalText?.map fun s => { c with proxy := s }
  | "enable_compression" => n.switch?.map fun b => { c with compression := b }
  | "exclude_raw_json" => n.switch?.map fun b => { c with excludesRaw := b }
  | _ => some c

/-- Whether no setting is named twice. -/
def namesOnce (names : List String) : Bool :=
  fieldNames.all fun field => names.count field ≤ 1

/-- The configuration of a document; an empty one changes nothing. -/
def ofNode? : Node → Option Config
  | .mapping pairs => do
    let named ← pairs.mapM fun (k, v) => k.text?.map (·, v)
    if namesOnce (named.map (·.1)) then
      named.foldlM (fun c (name, v) => c.set? name v) default
    else none
  | .scalar .plain _ "" => some default
  | _ => none

/-- The checked configuration of a text. -/
def ofYaml (text : String) : Except ClientError Config :=
  match (Node.ofText? text).bind ofNode? with
  | some c => c.checked
  | none => .error .unreadable

/-- A configuration after one step; a step that fails leaves it as it was. -/
def step (c : Config) : ConfigStep → Except ClientError Config
  | .reset => .ok default
  | .yaml text => ofYaml text
  | .baseUrl url => .ok { c with baseUrl := normalizedUrl url }
  | .rawBaseUrl url => .ok { c with baseUrl := url }
  | .userAgent text => .ok { c with userAgent := text }
  | .timeout span => .ok { c with timeout := span.millis }
  | .bodyTimeout span => .ok { c with bodyTimeout := span.millis }
  | .timeoutMillis n => .ok { c with timeout := n }
  | .bodyTimeoutMillis n => .ok { c with bodyTimeout := n }
  | .proxy url => .ok { c with proxy := some url }
  | .rawProxy url => .ok { c with proxy := url }
  | .compression enabled => .ok { c with compression := enabled }
  | .excludeRaw excluded => .ok { c with excludesRaw := excluded }
  | .check => c.checked

end Config

end FeedClient
