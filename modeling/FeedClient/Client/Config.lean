import FeedClient.Failure.Error
import FeedClient.Json.Reader
import FeedClient.Yaml.Node

/-!
# Client configurations

A configuration starts from default values and is changed in steps. Only a
checked one is used: its base address ends in a slash, without white space
around it, and its timeouts are not zero.
-/
namespace FeedClient

/-- A span of time. -/
structure Span where
  seconds : UInt64
  nanos : Nat
  deriving DecidableEq, Repr

namespace Span

def ofMicros (n : Nat) : Span := ⟨UInt64.ofNat (n / 1000000), n % 1000000 * 1000⟩

/-- Whole milliseconds, as far as 64 bits hold them. -/
def millis (s : Span) : UInt64 := UInt64.ofNat (s.seconds.toNat * 1000 + s.nanos / 1000000)

end Span

structure Config where
  baseUrl : String
  userAgent : String
  /-- Milliseconds until a response has to begin. -/
  timeout : UInt64
  /-- Milliseconds until its body has to end. -/
  bodyTimeout : UInt64
  proxy : Option String
  compression : Bool
  /-- Whether bodies are not kept. -/
  excludesRaw : Bool
  deriving DecidableEq, Repr

/-- An address without white space at its ends and with a slash behind it. -/
def normalizedUrl (s : String) : String :=
  let trimmed := Text.trim s
  if trimmed.toList.getLast? = some '/' then trimmed else trimmed ++ "/"

namespace Config

def default : Config where
  baseUrl := "https://bsky.social/"
  userAgent := "skyquery/0.1.0"
  timeout := 100000
  bodyTimeout := 300000
  proxy := none
  compression := true
  excludesRaw := false

/-- What is wrong with a configuration, the base address before the timeouts. -/
def fault? (c : Config) : Option String :=
  if Text.isBlank c.baseUrl then some "base_url must not be empty"
  else if c.timeout = 0 ∨ c.bodyTimeout = 0 then some "timeouts must be greater than zero"
  else none

def checked (c : Config) : Except ClientError Config :=
  match c.fault? with
  | some reason => .error (.configuration reason)
  | none => .ok { c with baseUrl := normalizedUrl c.baseUrl }

def fieldNames : List String :=
  ["base_url", "user_agent", "timeout_ms", "read_write_timeout_ms", "proxy", "enable_compression",
    "exclude_raw_json"]

def readJson : Json.Reader Config :=
  Json.record fieldNames fun s => do
    return {
      baseUrl := ← s.defaulted "base_url" default.baseUrl Json.Reader.text
      userAgent := ← s.defaulted "user_agent" default.userAgent Json.Reader.text
      timeout := ← s.defaulted "timeout_ms" default.timeout Json.Reader.uint64
      bodyTimeout := ← s.defaulted "read_write_timeout_ms" default.bodyTimeout Json.Reader.uint64
      proxy := ← s.defaultedOption "proxy" default.proxy Json.Reader.text
      compression := ← s.defaulted "enable_compression" default.compression Json.Reader.bool
      excludesRaw := ← s.defaulted "exclude_raw_json" default.excludesRaw Json.Reader.bool }

def toJson (c : Config) : Json :=
  Json.ofMembers [("base_url", .text c.baseUrl), ("user_agent", .text c.userAgent),
    ("timeout_ms", .integer c.timeout.toNat), ("read_write_timeout_ms", .integer c.bodyTimeout.toNat),
    ("proxy", Json.ofOption .text c.proxy), ("enable_compression", .bool c.compression),
    ("exclude_raw_json", .bool c.excludesRaw)]

end Config

/-- One change of a configuration. -/
inductive ConfigStep where
  | reset
  /-- Replaces the configuration by one that is read from YAML and checked. -/
  | yaml (text : String)
  /-- Takes a base address in its normal form. -/
  | baseUrl (url : String)
  /-- Takes a base address as it is. -/
  | rawBaseUrl (url : String)
  | userAgent (text : String)
  | timeout (span : Span)
  | bodyTimeout (span : Span)
  | timeoutMillis (n : UInt64)
  | bodyTimeoutMillis (n : UInt64)
  | proxy (url : String)
  /-- Takes a proxy as it is, or none. -/
  | rawProxy (url : Option String)
  | compression (enabled : Bool)
  | excludeRaw (excluded : Bool)
  | check
  deriving DecidableEq, Repr

end FeedClient
