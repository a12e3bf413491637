import FeedClient.Exchange.Request
import FeedClient.Exchange.Session
import FeedClient.Failure.Error

/-!
# Signers

A signer gives the authorization value of a request, or the reason why it has
none. It knows the account in whose name it signs, if any, and whether answers
may come compressed.
-/
namespace FeedClient

structure Signer where
  /-- The authorization value for a method, an address and parameters. -/
  sign : Method → String → List (String × String) → Except RequestError String
  did : Option String
  acceptsCompression : Bool

namespace Signer

/-- The token that a session offers, unless it is blank. -/
def token? (session : Option Session) : Option String :=
  (session.bind (·.accessToken)).bind Text.nonblank?

/-- Signs with the access token of a session; a session with an empty account has no account. -/
def bearer (session : Option Session) : Signer where
  sign _ _ _ :=
    match token? session with
    | some token => .ok ("Bearer " ++ token)
    | none => .error (.signing "no access token in the current session")
  did := (session.map (·.did)).filter (· ≠ "")
  acceptsCompression := true

/-- Signs every request with the same value. -/
def constant (authorization : String) (did : Option String) (acceptsCompression : Bool) : Signer where
  sign _ _ _ := .ok authorization
  did := did
  acceptsCompression := acceptsCompression

end Signer

end FeedClient
