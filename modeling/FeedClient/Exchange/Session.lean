import FeedClient.Json.Reader

/-!
# Sessions

What a service returns for a sign-in: the account, and the tokens that stand for
it in later requests.
-/
namespace FeedClient

open Json (Reader record)

structure Session where
  did : String
  handle : String
  email : Option String
  accessToken : Option String
  refreshToken : Option String
  deriving DecidableEq, Repr

namespace Session

def readJson : Reader Session :=
  record ["did", "handle", "email", "accessJwt", "refreshJwt"] fun s => do
    return {
      did := ← s.required "did" Reader.text
      handle := ← s.required "handle" Reader.text
      email := ← s.optional "email" Reader.text
      accessToken := ← s.optional "accessJwt" Reader.text
      refreshToken := ← s.optional "refreshJwt" Reader.text }

def toJson (s : Session) : Json :=
  Json.ofMembers [("did", .text s.did), ("handle", .text s.handle),
    ("email", Json.ofOption .text s.email), ("accessJwt", Json.ofOption .text s.accessToken),
    ("refreshJwt", Json.ofOption .text s.refreshToken)]

end Session

end FeedClient
