import Gatehouse.Digest.Credentials
import Gatehouse.Digest.Nonce

/-!
# Digest responses

What a client that knows the password answers to a nonce:

    A1       = md5 (username ":" realm ":" password)
    A2       = md5 (method ":" uri)
    response = md5 (A1 ":" nonce ":" A2)
    response = md5 (A1 ":" nonce ":" nc ":" cnonce ":auth:" A2)      with protection

- `secret`: the hash `A1`, which may be what is stored.
- `preimage`: the text that is hashed last.
- `expected`: the response.
-/

namespace Gatehouse.Digest

/-- The hash of a user's name, realm and password. -/
def passwordHash (username realm password : String) : String :=
  String.ofList (md5Hex (username.toList ++ ':' :: realm.toList ++ ':' :: password.toList))

/-- The secret of a user: the stored password, hashed unless that has been done before. -/
def secret (c : Credentials) (password : String) (alreadyEncoded : Bool) : String :=
  if alreadyEncoded then password else passwordHash c.username c.realm password

/-- The hash of a request's method and address. -/
def requestHash (method uri : String) : String :=
  String.ofList (md5Hex (method.toList ++ ':' :: uri.toList))

/-- The text that is hashed last. -/
def preimage (c : Credentials) (a1 a2 : String) : Except AuthError (List Char) :=
  match c.qop with
  | none => .ok (a1.toList ++ ':' :: c.nonce.toList ++ ':' :: a2.toList)
  | some qop =>
    if qop = "auth" then
      .ok (a1.toList ++ ':' :: c.nonce.toList ++ ':' :: (c.nc.getD "").toList
        ++ ':' :: (c.cnonce.getD "").toList ++ ":auth:".toList ++ a2.toList)
    else .error (.malformedHeader (.unsupportedProtection qop))

/-- The response of a client that knows the password. -/
def expected (c : Credentials) (method password : String) (alreadyEncoded : Bool) :
    Except AuthError String :=
  (preimage c (secret c password alreadyEncoded) (requestHash method c.uri)).map fun text =>
    String.ofList (md5Hex text)

end Gatehouse.Digest
