import Gatehouse.Base64
import Gatehouse.Hash.Sha1
import Gatehouse.OAuth.BaseString

/-!
# OAuth signatures

- `SignatureMethod`: the two methods that are understood.
- `signingKey`: the encoded secrets of consumer and token.
- `sign`: the signature over a base string.
-/

namespace Gatehouse.OAuth

/-- How a signature is made. -/
inductive SignatureMethod where
  | hmacSha1
  | plainText
deriving DecidableEq, Repr, Inhabited

namespace SignatureMethod

/-- The name of a method. -/
def text : SignatureMethod → String
  | .hmacSha1 => "HMAC-SHA1"
  | .plainText => "PLAINTEXT"

/-- The method of the given name. -/
def ofText (name : String) : Except AuthError SignatureMethod :=
  if name = hmacSha1.text then .ok .hmacSha1
  else if name = plainText.text then .ok .plainText
  else .error (.unsupportedSignatureMethod name)

end SignatureMethod

/-- The key of a signature. -/
def signingKey (consumerSecret tokenSecret : String) : List Char :=
  Text.join ['&'] [Percent.oauthEncode consumerSecret.toList,
    Percent.oauthEncode tokenSecret.toList]

/-- The signature over a base string. -/
def sign (method : SignatureMethod) (baseString consumerSecret tokenSecret : String) : String :=
  let key := signingKey consumerSecret tokenSecret
  match method with
  | .hmacSha1 =>
    String.ofList (Base64.encode (Hash.hmacSha1 (Utf8.encode key) (Utf8.ofString baseString)))
  | .plainText => String.ofList key

end Gatehouse.OAuth
