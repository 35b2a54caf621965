import Gatehouse.Text.Numeral
import Gatehouse.Text.Quoted

/-!
# Why authentication fails

- `NonceError`: a nonce that cannot be read.
- `HeaderFault`: a header, or a set of signed parameters, that does not make sense.
- `AuthError`: every reason to turn a request away, with its wording.

Only one reason is ever told to the caller: that the nonce was good once and has expired
(`AuthError.isStale`).
-/

namespace Gatehouse

/-- Why a nonce cannot be read. -/
inductive NonceError where
  | notBase64
  | wrongTokenCount (count : Nat)
  | nonNumericExpiry (text : String)
deriving DecidableEq, Repr, Inhabited

/-- The wording of the error. -/
def NonceError.message : NonceError → String
  | .notBase64 => "nonce is not base64 encoded"
  | .wrongTokenCount count =>
    "nonce should have yielded two tokens but was " ++ String.ofList (Numeral.ofNat count)
  | .nonNumericExpiry text => "nonce expiry " ++ Text.quoted text ++ " is not numeric"

/-- What is wrong with the credentials that a request carries. -/
inductive HeaderFault where
  | notDigest
  | missingDigestField
  | missingProtectionField
  | unsupportedProtection (qop : String)
  | missingParameter (name : String)
  | duplicateParameter (name : String)
  | invalidTimestamp (text : String)
  | notAscii
  | unsupportedScheme
  | other (text : String)
deriving DecidableEq, Repr, Inhabited

/-- The wording of the fault. -/
def HeaderFault.message : HeaderFault → String
  | .notDigest => "not a Digest header"
  | .missingDigestField => "missing mandatory digest value"
  | .missingProtectionField => "missing mandatory digest value for qop=auth (nc or cnonce)"
  | .unsupportedProtection qop => "unsupported qop: " ++ Text.quoted qop
  | .missingParameter name => "missing parameter " ++ name
  | .duplicateParameter name => "duplicate parameter " ++ name
  | .invalidTimestamp text => "invalid timestamp " ++ Text.quoted text
  | .notAscii => "authorization header is not ASCII"
  | .unsupportedScheme => "unsupported authorization scheme"
  | .other text => text

/-- Why a request is not authenticated. -/
inductive AuthError where
  | missingAuthHeader
  | malformedHeader (fault : HeaderFault)
  | malformedNonce (error : NonceError)
  | invalidRequestUrl (url : String)
  | unknownRealm (received expected : String)
  | nonceTampered
  | nonceExpired
  | userNotFound (name : String)
  | accountDisabled (name : String)
  | credentialMismatch
  | unknownConsumer (key : String)
  | unsupportedSignatureMethod (name : String)
  | unsupportedVersion (version : String)
  | timestampRefused (timestamp now : Int)
  | nonceReplayed
  | backendUnavailable (reason : String)
deriving DecidableEq, Repr, Inhabited

namespace AuthError

/-- The wording of the error. -/
def message : AuthError → String
  | .missingAuthHeader => "missing authorization"
  | .malformedHeader fault => "malformed authorization: " ++ fault.message
  | .malformedNonce error => "malformed nonce: " ++ error.message
  | .invalidRequestUrl url => "invalid request URL: " ++ url
  | .unknownRealm received expected =>
    "response realm name " ++ Text.quoted received ++ " does not match system realm name of "
      ++ Text.quoted expected
  | .nonceTampered => "nonce token compromised"
  | .nonceExpired => "nonce has expired"
  | .userNotFound name => "user not found: " ++ name
  | .accountDisabled name => "account is disabled: " ++ name
  | .credentialMismatch => "credentials do not match"
  | .unknownConsumer key => "unknown consumer: " ++ key
  | .unsupportedSignatureMethod name => "unsupported signature method: " ++ name
  | .unsupportedVersion version => "unsupported oauth_version: " ++ version
  | .timestampRefused timestamp now =>
    "timestamp refused: " ++ String.ofList (Numeral.ofInt timestamp)
      ++ " is not within the window of " ++ String.ofList (Numeral.ofInt now)
  | .nonceReplayed => "nonce already used"
  | .backendUnavailable reason => "identity backend unavailable: " ++ reason

/-- Whether the caller may simply try again with a fresh nonce. -/
def isStale : AuthError → Bool
  | .nonceExpired => true
  | _ => false

end AuthError

end Gatehouse
