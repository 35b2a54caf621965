import Gatehouse.Auth.Error
import Gatehouse.Base64
import Gatehouse.Hash.Md5
import Gatehouse.Text.Split

/-!
# Nonces

A nonce carries the instant at which it expires and a signature that binds the instant to the
server key, so that the server keeps nothing about the nonces that it has issued:

    base64 (expiry ":" signature)

- `Signer`: makes the signature; `Signer.md5` is the usual one.
- `encode` and `decode`: the text of a nonce.
- `Nonce.isSigned`, `Nonce.isExpired`: the two checks, which `decode` leaves to its caller.
-/

namespace Gatehouse

/-- The MD5 digest of a text, in hexadecimal digits. -/
def md5Hex (s : List Char) : List Char :=
  Hex.ofBytes (Hash.md5 (Utf8.encode s))

/-- Makes the signature of an expiry under a server key. -/
abbrev Signer := Int → String → String

/-- The usual signature: the MD5 digest of the expiry, a colon and the server key. -/
def Signer.md5 : Signer := fun expiry key =>
  String.ofList (md5Hex (Numeral.ofInt expiry ++ ':' :: key.toList))

/-- The two parts of a nonce; the expiry counts milliseconds of the calendar. -/
structure Nonce where
  expiry : Int
  signature : String
deriving DecidableEq, Repr, Inhabited

namespace Nonce

/-- The text of a nonce with the given signature. -/
def render (n : Nonce) : String :=
  String.ofList (Base64.encode
    (Utf8.encode (Numeral.ofInt n.expiry ++ ':' :: n.signature.toList)))

/-- The text of a freshly signed nonce. -/
def encode (signer : Signer) (expiry : Int) (key : String) : String :=
  render ⟨expiry, signer expiry key⟩

/-- Reads the two parts of a nonce. -/
def decode (nonce : String) : Except NonceError Nonce :=
  match (Base64.decode nonce.toList).bind Utf8.decode? with
  | none => .error .notBase64
  | some plain =>
    match Text.split ':' plain with
    | [expiry, signature] =>
      match Numeral.signed? expiry with
      | some t => .ok ⟨t, String.ofList signature⟩
      | none => .error (.nonNumericExpiry (String.ofList expiry))
    | tokens => .error (.wrongTokenCount tokens.length)

/-- Whether the signature was made under the given server key. -/
def isSigned (signer : Signer) (n : Nonce) (key : String) : Bool :=
  signer n.expiry key == n.signature

/-- Whether the nonce is expired at an instant of the calendar. -/
def isExpired (n : Nonce) (nowMs : Int) : Bool :=
  n.expiry ≤ nowMs

end Nonce

end Gatehouse
