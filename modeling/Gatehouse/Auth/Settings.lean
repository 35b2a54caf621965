import Gatehouse.Config
import Gatehouse.Digest.Nonce

/-!
# Settings of authentication

What Digest and OAuth verification have to know about the gateway. The lengths of time are exact
numbers; where they meet the calendar, whose instants have 64 bits, they are cut off at the end
of its range.
-/

namespace Gatehouse

/-- The settings that both schemes share. -/
structure AuthSettings where
  realm : String
  serverKey : String
  /-- How long an issued nonce stays fresh, in milliseconds. -/
  nonceValidity : Nat
  /-- Whether stored passwords are hashes that already cover user name and realm. -/
  passwordAlreadyEncoded : Bool
  /-- How far a signed timestamp may be off, in seconds. -/
  timestampWindow : Nat
  /-- The address under which the gateway is known outside, if it differs from what it sees. -/
  publicUrl : Option String
  signer : Signer

namespace AuthSettings

/-- The settings that a configuration asks for. -/
def ofConfig (c : Config) : AuthSettings where
  realm := c.realm
  serverKey := c.serverKey
  nonceValidity := c.nonceValiditySecs * 1000
  passwordAlreadyEncoded := c.passwordAlreadyEncoded
  timestampWindow := c.oauthTimestampWindowSecs
  publicUrl := c.publicUrl
  signer := Signer.md5

/-- The validity of nonces as a length of calendar time. -/
def nonceValidityMillis (s : AuthSettings) : Int :=
  min (s.nonceValidity : Int) Numeral.maxSigned

/-- When a nonce issued now expires. -/
def expiryFrom (s : AuthSettings) (nowMs : Int) : Int :=
  Numeral.clampSigned (nowMs + s.nonceValidityMillis)

end AuthSettings

end Gatehouse
