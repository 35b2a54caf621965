import Gatehouse.Auth.Settings

/-!
# Challenges

What a request that could not be authenticated is answered with: one challenge for each scheme,
so that either kind of client can try again.

    OAuth realm="R"
    Digest realm="R", qop="auth", nonce="N"[, stale="true"]
-/

namespace Gatehouse.Challenge

/-- The challenge for OAuth clients. -/
def oauth (realm : String) : String :=
  "OAuth realm=\"" ++ realm ++ "\""

/-- The challenge for Digest clients, with a fresh nonce. -/
def digest (s : AuthSettings) (nowMs : Int) (stale : Bool) : String :=
  "Digest realm=\"" ++ s.realm ++ "\", qop=\"auth\", nonce=\""
    ++ Nonce.encode s.signer (s.expiryFrom nowMs) s.serverKey ++ "\""
    ++ (if stale then ", stale=\"true\"" else "")

/-- Whether a byte may stand in the value of a header. -/
def isHeaderByte (b : UInt8) : Bool :=
  (b ≥ 32 && b != 127) || b == 9

/-- Whether a text may be the value of a header. -/
def isHeaderValue (s : String) : Bool :=
  (Utf8.ofString s).all isHeaderByte

/-- The challenges that answer an error; one that cannot be sent is left out. -/
def headers (s : AuthSettings) (nowMs : Int) (error : AuthError) : List String :=
  [oauth s.realm, digest s nowMs error.isStale].filter isHeaderValue

end Gatehouse.Challenge
