import Gatehouse.Auth.State
import Gatehouse.Digest.Response

/-!
# Digest verification

The checks on a Digest header, in a fixed order that stops at the first failure: the header and
its fields, the realm, the nonce and its signature, the user, the response, and only then whether
the nonce has expired and whether the account is active. So nothing about nonce or account is
told to someone who does not know the password.

A record from the user cache gets a second chance: if the response does not match it, the user is
loaded afresh, for the password may have been changed.
-/

namespace Gatehouse.Digest

variable {σ : Type}

/-- The error that a failed user lookup amounts to. -/
def userError : IdentityError → AuthError
  | .notFound name => .userNotFound name
  | .unavailable reason => .backendUnavailable reason

/-- Loads a user from the backend, and stores the record in the user cache. -/
def loadUser (backend : IdentityBackend σ) (name : String) (tick : Instant) :
    Verification σ UserRecord := do
  match ← Verification.ofBackend (backend.loadUser name) with
  | .error e => throw (userError e)
  | .ok record =>
    Verification.ofCache fun users => ((), users.put record tick)
    return record

/-- The record of a user, and whether it came from the user cache. -/
def findUser (backend : IdentityBackend σ) (name : String) (tick : Instant) :
    Verification σ (UserRecord × Bool) := do
  match ← Verification.ofCache fun users => users.get name tick with
  | some record => return (record, true)
  | none => return (← loadUser backend name tick, false)

/-- Checks everything that needs no user: the realm, the nonce and its signature. -/
def checkNonce (s : AuthSettings) (c : Credentials) : Except AuthError Nonce :=
  if c.realm ≠ s.realm then .error (.unknownRealm c.realm s.realm)
  else match Nonce.decode c.nonce with
    | .error e => .error (.malformedNonce e)
    | .ok nonce =>
      if nonce.isSigned s.signer s.serverKey then .ok nonce else .error .nonceTampered

/-- Whether a response is that of someone who knows the stored password. -/
def matchesRecord (s : AuthSettings) (c : Credentials) (method : String) (record : UserRecord) :
    Except AuthError Bool :=
  (expected c method record.password s.passwordAlreadyEncoded).map (· == c.response)

/-- What a caller who knows the password is told. -/
def accept (nonce : Nonce) (record : UserRecord) (nowMs : Int) : Except AuthError Principal :=
  if nonce.isExpired nowMs then .error .nonceExpired
  else if record.active then .ok ⟨record.username, .digest, record.groups⟩
  else .error (.accountDisabled record.username)

/-- The record of the named user, provided that the response matches it. -/
def provenRecord (s : AuthSettings) (backend : IdentityBackend σ) (c : Credentials)
    (method : String) (tick : Instant) : Verification σ UserRecord := do
  let (record, fromCache) ← findUser backend c.username tick
  if ← (matchesRecord s c method record : Except AuthError Bool) then return record
  else if fromCache then
    let fresh ← loadUser backend c.username tick
    if ← (matchesRecord s c method fresh : Except AuthError Bool) then return fresh
    else throw .credentialMismatch
  else throw .credentialMismatch

/-- Verifies a Digest header for a request with the given method. -/
def verify (s : AuthSettings) (backend : IdentityBackend σ) (method header : String)
    (now : Moment) : Verification σ Principal := do
  let credentials ← (parse header : Except AuthError Credentials)
  let nonce ← (checkNonce s credentials : Except AuthError Nonce)
  let record ← provenRecord s backend credentials method now.tick
  (accept nonce record now.epochMs : Except AuthError Principal)

end Gatehouse.Digest
