import Gatehouse.Auth.State
import Gatehouse.OAuth.Message

/-!
# OAuth verification

The checks on a signed message, in a fixed order that stops at the first failure: the protocol
parameters, the timestamp, the consumer, the address, the signature, and last whether the message
has been accepted before. So a message that fails is never remembered.
-/

namespace Gatehouse.OAuth

variable {σ : Type}

/-- The error that a failed consumer lookup amounts to. -/
def consumerError : IdentityError → AuthError
  | .notFound key => .unknownConsumer key
  | .unavailable reason => .backendUnavailable reason

/-- Whether a timestamp is near enough to the present; the last second of the window counts. -/
def isTimely (window : Nat) (now timestamp : Int) : Bool :=
  (now - timestamp).natAbs ≤ window

/-- Finds a consumer. -/
def findConsumer (backend : IdentityBackend σ) (key : String) :
    Verification σ ConsumerRecord := do
  match ← Verification.ofBackend (backend.lookupConsumer key) with
  | .ok record => return record
  | .error e => throw (consumerError e)

/-- Whether the guard lets a message pass; without a guard every message does. -/
def passGuard (ticket : Ticket) (now : Int) : Verification σ Bool := do
  let state ← get
  match state.guard with
  | none => return true
  | some g =>
    let (fresh, g) := g.check ticket now
    set { state with guard := some g }
    return fresh

/-- Checks the signature of a message with the secret of its consumer. -/
def checkSignature (m : Message) (claim : Claim) (consumer : ConsumerRecord) :
    Except AuthError Unit :=
  match m.baseString with
  | .error e => .error e
  | .ok base =>
    if sign claim.method base consumer.secret "" = claim.signature then .ok ()
    else .error .credentialMismatch

/-- Verifies a message at an instant of the calendar, in seconds. -/
def verify (s : AuthSettings) (backend : IdentityBackend σ) (m : Message) (now : Int) :
    Verification σ Principal := do
  let claim ← (m.claim : Except AuthError Claim)
  if !isTimely s.timestampWindow now claim.timestamp then
    throw (.timestampRefused claim.timestamp now)
  let consumer ← findConsumer backend claim.consumer
  (checkSignature m claim consumer : Except AuthError Unit)
  if ← passGuard ⟨claim.consumer, claim.nonce, claim.timestamp⟩ now then
    return ⟨consumer.key, .oauth, consumer.authorities⟩
  else throw .nonceReplayed

end Gatehouse.OAuth
