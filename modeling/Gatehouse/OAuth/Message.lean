import Gatehouse.OAuth.Signature

/-!
# Signed messages

A request as OAuth sees it: a method, an address and parameters.

- `Message.param?`: the first value of a name.
- `Message.duplicate?`: the first protocol parameter that is given twice.
- `Message.claim`: what the protocol parameters say, in the order in which they are asked for.
-/

namespace Gatehouse.OAuth

/-- The only version of the protocol. -/
def version : String :=
  "1.0"

/-- A request whose parameters may be signed. -/
structure Message where
  method : String
  url : String
  params : List Param
deriving DecidableEq, Repr, Inhabited

/-- What the protocol parameters of a message say. -/
structure Claim where
  consumer : String
  signature : String
  method : SignatureMethod
  nonce : String
  timestamp : Int
deriving DecidableEq, Repr, Inhabited

namespace Message

/-- The first value of a name. -/
def param? (m : Message) (name : String) : Option String :=
  (m.params.find? fun p => p.name == name).map (·.value)

/-- Whether the message carries a signature. -/
def isSigned (m : Message) : Bool :=
  (m.param? signatureName).isSome

/-- The text that the signature is made over. -/
def baseString (m : Message) : Except AuthError String :=
  OAuth.baseString m.method m.url m.params

/-- The value of a parameter that must be given. -/
def require (m : Message) (name : String) : Except AuthError String :=
  match m.param? name with
  | some value => .ok value
  | none => .error (.malformedHeader (.missingParameter name))

/-- The first name that occurs a second time. -/
def firstRepeated (seen : List String) : List String → Option String
  | [] => none
  | name :: rest => if seen.contains name then some name else firstRepeated (name :: seen) rest

/-- Whether a name belongs to the protocol. -/
def isProtocolName (name : String) : Bool :=
  (Text.dropStart? "oauth_".toList name.toList).isSome

/-- The first protocol parameter that is given twice. -/
def duplicate? (m : Message) : Option String :=
  firstRepeated [] ((m.params.map (·.name)).filter isProtocolName)

/-- Checks the version, which need not be given. -/
def checkVersion (m : Message) : Except AuthError Unit :=
  match m.param? "oauth_version" with
  | some v => if v = version then .ok () else .error (.unsupportedVersion v)
  | none => .ok ()

/-- Reads a timestamp. -/
def readTimestamp (text : String) : Except AuthError Int :=
  match Numeral.signed? text.toList with
  | some t => .ok t
  | none => .error (.malformedHeader (.invalidTimestamp text))

/-- What the protocol parameters say. -/
def claim (m : Message) : Except AuthError Claim := do
  match m.duplicate? with
  | some name => .error (.malformedHeader (.duplicateParameter name))
  | none =>
    m.checkVersion
    let consumer ← m.require "oauth_consumer_key"
    let signature ← m.require signatureName
    let method ← SignatureMethod.ofText (← m.require "oauth_signature_method")
    let nonce ← m.require "oauth_nonce"
    let timestamp ← readTimestamp (← m.require "oauth_timestamp")
    return { consumer, signature, method, nonce, timestamp }

end Message

end Gatehouse.OAuth
