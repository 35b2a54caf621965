import Gatehouse.OAuth.Message

/-!
# Signed addresses

A request that carries its signature in the query, so that it can be sent as it is.

- `Consumer`: a caller as it knows itself.
- `signUrl`: the address with the protocol parameters and the signature added to its query.
-/

namespace Gatehouse.OAuth

/-- The addresses of a provider that hands out tokens. -/
structure ServiceProvider where
  requestTokenUrl : String
  userAuthorizationUrl : String
  accessTokenUrl : String
deriving DecidableEq, Repr, Inhabited

/-- A caller as it knows itself. -/
structure Consumer where
  key : String
  secret : String
  callbackUrl : Option String
  provider : Option ServiceProvider
deriving DecidableEq, Repr, Inhabited

namespace Consumer

/-- A consumer with key and secret only. -/
def ofSecret (key secret : String) : Consumer :=
  ⟨key, secret, none, none⟩

/-- Sets the address that the consumer is called back at. -/
def withCallbackUrl (c : Consumer) (url : String) : Consumer :=
  { c with callbackUrl := some url }

/-- Sets the provider that hands out tokens. -/
def withProvider (c : Consumer) (provider : ServiceProvider) : Consumer :=
  { c with provider := some provider }

end Consumer

/-- The protocol parameters that are signed. -/
def protocolParams (key nonce : String) (timestamp : Int) : List Param :=
  [⟨"oauth_consumer_key", key⟩,
   ⟨"oauth_signature_method", SignatureMethod.hmacSha1.text⟩,
   ⟨"oauth_timestamp", String.ofList (Numeral.ofInt timestamp)⟩,
   ⟨"oauth_nonce", nonce⟩,
   ⟨"oauth_version", version⟩]

/-- An address up to its query. -/
def baseUrl (url : String) : String :=
  String.ofList (url.toList.takeWhile (· ≠ '?'))

/-- The address with its request signed in the query. -/
def signUrl (method url key secret : String) (timestamp : Int) (nonce : String) :
    Except AuthError String := do
  let (_, queryParams) ← normalizeUrl url
  let params := queryParams ++ protocolParams key nonce timestamp
  let base := baseUrl url
  let text ← OAuth.baseString method base params
  let signed := params ++ [⟨signatureName, sign .hmacSha1 text secret ""⟩]
  return base ++ "?" ++ String.ofList (Form.render signed)

end Gatehouse.OAuth
