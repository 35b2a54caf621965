import Gatehouse.Auth.Error
import Gatehouse.Form
import Gatehouse.Uri

/-!
# Signature base strings

The text that an OAuth signature is made over. It names the method, the address and the
parameters of a request in one way only:

    encode (upper-case method) "&" encode (normalized address) "&" encode (normalized parameters)

- `normalizeUrl`: the address with lower-case scheme and host, without user information, default
  port, query and fragment; and the parameters of its query.
- `normalizeParams`: encoded pairs in ascending order. The signature itself is left out.
- `baseString`: the three parts together.
-/

namespace Gatehouse.OAuth

/-- The name of the parameter that holds the signature. -/
def signatureName : String :=
  "oauth_signature"

/-- The port that a scheme implies. -/
def defaultPort (scheme : List Char) : Option Nat :=
  if scheme = "http".toList then some 80
  else if scheme = "https".toList then some 443
  else none

/-- The port of an authority as it is written in a normalized address. -/
def portSuffix (scheme : List Char) (port : Option Nat) : List Char :=
  match port with
  | none => []
  | some p => if some p = defaultPort scheme then [] else ':' :: Numeral.ofNat p

/-- The normalized address, and the parameters of the query. -/
def normalizeUrl (url : String) : Except AuthError (String × List Param) :=
  match Uri.parse (String.ofList (Uri.withoutFragment url.toList)) with
  | some ⟨some scheme, some authority, path, query⟩ =>
    let scheme := scheme.toList.map Char.toLower
    let host := (Uri.host authority.toList).map Char.toLower
    let port := portSuffix scheme (Uri.port authority.toList)
    let path := if path.isEmpty then "/" else path
    .ok (String.ofList (scheme ++ "://".toList ++ host ++ port ++ path.toList),
      (query.map fun q => Form.parse q.toList).getD [])
  | _ => .error (.invalidRequestUrl url)

/-- The ascending order of texts, decided by the first character in which they differ. -/
def textLe : List Char → List Char → Bool
  | [], _ => true
  | _ :: _, [] => false
  | a :: as, b :: bs => a.toNat < b.toNat || (a == b && textLe as bs)

/-- The ascending order of encoded pairs: by name, and among equal names by value. -/
def pairLe (a b : List Char × List Char) : Bool :=
  if a.1 = b.1 then textLe a.2 b.2 else textLe a.1 b.1

/-- A parameter with its name and value encoded. -/
def encodePair (p : Param) : List Char × List Char :=
  (Percent.oauthEncode p.name.toList, Percent.oauthEncode p.value.toList)

/-- The encoded pairs that are signed, in ascending order. -/
def sortedPairs (params : List Param) : List (List Char × List Char) :=
  ((params.filter fun p => p.name ≠ signatureName).map encodePair).mergeSort pairLe

/-- The parameters as one text. -/
def normalizeParams (params : List Param) : String :=
  String.ofList (Text.join ['&']
    ((sortedPairs params).map fun (name, value) => name ++ '=' :: value))

/-- The base string of a request. -/
def baseString (method url : String) (params : List Param) : Except AuthError String :=
  (normalizeUrl url).map fun (address, queryParams) =>
    String.ofList (Text.join ['&']
      [Percent.oauthEncode (method.toList.map Char.toUpper),
       Percent.oauthEncode address.toList,
       Percent.oauthEncode (normalizeParams (params ++ queryParams)).toList])

end Gatehouse.OAuth
