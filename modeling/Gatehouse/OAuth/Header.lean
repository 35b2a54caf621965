import Gatehouse.Form
import Gatehouse.Text.Blank

/-!
# OAuth parameters

Where the parameters of a signed request are found: in the `Authorization` header, in the query
and in a form-encoded body, in this order.

    OAuth realm="…", oauth_consumer_key="…", …

- `decodeHeader`: the parameters of a header. The realm is not one of them.
- `collect`: all parameters of a request.
- `renderHeader`: the header that carries given parameters.
-/

namespace Gatehouse.OAuth

/-- Whether a header is of the OAuth scheme, in any letter case. -/
def isOAuth (header : String) : Bool :=
  (header.toList.take 6).map Char.toLower == "oauth ".toList

/-- Whether a name is to be skipped: the empty one, and the realm in any letter case. -/
def isSkipped (name : List Char) : Bool :=
  name.isEmpty || name.map Char.toLower == "realm".toList

/-- The parameter in one element of a header. -/
def readElement (element : List Char) : Option Param :=
  match Text.splitOnce '=' (Text.trim element) with
  | none => none
  | some (rawName, rawValue) =>
    let name := Percent.decode (Text.trim rawName)
    if isSkipped name then none
    else some ⟨String.ofList name,
      String.ofList (Percent.decode (Text.unquote (Text.trim rawValue)))⟩

/-- The parameters of a header; there are none in one of another scheme. -/
def decodeHeader (header : String) : List Param :=
  if isOAuth header then (Text.split ',' (header.toList.drop 6)).filterMap readElement
  else []

/-- One parameter as an element of a header. -/
def renderElement (p : Param) : List Char :=
  Percent.oauthEncode p.name.toList ++ '=' :: '"' :: Percent.oauthEncode p.value.toList ++ ['"']

/-- The header that carries the given parameters. -/
def renderHeader (params : List Param) : String :=
  String.ofList ("OAuth ".toList ++ Text.join [',', ' '] (params.map renderElement))

/-- The parameters of a form-encoded text, if there is one. -/
def ofForm (text : Option String) : List Param :=
  match text with
  | some s => Form.parse s.toList
  | none => []

/-- All parameters of a request. -/
def collect (header query body : Option String) : List Param :=
  (header.map decodeHeader).getD [] ++ ofForm query ++ ofForm body

end Gatehouse.OAuth
