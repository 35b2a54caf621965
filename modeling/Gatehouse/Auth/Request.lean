import Gatehouse.Auth.Challenge
import Gatehouse.Uri

/-!
# Requests

What arrives at the gateway.

- `Request`: method, address, headers and body. Header names are kept in lower case.
- `Request.build?`: puts a request together, or refuses parts that no request can have.
- `Request.header?`, `Request.headerText?`: the first value of a header, and its text if it is
  plain ASCII.
-/

namespace Gatehouse

/-- A request. -/
structure Request where
  method : String
  uri : Uri
  headers : List (String × Bytes)
  body : Bytes
deriving DecidableEq, Repr, Inhabited

namespace Request

/-- Whether a character may stand in the name of a method or header. -/
def isTokenChar (c : Char) : Bool :=
  c.isAlphanum || "!#$%&'*+-.^_\x60|~".toList.contains c

/-- Whether a text may be the name of a method or header. -/
def isToken (s : String) : Bool :=
  !s.isEmpty && s.toList.all isTokenChar

/-- A header with its name in lower case. -/
def readHeader (header : String × Bytes) : Option (String × Bytes) :=
  if isToken header.1 && header.2.all Challenge.isHeaderByte then
    some (String.ofList (header.1.toList.map Char.toLower), header.2)
  else none

/-- Puts a request together. -/
def build? (method target : String) (headers : List (String × Bytes)) (body : Bytes) :
    Option Request := do
  let uri ← Uri.parse target
  let headers ← headers.mapM readHeader
  if isToken method then some { method, uri, headers, body } else none

/-- The first value of a header, whose name is given in lower case. -/
def header? (r : Request) (name : String) : Option Bytes :=
  (r.headers.find? fun header => header.1 == name).map (·.2)

/-- Whether a byte is visible ASCII, a space or a tab. -/
def isPlainByte (b : UInt8) : Bool :=
  (b ≥ 32 && b < 127) || b == 9

/-- The text of a header value; there is none unless all of it is plain ASCII. -/
def plainText? (value : Bytes) : Option String :=
  if value.all isPlainByte then some (String.ofList (Utf8.decodeLossy value)) else none

/-- The text of the first value of a header, if that is plain ASCII. -/
def headerText? (r : Request) (name : String) : Option String :=
  (r.header? name).bind plainText?

end Request

end Gatehouse
