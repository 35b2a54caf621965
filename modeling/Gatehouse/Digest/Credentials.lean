import Gatehouse.Auth.Error
import Gatehouse.Text.Blank
import Gatehouse.Text.Split

/-!
# Digest credentials

The fields of an `Authorization` header of the Digest scheme (RFC 2617):

    Digest username="…", realm="…", nonce="…", uri="…", response="…"[, qop=auth, nc=…, cnonce="…"]

- `Credentials`: the fields.
- `fields`: the header as names and values, in order. Values may be quoted.
- `parse`: the credentials of a header. Of several fields with one name the last one counts, and
  unknown fields are ignored.
-/

namespace Gatehouse.Digest

/-- The fields of a Digest header. -/
structure Credentials where
  username : String
  realm : String
  nonce : String
  uri : String
  response : String
  qop : Option String
  nc : Option String
  cnonce : Option String
deriving DecidableEq, Repr, Inhabited

/-- How a Digest header starts. -/
def scheme : List Char :=
  "Digest ".toList

/-- Whether a header is of the Digest scheme. -/
def isDigest (header : String) : Bool :=
  (Text.dropStart? scheme header.toList).isSome

/-- The name and value of one field. -/
def readField (element : List Char) : Option (String × String) :=
  (Text.splitOnce '=' element).map fun (name, value) =>
    (String.ofList (Text.trim name), String.ofList (Text.unquote (Text.trim value)))

/-- The names and values of a header without its scheme; elements without equals sign are
skipped. -/
def fields (s : List Char) : List (String × String) :=
  (Text.splitOutsideQuotes ',' s).filterMap readField

/-- The last value that was given for a name. -/
def lastValue (name : String) (given : List (String × String)) : Option String :=
  (given.reverse.find? fun field => field.1 == name).map (·.2)

/-- Checks that protected credentials have the fields that protection needs. -/
def checkProtection (c : Credentials) : Except AuthError Credentials :=
  match c.qop with
  | none => .ok c
  | some qop =>
    if qop = "auth" then
      if c.nc.isSome && c.cnonce.isSome then .ok c
      else .error (.malformedHeader .missingProtectionField)
    else .error (.malformedHeader (.unsupportedProtection qop))

/-- The credentials that are made of the given fields. -/
def ofFields (given : List (String × String)) : Except AuthError Credentials :=
  match lastValue "username" given, lastValue "realm" given, lastValue "nonce" given,
    lastValue "uri" given, lastValue "response" given with
  | some username, some realm, some nonce, some uri, some response =>
    checkProtection
      { username, realm, nonce, uri, response
        qop := lastValue "qop" given
        nc := lastValue "nc" given
        cnonce := lastValue "cnonce" given }
  | _, _, _, _, _ => .error (.malformedHeader .missingDigestField)

/-- The credentials of a header. -/
def parse (header : String) : Except AuthError Credentials :=
  match Text.dropStart? scheme header.toList with
  | some rest => ofFields (fields rest)
  | none => .error (.malformedHeader .notDigest)

end Gatehouse.Digest
