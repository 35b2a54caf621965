import Gatehouse.Auth.Request
import Gatehouse.Digest.Verification
import Gatehouse.OAuth.Header
import Gatehouse.OAuth.Verification

/-!
# Authentication

Decides how a request wants to be authenticated, and has that done.

A request is of the Digest scheme if its `Authorization` header says so. It is of the OAuth
scheme if the header says so, or if the query or a form-encoded body holds a signature.

- `formBody`: the body of a request that declares it to be a form.
- `requestUrl`: the address that an OAuth client has signed, as far as the gateway can tell.
- `authenticate`: the principal of a request.
-/

namespace Gatehouse.Authentication

variable {σ : Type}

/-- The content type of forms. -/
def formType : String :=
  "application/x-www-form-urlencoded"

/-- Whether a content type is that of forms; what follows a semicolon does not matter. -/
def isFormType (contentType : String) : Bool :=
  let mime := contentType.toList.takeWhile (· ≠ ';')
  (Text.trim mime).map Char.toLower == formType.toList

/-- The body of a request that declares it to be a form, if it is UTF-8. -/
def formBody (r : Request) : Option String :=
  if ((r.headerText? "content-type").map isFormType).getD false then
    (Utf8.decode? r.body).map String.ofList
  else none

/-- Whether a form-encoded text holds a signature. -/
def holdsSignature (encoded : Option String) : Bool :=
  (OAuth.ofForm encoded).any fun p => p.name == OAuth.signatureName

/-- A text without the slashes at its end. -/
def withoutTrailingSlashes (s : String) : String :=
  String.ofList ((s.toList.reverse.dropWhile (· == '/')).reverse)

/-- The address of a request without its query: below the public address if there is one, else
as the request has it, else below the host that the request names. -/
def requestUrl (s : AuthSettings) (r : Request) : Except AuthError String :=
  match s.publicUrl with
  | some publicUrl => .ok (withoutTrailingSlashes publicUrl ++ r.uri.path)
  | none =>
    match r.uri.scheme, r.uri.authority with
    | some scheme, some authority => .ok (scheme ++ "://" ++ authority ++ r.uri.path)
    | _, _ =>
      match r.headerText? "host" with
      | some host => .ok ("http://" ++ host ++ r.uri.path)
      | none => .error (.invalidRequestUrl r.uri.render)

/-- How a request wants to be authenticated. -/
inductive Attempt where
  | digest (header : String)
  | oauth (message : OAuth.Message)
deriving DecidableEq, Repr, Inhabited

/-- The text of the `Authorization` header, which must be plain ASCII if there is one. -/
def authorization (r : Request) : Except AuthError (Option String) :=
  match r.header? "authorization" with
  | none => .ok none
  | some value =>
    match Request.plainText? value with
    | some text => .ok (some text)
    | none => .error (.malformedHeader .notAscii)

/-- The attempt of a request that is not of the Digest scheme. -/
def oauthAttempt (s : AuthSettings) (r : Request) (header : Option String) :
    Except AuthError Attempt :=
  let oauthHeader := header.filter OAuth.isOAuth
  let form := formBody r
  if oauthHeader.isSome || holdsSignature r.uri.query || holdsSignature form then
    (requestUrl s r).map fun url =>
      .oauth ⟨r.method, url, OAuth.collect oauthHeader r.uri.query form⟩
  else if header.isSome then .error (.malformedHeader .unsupportedScheme)
  else .error .missingAuthHeader

/-- The attempt of a request. -/
def attempt (s : AuthSettings) (r : Request) : Except AuthError Attempt :=
  match authorization r with
  | .error e => .error e
  | .ok none => oauthAttempt s r none
  | .ok (some header) =>
    if Digest.isDigest header then .ok (.digest header) else oauthAttempt s r (some header)

/-- The principal of a request. -/
def authenticate (s : AuthSettings) (backend : IdentityBackend σ) (r : Request) (now : Moment) :
    Verification σ Principal := do
  match ← (attempt s r : Except AuthError Attempt) with
  | .digest header => Digest.verify s backend r.method header now
  | .oauth message => OAuth.verify s backend message (now.epochMs.tdiv 1000)

end Gatehouse.Authentication
