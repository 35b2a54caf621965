import Gatehouse.Json.Reader
import Gatehouse.Text.Blank
import Gatehouse.Text.Quoted

/-!
# Configuration

What the gateway can be told from outside: by environment variables, or by a JSON object.

- `Config.standard`: the values that hold when nothing is said. The server key alone has no
  standard value; it is drawn afresh for every process and therefore handed in.
- `Config.ofEnvironment`: reads the variables one after the other and stops at the first that
  cannot be understood.
- `Config.reader` and `Config.toJson`: the JSON form, which never shows the server key.
-/

namespace Gatehouse

/-- The settings of a gateway. -/
structure Config where
  listen : String
  realm : String
  serverKey : String
  nonceValiditySecs : Nat
  passwordAlreadyEncoded : Bool
  oauthTimestampWindowSecs : Nat
  oauthReplayProtection : Bool
  decisionMaxAgeSecs : Nat
  backendTimeoutMs : Nat
  userCacheTtlSecs : Nat
  publicUrl : Option String
  logLevel : String
deriving DecidableEq, Repr, Inhabited

/-- A variable that cannot be understood. -/
inductive ConfigError where
  | notInteger (key value : String)
  | notBoolean (key value : String)
deriving DecidableEq, Repr, Inhabited

/-- The wording of the error. -/
def ConfigError.message : ConfigError → String
  | .notInteger key value =>
    "configuration error: " ++ key ++ " must be an integer, got " ++ Text.quoted value
  | .notBoolean key value =>
    "configuration error: " ++ key ++ " must be true or false, got " ++ Text.quoted value

/-- The raw value of each variable that is set. -/
abbrev Environment := String → Option Bytes

/-- The value of a variable; one that is not UTF-8 counts as unset. -/
def Environment.text? (env : Environment) (key : String) : Option String :=
  (env key).bind fun bytes => (Utf8.decode? bytes).map String.ofList

namespace Config

/-- The settings that hold when nothing is said. -/
def standard (serverKey : String) : Config where
  listen := "0.0.0.0:8080"
  realm := "tollgate"
  serverKey := serverKey
  nonceValiditySecs := 300
  passwordAlreadyEncoded := false
  oauthTimestampWindowSecs := 300
  oauthReplayProtection := true
  decisionMaxAgeSecs := 900
  backendTimeoutMs := 5000
  userCacheTtlSecs := 300
  publicUrl := none
  logLevel := "info"

/-- Reads an integer, which may stand between blanks. -/
def readInteger (key value : String) : Except ConfigError Nat :=
  match Numeral.unsigned? (Text.trim value.toList) with
  | some n => .ok n
  | none => .error (.notInteger key value)

/-- Reads a truth value, in words or as a digit; nothing at all is false. -/
def readBoolean (key value : String) : Except ConfigError Bool :=
  let word := String.ofList ((Text.trim value.toList).map Char.toLower)
  if word = "1" ∨ word = "true" then .ok true
  else if word = "0" ∨ word = "" ∨ word = "false" then .ok false
  else .error (.notBoolean key value)

/-- The settings that environment variables ask for. -/
def ofEnvironment (env : Environment) (drawnKey : String) : Except ConfigError Config := do
  let text (key : String) (fallback : String) : String :=
    (env.text? key).getD fallback
  let integer (key : String) (fallback : Nat) : Except ConfigError Nat :=
    match env.text? key with
    | some value => readInteger key value
    | none => .ok fallback
  let boolean (key : String) (fallback : Bool) : Except ConfigError Bool :=
    match env.text? key with
    | some value => readBoolean key value
    | none => .ok fallback
  let base := standard drawnKey
  let nonceValiditySecs ← integer "TOLLGATE_NONCE_VALIDITY_SECS" base.nonceValiditySecs
  let passwordAlreadyEncoded ←
    boolean "TOLLGATE_PASSWORD_ALREADY_ENCODED" base.passwordAlreadyEncoded
  let oauthTimestampWindowSecs ←
    integer "TOLLGATE_OAUTH_TIMESTAMP_WINDOW_SECS" base.oauthTimestampWindowSecs
  let oauthReplayProtection ←
    boolean "TOLLGATE_OAUTH_REPLAY_PROTECTION" base.oauthReplayProtection
  let decisionMaxAgeSecs ← integer "TOLLGATE_DECISION_MAX_AGE_SECS" base.decisionMaxAgeSecs
  let backendTimeoutMs ← integer "TOLLGATE_BACKEND_TIMEOUT_MS" base.backendTimeoutMs
  let userCacheTtlSecs ← integer "TOLLGATE_USER_CACHE_TTL_SECS" base.userCacheTtlSecs
  return {
    listen := text "TOLLGATE_LISTEN" base.listen
    realm := text "TOLLGATE_REALM" base.realm
    serverKey := ((env.text? "TOLLGATE_SERVER_KEY").filter (· ≠ "")).getD base.serverKey
    nonceValiditySecs, passwordAlreadyEncoded, oauthTimestampWindowSecs, oauthReplayProtection
    decisionMaxAgeSecs, backendTimeoutMs, userCacheTtlSecs
    publicUrl := (env.text? "TOLLGATE_PUBLIC_URL").filter (· ≠ "")
    logLevel := text "LOG_LEVEL" base.logLevel }

open Json.Reader in
/-- The fields of the JSON form, in their order. -/
def fields : List (RecordField Config) :=
  [.required "listen" string fun v c => { c with listen := v },
   .required "realm" string fun v c => { c with realm := v },
   .withDefault "serverKey" string fun v c => { c with serverKey := v },
   .required "nonceValiditySecs" unsigned fun v c => { c with nonceValiditySecs := v },
   .required "passwordAlreadyEncoded" bool fun v c => { c with passwordAlreadyEncoded := v },
   .required "oauthTimestampWindowSecs" unsigned fun v c =>
      { c with oauthTimestampWindowSecs := v },
   .required "oauthReplayProtection" bool fun v c => { c with oauthReplayProtection := v },
   .required "decisionMaxAgeSecs" unsigned fun v c => { c with decisionMaxAgeSecs := v },
   .required "backendTimeoutMs" unsigned fun v c => { c with backendTimeoutMs := v },
   .required "userCacheTtlSecs" unsigned fun v c => { c with userCacheTtlSecs := v },
   .withDefault "publicUrl" (optional string) fun v c => { c with publicUrl := v },
   .required "logLevel" string fun v c => { c with logLevel := v }]

/-- Reads the JSON form. Only the server key and the public address may be left out. -/
def reader (drawnKey : String) : Json.Reader Config :=
  .record fields (standard drawnKey)

/-- The JSON form, without the server key. -/
def toJson (c : Config) : Json.Value :=
  .ofMembers
    [("listen", .string c.listen),
     ("realm", .string c.realm),
     ("nonceValiditySecs", .ofNat c.nonceValiditySecs),
     ("passwordAlreadyEncoded", .bool c.passwordAlreadyEncoded),
     ("oauthTimestampWindowSecs", .ofNat c.oauthTimestampWindowSecs),
     ("oauthReplayProtection", .bool c.oauthReplayProtection),
     ("decisionMaxAgeSecs", .ofNat c.decisionMaxAgeSecs),
     ("backendTimeoutMs", .ofNat c.backendTimeoutMs),
     ("userCacheTtlSecs", .ofNat c.userCacheTtlSecs),
     ("publicUrl", (c.publicUrl.map Json.Value.string).getD .null),
     ("logLevel", .string c.logLevel)]

end Config

end Gatehouse
