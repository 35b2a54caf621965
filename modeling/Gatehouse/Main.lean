import Gatehouse.Gateway.Basic

/-!
# Command line

Loads the configuration and the policy, builds the gateway and reports what it will do.
-/

namespace Gatehouse

/-- The variables that the gateway looks at. -/
def variableNames : List String :=
  ["TOLLGATE_LISTEN", "TOLLGATE_REALM", "TOLLGATE_SERVER_KEY", "TOLLGATE_NONCE_VALIDITY_SECS",
   "TOLLGATE_PASSWORD_ALREADY_ENCODED", "TOLLGATE_OAUTH_TIMESTAMP_WINDOW_SECS",
   "TOLLGATE_OAUTH_REPLAY_PROTECTION", "TOLLGATE_DECISION_MAX_AGE_SECS",
   "TOLLGATE_BACKEND_TIMEOUT_MS", "TOLLGATE_USER_CACHE_TTL_SECS", "TOLLGATE_PUBLIC_URL",
   "LOG_LEVEL", Policy.fileVariable]

/-- The variables that are set, with their values. -/
def readVariables : IO (List (String × String)) := do
  variableNames.filterMapM fun key => do
    return (← IO.getEnv key).map fun value => (key, value)

/-- The contents of a file, if it can be read. -/
def readContents (path : String) : IO (Option Bytes) := do
  try
    return some (← IO.FS.readBinFile path).toList
  catch _ => return none

/-- A server key of 32 digits. -/
def drawKey : IO String := do
  let bytes ← IO.getRandomBytes 16
  return String.ofList (Hex.ofBytes bytes.toList)

/-- Builds the gateway, or says why that is not possible. -/
def prepare : IO (Except String Config) := do
  let given ← readVariables
  let env : Environment := fun key => (given.lookup key).map Utf8.ofString
  let path := (given.lookup Policy.fileVariable).getD ""
  let contents ← readContents path
  let key ← drawKey
  return do
    let config ← (Config.ofEnvironment env key).mapError ConfigError.message
    let policy ← (Policy.ofEnvironment env fun _ => contents).mapError PolicyError.message
    let _ ← (Gateway.ofPolicy config policy).mapError fun e =>
      e.message ++ ": " ++ e.cause.message
    return config

end Gatehouse

/-- Checks that a gateway can be built from the environment. -/
def main : IO UInt32 := do
  match ← Gatehouse.prepare with
  | .ok config =>
    IO.println ("ready to listen on " ++ config.listen)
    return 0
  | .error message =>
    IO.eprintln message
    return 1
