import Gatehouse.Access.Cache
import Gatehouse.Auth.Authentication
import Gatehouse.Gateway.Route
import Gatehouse.Policy

/-!
# The gateway

Answers requests: who may do what.

A check is answered with 200 if access is allowed and with 403 if it is not, or if there is no
answer. A request that is not authenticated is answered with 401 and a challenge for each scheme,
without a word about what was wrong. Events are taken from administrators only.

- `Gateway σ τ`: the settings and the two backends; `σ` and `τ` are the states of the backends.
- `Gateway.handle`: one request. Whatever the answer rests on is in `GatewayState`.
- `Gateway.ofPolicy`: the gateway that a configuration and a policy ask for.
-/

namespace Gatehouse

/-- An answer to a request. -/
structure Response where
  status : Nat
  contentType : String
  challenges : List String
  body : String
deriving DecidableEq, Repr, Inhabited

namespace Response

/-- An answer that holds a JSON object. -/
def json (status : Nat) (members : List (String × Json.Value)) : Response :=
  ⟨status, "application/json", [], (Json.Value.ofMembers members).text⟩

/-- An answer that tells of a problem. -/
def problem (status : Nat) (message : String) : Response :=
  json status [("error", .string message)]

end Response

/-- The settings of a gateway, and what stands behind it. -/
structure Gateway (σ τ : Type) where
  settings : AuthSettings
  identities : IdentityBackend σ
  decisions : DecisionCache τ

/-- What a gateway carries from one request to the next. -/
structure GatewayState (σ τ : Type) where
  auth : AuthState σ
  world : World τ

namespace Gateway

variable {σ τ : Type}

/-- The authority of those who may tell of events. -/
def adminAuthority : String :=
  "ADMIN"

/-- How an answer names a decision. -/
def decisionName : AccessDecision → String
  | .allow => "allow"
  | .deny => "deny"
  | .indeterminate => "indeterminate"

/-- The answer to a request that is not authenticated. -/
def unauthorized (s : AuthSettings) (nowMs : Int) (error : AuthError) : Response :=
  { Response.problem 401 "unauthorized" with challenges := Challenge.headers s nowMs error }

/-- The answer to a check. -/
def checked (scope : Scope) (decision : AccessDecision) : Response :=
  .json (if decision.isAllowed then 200 else 403)
    [("module", .string scope.module.text), ("consumer", .string scope.consumer.text),
     ("decision", .string (decisionName decision))]

/-- Uses the part of the state that belongs to authentication. -/
def onAuth {α : Type} (use : StateM (AuthState σ) α) : StateM (GatewayState σ τ) α := fun s =>
  let (result, auth) := use.run s.auth
  (result, { s with auth })

/-- Uses the part of the state that belongs to decisions. -/
def onWorld {α : Type} (use : StateM (World τ) α) : StateM (GatewayState σ τ) α := fun s =>
  let (result, world) := use.run s.world
  (result, { s with world })

/-- Answers a check of an authenticated caller. -/
def answerCheck (g : Gateway σ τ) (principal : Principal) (m : String) (query : AccessQuery) :
    StateM (GatewayState σ τ) Response := do
  match ModuleName.ofString m with
  | .error e => return .problem 400 e.message
  | .ok m =>
    let scope : Scope := ⟨m, principal.consumerKey⟩
    return checked scope (← onWorld (g.decisions.check scope query))

/-- Takes an event from an authenticated caller. -/
def answerEvent (g : Gateway σ τ) (principal : Principal) (m action : String) :
    StateM (GatewayState σ τ) Response := do
  if principal.hasAuthority adminAuthority then
    match ModuleName.ofString m with
    | .error e => return .problem 400 e.message
    | .ok m =>
      match ModuleAction.ofText action with
      | .error e => return .problem 400 e.message
      | .ok action =>
        let _ ← onWorld (g.decisions.perform (.event m action))
        return .json 200 [("module", .string m.text), ("action", .string action.text)]
  else return .problem 403 "forbidden"

/-- Answers a request that has to be authenticated. -/
def answerCaller (g : Gateway σ τ) (r : Request) (now : Moment)
    (answer : Principal → StateM (GatewayState σ τ) Response) :
    StateM (GatewayState σ τ) Response := do
  match ← onAuth (Authentication.authenticate g.settings g.identities r now).run with
  | .error e => return unauthorized g.settings now.epochMs e
  | .ok principal => answer principal

/-- Answers a request. -/
def handle (g : Gateway σ τ) (r : Request) (now : Moment) :
    StateM (GatewayState σ τ) Response := do
  onWorld (modify fun w => w.passTo now.tick)
  match Route.of r.method r.uri.path with
  | .health => return .json 200 [("status", .string "running")]
  | .notFound => return .problem 404 "not found"
  | .check m query => g.answerCaller r now fun principal => g.answerCheck principal m query
  | .event m action => g.answerCaller r now fun principal => g.answerEvent principal m action

/-- Answers a request whose body may not have been readable. -/
def serve (g : Gateway σ τ) (r : Request) (readable : Bool) (now : Moment) :
    StateM (GatewayState σ τ) Response :=
  if readable then g.handle r now else return .problem 400 "unreadable request body"

/-! ## Building a gateway -/

/-- Why a gateway cannot be built. -/
structure BuildError where
  cause : InvalidModuleName
deriving DecidableEq, Repr, Inhabited

/-- The wording of the error. -/
def BuildError.message (_ : BuildError) : String :=
  "failed to build permission backend"

/-- How deep a permission backend may ask back. The one of a policy never does. -/
def standardDepth : Nat :=
  0

/-- The gateway of a configuration, and the replay guard if it wants one. -/
def ofConfig (c : Config) : Gateway Registry Entitlements where
  settings := .ofConfig c
  identities := Registry.backend
  decisions := ⟨.ofConfig c, Entitlements.backend, standardDepth⟩

/-- The replay guard of a configuration. -/
def guardOfConfig (c : Config) : Option OAuth.ReplayGuard :=
  if c.oauthReplayProtection then some (.ofWindow c.oauthTimestampWindowSecs) else none

/-- The gateway that a configuration and a policy ask for, before its first request. -/
def ofPolicy (c : Config) (p : Policy) :
    Except BuildError (Gateway Registry Entitlements × GatewayState Registry Entitlements) :=
  match p.entitlements with
  | .error cause => .error ⟨cause⟩
  | .ok entitlements =>
    .ok (ofConfig c,
      { auth :=
          { identities := .ofDirectory p.directory
            users := .ofTtl (seconds c.userCacheTtlSecs)
            guard := guardOfConfig c }
        world := .initial entitlements 0 })

end Gateway

end Gatehouse
