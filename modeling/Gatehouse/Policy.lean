import Gatehouse.Access.Entitlements
import Gatehouse.Config
import Gatehouse.Identity.Basic

/-!
# Policies

Accounts, grants and group rules, as they are written down in a JSON file:

    { "allowAll": false,
      "accounts": [{ "key": "c1", "secret": "p1", "groups": ["ADMIN"], "username": "Carol" }],
      "grants": [{ "module": "geo", "consumer": "c1", "actions": ["view"], "groups": ["USER"] }],
      "rules": [{ "module": "geo", "group": "USER",
                  "permissions": [{ "resourceClass": "report", "action": "view" }] }] }

- `Policy.parse`, `Policy.load`, `Policy.ofEnvironment`: reading a policy from a text, from the
  contents of a file, and from the file that a variable names.
- `Policy.directory`: the accounts, for authentication.
- `Policy.entitlements`: the grants and rules, for decisions about access.
-/

namespace Gatehouse

/-- One account. -/
structure AccountEntry where
  key : String
  secret : String
  groups : List String
  active : Bool
  username : Option String
  userClass : Option String
deriving DecidableEq, Repr, Inhabited

/-- What is granted to one consumer within one module. -/
structure GrantEntry where
  module : String
  consumer : String
  actions : List String
  groups : List String
  resources : List ResourcePermission
  attributes : Attributes
deriving Repr, Inhabited

/-- What the members of one group of a module are permitted. -/
structure RuleEntry where
  module : String
  group : String
  permissions : List ResourcePermission
deriving DecidableEq, Repr, Inhabited

/-- Accounts, grants and rules. -/
structure Policy where
  allowAll : Bool
  accounts : List AccountEntry
  grants : List GrantEntry
  rules : List RuleEntry
deriving Repr, Inhabited

/-- Why there is no policy. -/
inductive PolicyError where
  /-- The file cannot be read. -/
  | unreadable (path : String)
  /-- The file does not hold a policy. -/
  | invalidFile (path : String) (fault : Json.Fault)
  /-- The text is no policy. -/
  | invalidText (fault : Json.Fault)
deriving DecidableEq, Repr, Inhabited

/-- The wording of the error. -/
def PolicyError.message : PolicyError → String
  | .unreadable path => "failed to read policy file " ++ path
  | .invalidFile path _ => "invalid policy file " ++ path
  | .invalidText _ => "policy is not valid JSON"

/-- The problem in the text, if that is the cause. -/
def PolicyError.fault? : PolicyError → Option Json.Fault
  | .unreadable _ => none
  | .invalidFile _ fault => some fault
  | .invalidText fault => some fault

namespace Policy

/-- The policy that says nothing. -/
def empty : Policy :=
  ⟨false, [], [], []⟩

/-! ## Reading -/

section Reading

open Json.Reader

/-- Reads an account. Accounts are active unless they say otherwise. -/
def accountReader : Json.Reader AccountEntry :=
  record
    [.required "key" string fun v a => { a with key := v },
     .required "secret" string fun v a => { a with secret := v },
     .withDefault "groups" (list string) fun v a => { a with groups := v },
     .withDefault "active" bool fun v a => { a with active := v },
     .withDefault "username" (Json.Reader.optional string) fun v a => { a with username := v },
     .withDefault "userClass" (Json.Reader.optional string) fun v a => { a with userClass := v }]
    ⟨"", "", [], true, none, none⟩

/-- Reads a grant. -/
def grantReader : Json.Reader GrantEntry :=
  record
    [.required "module" string fun v g => { g with module := v },
     .required "consumer" string fun v g => { g with consumer := v },
     .withDefault "actions" (list string) fun v g => { g with actions := v },
     .withDefault "groups" (list string) fun v g => { g with groups := v },
     .withDefault "resources" (list ResourcePermission.reader) fun v g =>
        { g with resources := v },
     .withDefault "attributes" (members value) fun v g => { g with attributes := v }]
    ⟨"", "", [], [], [], []⟩

/-- Reads a rule. -/
def ruleReader : Json.Reader RuleEntry :=
  record
    [.required "module" string fun v r => { r with module := v },
     .required "group" string fun v r => { r with group := v },
     .required "permissions" (list ResourcePermission.reader) fun v r =>
        { r with permissions := v }]
    ⟨"", "", []⟩

/-- Reads a policy, of which every part may be left out. -/
def reader : Json.Reader Policy :=
  record
    [.withDefault "allowAll" bool fun v p => { p with allowAll := v },
     .withDefault "accounts" (list accountReader) fun v p => { p with accounts := v },
     .withDefault "grants" (list grantReader) fun v p => { p with grants := v },
     .withDefault "rules" (list ruleReader) fun v p => { p with rules := v }]
    empty

end Reading

/-- The policy in a text. -/
def parse (text : String) : Except PolicyError Policy :=
  (Json.document reader text).mapError .invalidText

/-- The policy in a file, given what was read of it. -/
def load (path : String) (contents : Option Bytes) : Except PolicyError Policy :=
  match contents.bind Utf8.decode? with
  | none => .error (.unreadable path)
  | some text => (Json.document reader (String.ofList text)).mapError (.invalidFile path)

/-- The variable that names the policy file. -/
def fileVariable : String :=
  "TOLLGATE_POLICY_FILE"

/-- The policy in the file that the environment names; without a name it is the empty one. -/
def ofEnvironment (env : Environment) (readFile : String → Option Bytes) :
    Except PolicyError Policy :=
  match (env.text? fileVariable).filter (· ≠ "") with
  | some path => load path (readFile path)
  | none => .ok empty

/-! ## What a policy says -/

/-- Adds an account. An inactive one is a user that is disabled, and no consumer. -/
def addAccount (d : Directory) (a : AccountEntry) : Directory :=
  if a.active then d.withAccount a.key a.secret a.groups
  else d.withUser ⟨a.key, a.secret, false, a.groups⟩

/-- The accounts. -/
def directory (p : Policy) : Directory :=
  p.accounts.foldl addAccount .empty

/-- Adds what one entry grants. -/
def addGrant (e : Entitlements) (g : GrantEntry) : Except InvalidModuleName Entitlements := do
  let scope : Scope := ⟨← ModuleName.ofString g.module, ⟨g.consumer⟩⟩
  let e := g.actions.foldl (fun e action => e.grantAction scope action) e
  let e := g.groups.foldl (fun e group => e.grantGroup scope group) e
  let e := g.resources.foldl (fun e p => e.grantResource scope p) e
  return g.attributes.foldl (fun e (name, value) => e.setAttribute scope name value) e

/-- Adds what one entry permits. -/
def addRule (e : Entitlements) (r : RuleEntry) : Except InvalidModuleName Entitlements := do
  let m ← ModuleName.ofString r.module
  return r.permissions.foldl (fun e p => e.addRule m r.group p) e

/-- Adds who an account belongs to, if it says so. -/
def addIdentity (e : Entitlements) (a : AccountEntry) : Entitlements :=
  match a.username with
  | some username => e.setIdentity ⟨a.key⟩ ⟨username, a.userClass.getD ""⟩
  | none => e

/-- The grants and rules. The first entry whose module name is invalid is an error, whatever else
it says. -/
def entitlements (p : Policy) : Except InvalidModuleName Entitlements := do
  let e ← p.grants.foldlM addGrant (.start p.allowAll)
  let e ← p.rules.foldlM addRule e
  return p.accounts.foldl addIdentity e

end Policy

end Gatehouse
