import Gatehouse.Access.Backend

/-!
# Entitlements

A permission backend in memory: who was granted what, and what the groups of each module are
permitted. It answers every lookup at once, by a fixed function of what was granted.

- `Entitlements`: the grants.
- `Entitlements.answer`: the answer to any question about a scope.
- `Question.nothing`: the answer of a backend that grants nothing.
-/

namespace Gatehouse

/-- The answer that grants nothing. -/
def Question.nothing : (q : Question) → q.Answer
  | .action _ => false
  | .group _ => false
  | .resource _ => false
  | .rules => Table.empty
  | .attributes => []
  | .identity => none

/-- What was granted to one consumer within one module. -/
structure Grants where
  actions : List String
  groups : List String
  resources : List ResourcePermission
  attributes : Attributes
deriving Repr, Inhabited

/-- No grants. -/
def Grants.none : Grants :=
  ⟨[], [], [], []⟩

/-- What was granted to all. -/
structure Entitlements where
  /-- Whether everything is granted to everyone. -/
  allowAll : Bool
  grants : Table Scope Grants
  rules : Table ModuleName GroupRules
  identities : Table ConsumerKey ConsumerIdentity
deriving Repr, Inhabited

namespace Entitlements

/-- No entitlements, or all. -/
def start (allowAll : Bool) : Entitlements :=
  ⟨allowAll, .empty, .empty, .empty⟩

/-- What was granted within a scope. -/
def grantsOf (e : Entitlements) (scope : Scope) : Grants :=
  (e.grants.get? scope).getD .none

/-- What the groups of a module are permitted. -/
def rulesOf (e : Entitlements) (m : ModuleName) : GroupRules :=
  (e.rules.get? m).getD .empty

/-- Changes what was granted within a scope. -/
def modifyGrants (e : Entitlements) (scope : Scope) (change : Grants → Grants) : Entitlements :=
  { e with grants := e.grants.put scope (change (e.grantsOf scope)) }

/-- Grants an action. -/
def grantAction (e : Entitlements) (scope : Scope) (action : String) : Entitlements :=
  e.modifyGrants scope fun g => { g with actions := g.actions ++ [action] }

/-- Grants the membership of a group. -/
def grantGroup (e : Entitlements) (scope : Scope) (group : String) : Entitlements :=
  e.modifyGrants scope fun g => { g with groups := g.groups ++ [group] }

/-- Grants access to a resource. -/
def grantResource (e : Entitlements) (scope : Scope) (p : ResourcePermission) : Entitlements :=
  e.modifyGrants scope fun g => { g with resources := g.resources ++ [p] }

/-- Sets an attribute. -/
def setAttribute (e : Entitlements) (scope : Scope) (name : String) (value : Json.Value) :
    Entitlements :=
  e.modifyGrants scope fun g => { g with attributes := Json.putMember name value g.attributes }

/-- A list with an element added, unless it is there already. -/
def addOnce (p : ResourcePermission) (granted : List ResourcePermission) :
    List ResourcePermission :=
  if granted.contains p then granted else granted ++ [p]

/-- Permits something to the members of a group of a module. -/
def addRule (e : Entitlements) (m : ModuleName) (group : String) (p : ResourcePermission) :
    Entitlements :=
  let rules := e.rulesOf m
  { e with rules := e.rules.put m (rules.put group (addOnce p ((rules.get? group).getD []))) }

/-- Tells who a consumer is. -/
def setIdentity (e : Entitlements) (consumer : ConsumerKey) (identity : ConsumerIdentity) :
    Entitlements :=
  { e with identities := e.identities.put consumer identity }

/-- The answer to a question about a scope. -/
def answer (e : Entitlements) (scope : Scope) : (q : Question) → q.Answer
  | .action name => e.allowAll || (e.grantsOf scope).actions.contains name
  | .group name => e.allowAll || (e.grantsOf scope).groups.contains name
  | .resource p => e.allowAll || (e.grantsOf scope).resources.contains p
  | .rules => e.rulesOf scope.module
  | .attributes => (e.grantsOf scope).attributes
  | .identity => e.identities.get? scope.consumer

/-- The entitlements as a backend. -/
def backend : PermissionBackend Entitlements where
  react l e := (.immediate (.ok (e.answer l.scope l.question)), e)

end Entitlements

end Gatehouse
