import Gatehouse.Access.Permission
import Gatehouse.Name
import Gatehouse.Text.Duration

/-!
# Questions about access

What can be asked about a consumer within a module, and the ways in which it can stay unanswered.

- `Question`: the six things that are looked up and remembered, each with a type of answers.
- `Inquiry`: what callers ask; each rests on one question.
- `BackendError` and `AuthzError`: why there is no answer.
-/

namespace Gatehouse

/-- Attributes of a consumer, in ascending order of their names. -/
abbrev Attributes := List (String × Json.Value)

/-- Who a consumer is. -/
structure ConsumerIdentity where
  username : String
  userClass : String
deriving DecidableEq, Repr, Inhabited

/-- What is looked up about a consumer within a module. -/
inductive Question where
  /-- May the consumer perform an action? -/
  | action (name : String)
  /-- Is the consumer a member of a group? -/
  | group (name : String)
  /-- May the consumer do something to a resource? -/
  | resource (permission : ResourcePermission)
  /-- What are the members of each group of the module permitted? -/
  | rules
  /-- Which attributes does the consumer have? -/
  | attributes
  /-- Who is the consumer? -/
  | identity
deriving DecidableEq, Repr, Inhabited

namespace Question

/-- The type of the answers to a question. -/
abbrev Answer : Question → Type
  | .action _ => Bool
  | .group _ => Bool
  | .resource _ => Bool
  | .rules => GroupRules
  | .attributes => Attributes
  | .identity => Option ConsumerIdentity

/-- The kind of a question, in one word. -/
def kind : Question → String
  | .action _ => "action"
  | .group _ => "group"
  | .resource _ => "resource"
  | .rules => "rules"
  | .attributes => "attributes"
  | .identity => "identity"

/-- What a question is about. -/
def subject : Question → String
  | .action name => name
  | .group name => name
  | .resource permission => permission.text
  | _ => ""

end Question

/-! ## Missing answers -/

/-- Why the permission backend gave no answer. -/
inductive BackendError where
  /-- It took longer than so many nanoseconds. -/
  | timeout (nanos : Nat)
  | unavailable (reason : String)
deriving DecidableEq, Repr, Inhabited

/-- The wording of the error. -/
def BackendError.message : BackendError → String
  | .timeout nanos => "permission backend timed out after " ++ Text.duration nanos
  | .unavailable reason => "permission backend unavailable: " ++ reason

/-- Why a question stays unanswered. -/
inductive AuthzError where
  /-- The permission backend gave no answer. -/
  | backendUnavailable (scope : Scope) (source : BackendError)
  /-- What was remembered does not hold any more. -/
  | invalidated (scope : Scope)
deriving DecidableEq, Repr, Inhabited

/-- The wording of the error. -/
def AuthzError.message : AuthzError → String
  | .backendUnavailable scope source =>
    "authorization of " ++ scope.consumer.text ++ " in module " ++ scope.module.text
      ++ " is indeterminate: " ++ source.message
  | .invalidated scope =>
    "cached decisions of " ++ scope.consumer.text ++ " in module " ++ scope.module.text
      ++ " were invalidated"

/-! ## What callers ask -/

/-- A question whose answer is yes or no. -/
inductive AccessQuery where
  | action (name : String)
  | group (name : String)
  | resource (permission : ResourcePermission)
deriving DecidableEq, Repr, Inhabited

/-- What an access check comes to. -/
inductive AccessDecision where
  | allow
  | deny
  /-- There is no answer. -/
  | indeterminate
deriving DecidableEq, Repr, Inhabited

namespace AccessDecision

/-- The decision that an answer amounts to. -/
def ofBool (allowed : Bool) : AccessDecision :=
  if allowed then .allow else .deny

/-- Whether access is allowed; without an answer it is not. -/
def isAllowed : AccessDecision → Bool
  | .allow => true
  | _ => false

/-- The name of a decision. -/
def text : AccessDecision → String
  | .allow => "Allow"
  | .deny => "Deny"
  | .indeterminate => "Indeterminate"

end AccessDecision

/-- What callers ask. -/
inductive Inquiry where
  | action (name : String)
  | group (name : String)
  | resource (resourceClass resourceId action : String)
  | resourceAnyAction (resourceClass resourceId : String)
  | attributes
  | username
  | userClass
  | identity
  | check (query : AccessQuery)
deriving DecidableEq, Repr, Inhabited

/-- What callers are told. -/
inductive Finding where
  | truth (b : Bool)
  | attributes (a : Attributes)
  | name (n : Option String)
  | identity (i : Option ConsumerIdentity)
  | decision (d : AccessDecision)
deriving Repr, Inhabited

/-- The question that an access query asks. -/
def AccessQuery.question : AccessQuery → Question
  | .action name => .action name
  | .group name => .group name
  | .resource p => .resource (.of p.resourceClass p.resourceId p.action)

/-- An answer to an access query. -/
def AccessQuery.holds : (query : AccessQuery) → query.question.Answer → Bool
  | .action _, answer => answer
  | .group _, answer => answer
  | .resource _, answer => answer

/-- What an access query comes to, answered or not. -/
def AccessQuery.decision (query : AccessQuery) :
    Except AuthzError query.question.Answer → AccessDecision
  | .ok answer => .ofBool (query.holds answer)
  | .error _ => .indeterminate

namespace Inquiry

/-- The question that an inquiry rests on. -/
def question : Inquiry → Question
  | .action name => .action name
  | .group name => .group name
  | .resource c i a => .resource (.of c i a)
  | .resourceAnyAction c i => .resource (.of c i ResourcePermission.wildcard)
  | .attributes => .attributes
  | .username => .identity
  | .userClass => .identity
  | .identity => .identity
  | .check query => query.question

/-- What the caller is told. A check is decided even without an answer. -/
def conclude : (inquiry : Inquiry) → Except AuthzError inquiry.question.Answer →
    Except AuthzError Finding
  | .action _, answer => answer.map Finding.truth
  | .group _, answer => answer.map Finding.truth
  | .resource _ _ _, answer => answer.map Finding.truth
  | .resourceAnyAction _ _, answer => answer.map Finding.truth
  | .attributes, answer => answer.map Finding.attributes
  | .username, answer => answer.map fun i => .name (i.map ConsumerIdentity.username)
  | .userClass, answer => answer.map fun i => .name (i.map ConsumerIdentity.userClass)
  | .identity, answer => answer.map Finding.identity
  | .check query, answer => .ok (.decision (query.decision answer))

end Inquiry

end Gatehouse
