import Gatehouse.Access.World

/-!
# Decisions

How a service finds the answer to a question. Answers are remembered; what is not remembered is
asked of the backend, and some questions fall back on others:

- an action that is not granted directly is allowed if it is allowed on every resource;
- a resource that is not granted directly is allowed if a rule of the module covers it and the
  consumer belongs to the group of that rule;
- a group that the backend does not report counts if the module has rules for it.

All lookups of one decision share a deadline. A failure ends the decision and is not remembered,
and a service that has been invalidated gives no answer, not even one that it has just found.

- `Consult`: how to put a question to the backend. The decisions are independent of how that is
  done, so that a backend may ask back.
- `remember`: takes an answer from its slot, or fills the slot.
- `resolve`: the answer to any question.
- `answerFrom`: one decision of a service, from setting the deadline to giving the answer.
-/

namespace Gatehouse

/-- A computation on the world that may stay without result. Changes made before stay. -/
abbrev Decision (σ α : Type) := ExceptT AuthzError (StateM (World σ)) α

/-- Puts a question to the backend, on behalf of a service and before a deadline. -/
abbrev Consult (σ : Type) := ServiceId → Instant → (q : Question) → Decision σ q.Answer

namespace Decision

variable {σ : Type}

/-- The scope of a service. -/
def scopeOf (w : World σ) (id : ServiceId) : Scope :=
  ((w.service? id).map Service.scope).getD default

/-- The failure to answer in time. -/
def timedOut (limits : CacheLimits) (w : World σ) (id : ServiceId) : AuthzError :=
  .backendUnavailable (scopeOf w id) (.timeout limits.timeout)

/-- Fails if a service has been invalidated. -/
def ensureCurrent (id : ServiceId) : Decision σ Unit := do
  let w ← get
  if w.isInvalidated id then throw (.invalidated (scopeOf w id))

/-- Takes the answer to a question from its slot. An empty slot is filled by `load`, unless that
fails; a slot that someone else is filling is waited for until the deadline, in vain. -/
def remember (limits : CacheLimits) (id : ServiceId) (deadline : Instant) (q : Question)
    (load : Decision σ q.Answer) : Decision σ q.Answer := ExceptT.mk fun w =>
  match w.slot id q with
  | .filled answer => (.ok answer, w)
  | .loading => (.error (timedOut limits w id), w.passTo (deadline + 1))
  | .empty =>
    match load.run (w.setSlot id q .loading) with
    | (.ok answer, w) => (.ok answer, w.setSlot id q (.filled answer))
    | (.error e, w) => (.error e, w.setSlot id q .empty)

section Resolution

variable (limits : CacheLimits) (consult : Consult σ) (id : ServiceId) (deadline : Instant)

/-- A question that falls back on no other. -/
def direct (q : Question) : Decision σ q.Answer :=
  remember limits id deadline q (consult id deadline q)

/-- Whether the consumer belongs to a group: the backend says so, or there are rules for it. -/
def inGroup (group : String) : Decision σ Bool :=
  remember limits id deadline (.group group) do
    if ← consult id deadline (.group group) then return true
    let rules ← direct limits consult id deadline .rules
    return rules.hasGroup group

/-- Whether the consumer belongs to the group of some rule that covers the permission. -/
def grantedByRule (requested : ResourcePermission) :
    List (String × List ResourcePermission) → Decision σ Bool
  | [] => return false
  | (group, granted) :: rest => do
    if granted.any (·.covers requested) then
      if ← inGroup limits consult id deadline group then return true
      else grantedByRule requested rest
    else grantedByRule requested rest

/-- Whether a resource may be accessed: the backend says so, or a rule does. -/
def mayAccess (requested : ResourcePermission) : Decision σ Bool :=
  remember limits id deadline (.resource requested) do
    if ← consult id deadline (.resource requested) then return true
    let rules ← direct limits consult id deadline .rules
    grantedByRule limits consult id deadline requested rules.entries

/-- Whether an action may be performed: the backend says so, or it is allowed everywhere. -/
def mayPerform (action : String) : Decision σ Bool :=
  remember limits id deadline (.action action) do
    if ← consult id deadline (.action action) then return true
    mayAccess limits consult id deadline (.everywhere action)

/-- The answer to any question. -/
def resolve : (q : Question) → Decision σ q.Answer
  | .action name => mayPerform limits consult id deadline name
  | .group name => inGroup limits consult id deadline name
  | .resource permission => mayAccess limits consult id deadline permission
  | .rules => direct limits consult id deadline .rules
  | .attributes => direct limits consult id deadline .attributes
  | .identity => direct limits consult id deadline .identity

end Resolution

/-- Sets the deadline of a decision that starts now. The clock moves on by the least amount, for
every decision takes some time: a deadline that leaves no time at all is over at once. -/
def setDeadline (limits : CacheLimits) : Decision σ Instant := do
  let w ← get
  set (w.pass 1)
  return w.now + limits.timeout

/-- One decision of a service: it must be current when the decision starts and when it ends, and
the deadline counts from the start. -/
def answerFrom (limits : CacheLimits) (consult : Consult σ) (id : ServiceId) (q : Question) :
    Decision σ q.Answer := do
  ensureCurrent id
  let deadline ← setDeadline limits
  let answer ← resolve limits consult id deadline q
  ensureCurrent id
  return answer

end Decision

end Gatehouse
