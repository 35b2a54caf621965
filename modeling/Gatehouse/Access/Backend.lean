import Gatehouse.Access.Event
import Gatehouse.Access.Question
import Gatehouse.Identity.Cache

/-!
# Permission backends

The source of the answers to questions about access. It has a state of its own, may answer
differently each time, may fail or be late, and while it is being asked anything may happen to
the gateway: modules may be invalidated, time may pass, and other questions may be asked.

- `Command` and `Reply`: everything that can be done with the decision cache, and what comes of
  it. The gateway's callers give commands, and so may a backend while it is being asked.
- `Lookup`: one question put to a backend, with the instant by which an answer is wanted.
- `Reaction`: what a backend does then. It gives commands, one after the other, and concludes
  when it knows the replies.
- `PermissionBackend`: reactions to all lookups in all states, and the time that passes before they
  are put.
-/

namespace Gatehouse

/-- The number of a service, in the order in which services are created. -/
abbrev ServiceId := Nat

/-- What can be done with the decision cache. -/
inductive Command where
  /-- Asks about a scope. -/
  | ask (scope : Scope) (inquiry : Inquiry)
  /-- Fetches the service of a scope, to ask it directly. -/
  | take (scope : Scope)
  /-- Asks a service that was fetched before. -/
  | askService (id : ServiceId) (inquiry : Inquiry)
  /-- Marks a service that was fetched before as invalid. -/
  | invalidateService (id : ServiceId)
  /-- Tells that something happened to a module. -/
  | event (module : ModuleName) (action : ModuleAction)
  /-- Invalidates the services of a module. -/
  | invalidate (module : ModuleName)
  /-- Drops the services that have grown too old. -/
  | evict
  /-- Drops all services. -/
  | clear
  /-- Lets time pass, in nanoseconds. -/
  | wait (nanos : Nat)
deriving DecidableEq, Repr, Inhabited

/-- What comes of a command. -/
inductive Reply where
  | finding (result : Except AuthzError Finding)
  | service (id : ServiceId)
  | count (n : Nat)
  | done
deriving Repr, Inhabited

/-- One question put to a backend. -/
structure Lookup where
  scope : Scope
  question : Question
  /-- When the question is put. -/
  now : Instant
  /-- When an answer comes too late. -/
  deadline : Instant
deriving DecidableEq, Repr, Inhabited

/-- How a lookup ends: how long it took after the last command, and its result. -/
structure Conclusion (α : Type) where
  elapsed : Nat
  result : Except BackendError α
deriving Repr

/-- What a backend does when it is asked. -/
structure Reaction (σ α : Type) where
  commands : List Command
  conclude : List Reply → σ → Conclusion α × σ

/-- A source of answers; `σ` is what it carries from one call to the next. -/
structure PermissionBackend (σ : Type) where
  /-- How long it takes until a lookup that is due is put to the backend, in nanoseconds. Lookups
  differ in their deadlines or in their questions, so each can be held up in its own way. -/
  delay : Lookup → Nat := fun _ => 0
  react : (l : Lookup) → σ → Reaction σ l.question.Answer × σ

/-- The reaction that answers at once. -/
def Reaction.immediate {σ α : Type} (result : Except BackendError α) : Reaction σ α where
  commands := []
  conclude _ state := (⟨0, result⟩, state)

/-- The backend that answers every question of a scope at once, by a fixed function. -/
def PermissionBackend.ofFunction (answer : Scope → (q : Question) → q.Answer) :
    PermissionBackend Unit where
  react l state := (.immediate (.ok (answer l.scope l.question)), state)

end Gatehouse
