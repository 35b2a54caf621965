import Gatehouse.Access.Backend
import Gatehouse.Access.Memo
import Gatehouse.Store

/-!
# The decision cache as a state

Everything that the answers to questions about access depend on.

- `Service`: remembers the answers for one scope, and knows when it was created and whether it
  has been invalidated.
- `LookupReport`: how a lookup on behalf of a service ended, and what the service makes of it.
- `World`: the clock, all services ever created, which of them are in the store, the state of the
  permission backend, a journal of what was asked of the backend and what it did meanwhile, and
  how the lookups ended.

A service that has left the store may still be asked by those who fetched it before; therefore
services are kept by number, and the store holds numbers.
-/

namespace Gatehouse

/-- Remembers the answers for one scope. -/
structure Service where
  scope : Scope
  createdAt : Instant
  invalidated : Bool
  memo : Memo

/-- Something that happened while a backend was asked. -/
inductive Occurrence where
  /-- The backend was asked. -/
  | called (scope : Scope) (question : Question)
  /-- The backend gave a command while it was being asked. -/
  | performed (command : Command) (reply : Reply)
deriving Repr, Inhabited

/-- The limits of the decision cache, in nanoseconds. -/
structure CacheLimits where
  /-- How old a service may grow. -/
  maxAge : Nat
  /-- How long a decision may wait for the backend. -/
  timeout : Nat
deriving DecidableEq, Repr, Inhabited

/-- How a lookup on behalf of a service ended. -/
structure LookupReport where
  service : ServiceId
  lookup : Lookup
  /-- When it ended. -/
  ended : Instant
  /-- What the backend concluded, unless it was too late to ask. -/
  result : Option (Except BackendError lookup.question.Answer)

/-- What the service makes of it. There is no answer if it was too late to ask, if the backend had
none, and if the answer came too late. -/
def LookupReport.outcome (limits : CacheLimits) (report : LookupReport) :
    Except AuthzError report.lookup.question.Answer :=
  let unavailable e := .error (.backendUnavailable report.lookup.scope e)
  match report.result with
  | none => unavailable (.timeout limits.timeout)
  | some (.error e) => unavailable e
  | some (.ok answer) =>
    if report.lookup.deadline < report.ended then unavailable (.timeout limits.timeout)
    else .ok answer

/-- Everything that answers depend on. -/
structure World (σ : Type) where
  now : Instant
  services : List Service
  store : Store ServiceId
  backend : σ
  /-- The latest occurrence comes first. -/
  journal : List Occurrence
  /-- How lookups ended; the latest comes first. -/
  lookups : List LookupReport

namespace World

variable {σ : Type}

/-- The state in which nothing has been asked yet. -/
def initial (backend : σ) (now : Instant) : World σ :=
  ⟨now, [], .empty, backend, [], []⟩

/-- A service by its number. -/
def service? (w : World σ) (id : ServiceId) : Option Service :=
  w.services[id]?

/-- Changes one service. -/
def modifyService (w : World σ) (id : ServiceId) (change : Service → Service) : World σ :=
  { w with services := w.services.modify id change }

/-- Whether a service has been invalidated. -/
def isInvalidated (w : World σ) (id : ServiceId) : Bool :=
  match w.service? id with
  | some service => service.invalidated
  | none => true

/-- Whether a service is older than the limit. -/
def isExpired (w : World σ) (limits : CacheLimits) (id : ServiceId) : Bool :=
  match w.service? id with
  | some service => limits.maxAge < w.now - service.createdAt
  | none => true

/-- Whether a service may answer new questions. -/
def isLive (w : World σ) (limits : CacheLimits) (id : ServiceId) : Bool :=
  !w.isExpired limits id && !w.isInvalidated id

/-- The slot of a question in a service. -/
def slot (w : World σ) (id : ServiceId) (q : Question) : Slot q.Answer :=
  match w.service? id with
  | some service => service.memo.get q
  | none => .empty

/-- Changes the slot of a question in a service. -/
def setSlot (w : World σ) (id : ServiceId) (q : Question) (slot : Slot q.Answer) : World σ :=
  w.modifyService id fun service => { service with memo := service.memo.set q slot }

/-- Notes an occurrence in the journal. -/
def note (w : World σ) (occurrence : Occurrence) : World σ :=
  { w with journal := occurrence :: w.journal }

/-- Records how a lookup ended. -/
def report (w : World σ) (report : LookupReport) : World σ :=
  { w with lookups := report :: w.lookups }

/-- Lets time pass. -/
def pass (w : World σ) (nanos : Nat) : World σ :=
  { w with now := w.now + nanos }

/-- Lets time pass until an instant, unless it is over already. -/
def passTo (w : World σ) (instant : Instant) : World σ :=
  { w with now := max w.now instant }

end World

end Gatehouse
