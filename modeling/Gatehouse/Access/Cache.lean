import Gatehouse.Access.Decision
import Gatehouse.Config

/-!
# The decision cache

Services by module and consumer, and all that can be done with them.

- `fetch`: the live service of a scope. A missing, expired or invalidated one is replaced.
- `answerScope`: one decision for a scope. If the service is invalidated meanwhile, a fresh one
  is asked, at most four in all.
- `invalidate`, `evict`, `clear`: the ways in which services leave the store. Only the first
  marks them, so that those who hold them get no more answers.
- `perform`: any command.
- `lookUp`: a lookup at the backend, during which the backend may give commands of its own.
- `delayed`: time passes before each lookup, so that the deadline may be over when it is put.
- `consultAt`: lookups whose commands may lead to lookups again, down to a bounded depth.
- `DecisionCache`: limits, backend and depth together, with `run` for a list of commands.
-/

namespace Gatehouse

namespace CacheLimits

/-- The limits that hold when nothing is said: fifteen minutes and five seconds. -/
def standard : CacheLimits :=
  ⟨seconds 900, seconds 5⟩

/-- The limits that a configuration asks for. -/
def ofConfig (c : Config) : CacheLimits :=
  ⟨seconds c.decisionMaxAgeSecs, millis c.backendTimeoutMs⟩

end CacheLimits

namespace World

variable {σ : Type}

/-- The live service of a scope. -/
def fetch (limits : CacheLimits) (scope : Scope) (w : World σ) : ServiceId × World σ :=
  let (id, found, store) := w.store.access scope (w.isLive limits) w.services.length
  match found with
  | .live => (id, w)
  | _ => (id, { w with
      services := w.services ++ [⟨scope, w.now, false, .empty⟩]
      store })

/-- Marks a service as invalid. -/
def markInvalid (w : World σ) (id : ServiceId) : World σ :=
  w.modifyService id fun service => { service with invalidated := true }

/-- Marks the services of a module that are in the store, drops them, and counts them. -/
def invalidate (m : ModuleName) (w : World σ) : Nat × World σ :=
  let marked := (w.store.entries.filter fun (scope, _) => scope.module = m).foldl
    (fun w (_, id) => w.markInvalid id) w
  let (count, store) := w.store.removeModule m
  (count, { marked with store })

/-- Drops the services that have grown too old, and counts them. -/
def evict (limits : CacheLimits) (w : World σ) : Nat × World σ :=
  let (count, store) := w.store.keepOnly fun _ id => !w.isExpired limits id
  (count, { w with store })

/-- Drops all services. -/
def clear (w : World σ) : World σ :=
  { w with store := w.store.reset }

/-- The number of services in the store. -/
def cached (w : World σ) : Nat :=
  w.store.size

end World

/-- How often a decision is tried again after its service was invalidated. -/
def invalidationRetries : Nat :=
  3

section Commands

variable {σ : Type} (limits : CacheLimits) (consult : Consult σ)

/-- One decision for a scope, tried again so many times if the service is invalidated. -/
def answerWithin : Nat → Scope → (q : Question) → Decision σ q.Answer
  | 0, scope, q => ExceptT.mk fun w =>
    let (id, w) := w.fetch limits scope
    (Decision.answerFrom limits consult id q).run w
  | n + 1, scope, q => ExceptT.mk fun w =>
    let (id, w) := w.fetch limits scope
    match (Decision.answerFrom limits consult id q).run w with
    | (.error (.invalidated _), w) => (answerWithin n scope q).run w
    | outcome => outcome

/-- One decision for a scope. -/
def answerScope (scope : Scope) (q : Question) : Decision σ q.Answer :=
  answerWithin limits consult invalidationRetries scope q

/-- Performs a command. -/
def perform : Command → StateM (World σ) Reply
  | .ask scope inquiry => do
    return .finding (inquiry.conclude (← (answerScope limits consult scope inquiry.question).run))
  | .take scope => do
    return .service (← modifyGet fun w => w.fetch limits scope)
  | .askService id inquiry => do
    return .finding
      (inquiry.conclude (← (Decision.answerFrom limits consult id inquiry.question).run))
  | .invalidateService id => do
    modify fun w => w.markInvalid id
    return .done
  | .event m action => do
    if action.invalidatesSecurity then
      modify fun w => (w.invalidate m).2
    return .done
  | .invalidate m => do
    return .count (← modifyGet fun w => w.invalidate m)
  | .evict => do
    return .count (← modifyGet fun w => w.evict limits)
  | .clear => do
    modify World.clear
    return .done
  | .wait nanos => do
    modify fun w => w.pass nanos
    return .done

end Commands

section Lookups

variable {σ : Type}

/-- Performs the commands of a backend, and notes them in the journal. -/
def performAll (obey : Command → StateM (World σ) Reply) :
    List Command → StateM (World σ) (List Reply)
  | [] => return []
  | command :: rest => do
    let reply ← obey command
    modify fun w => w.note (.performed command reply)
    return reply :: (← performAll obey rest)

/-- Puts a question to the backend. It is not asked at all after the deadline, and an answer that
comes after the deadline is dropped. -/
def lookUp (limits : CacheLimits) (backend : PermissionBackend σ)
    (obey : Command → StateM (World σ) Reply) : Consult σ :=
  fun id deadline q => ExceptT.mk fun w =>
    let lookup : Lookup := ⟨Decision.scopeOf w id, q, w.now, deadline⟩
    if deadline < w.now then
      let report : LookupReport := ⟨id, lookup, w.now, none⟩
      (report.outcome limits, w.report report)
    else
      let (reaction, state) := backend.react lookup w.backend
      let w := { w with backend := state }.note (.called lookup.scope q)
      let (replies, w) := (performAll obey reaction.commands).run w
      let (conclusion, state) := reaction.conclude replies w.backend
      let w := { w with backend := state }.pass conclusion.elapsed
      let report : LookupReport := ⟨id, lookup, w.now, some conclusion.result⟩
      (report.outcome limits, w.report report)

/-- Puts questions in a given way, each after the time that it is held up. The deadline does not
wait for that. -/
def delayed (backend : PermissionBackend σ) (consult : Consult σ) : Consult σ :=
  fun id deadline q => ExceptT.mk fun w =>
    (consult id deadline q).run
      (w.pass (backend.delay ⟨Decision.scopeOf w id, q, w.now, deadline⟩))

/-- Lookups, each after its delay, during which the backend's own commands may lead to lookups
again, down to a depth. At depth zero no backend can be reached. -/
def consultAt (limits : CacheLimits) (backend : PermissionBackend σ) : Nat → Consult σ
  | 0 => fun id _ _ => ExceptT.mk fun w => (.error (Decision.timedOut limits w id), w)
  | depth + 1 =>
    delayed backend (lookUp limits backend (perform limits (consultAt limits backend depth)))

end Lookups

/-- A decision cache: its limits, the backend behind it, and how deep the backend may ask back. -/
structure DecisionCache (σ : Type) where
  limits : CacheLimits
  backend : PermissionBackend σ
  depth : Nat

namespace DecisionCache

variable {σ : Type} (cache : DecisionCache σ)

/-- How the cache puts questions to its backend. -/
def consult : Consult σ :=
  consultAt cache.limits cache.backend (cache.depth + 1)

/-- One decision for a scope. -/
def answerScope (scope : Scope) (q : Question) : Decision σ q.Answer :=
  Gatehouse.answerScope cache.limits cache.consult scope q

/-- One decision of a service that was fetched before. -/
def answerFrom (id : ServiceId) (q : Question) : Decision σ q.Answer :=
  Decision.answerFrom cache.limits cache.consult id q

/-- Checks access, which is denied if there is no answer. -/
def check (scope : Scope) (query : AccessQuery) : StateM (World σ) AccessDecision := do
  return query.decision (← (cache.answerScope scope query.question).run)

/-- Performs a command. -/
def perform (command : Command) : StateM (World σ) Reply :=
  Gatehouse.perform cache.limits cache.consult command

/-- Performs commands one after the other. -/
def run (commands : List Command) : StateM (World σ) (List Reply) :=
  commands.mapM cache.perform

end DecisionCache

end Gatehouse
