import Gatehouse.Proofs.Access.Run

/-!
# What decisions and commands keep

A condition on worlds that depends neither on slots nor on the time is kept by whole decisions, if
it is kept by single lookups. If no other change of services and store breaks it, all commands keep
it. So it is enough to look at one lookup of the backend at hand.

- `Decision.Invariant`: a condition that lookups, slots and time leave alone.
- `Invariant.answerFrom`, `Invariant.answerWithin`: decisions keep it.
- `CommandInvariant`, `CommandInvariant.perform` and `CommandInvariant.after`: commands keep it.
-/

namespace Gatehouse

namespace Decision

open World

variable {σ : Type} {limits : CacheLimits} {consult : Consult σ} {P : World σ → Prop}
  {w : World σ}

/-- A condition that is kept by lookups, by changes of slots, and while time passes. -/
structure Invariant (consult : Consult σ) (P : World σ → Prop) : Prop where
  slot : ∀ w id q slot, P w → P (w.setSlot id q slot)
  ask : ∀ w id deadline q, P w → P ((consult id deadline q).run w).2
  pass : ∀ w nanos, P w → P (w.pass nanos)

namespace Invariant

variable (hP : Invariant consult P)

include hP

theorem at_deadline (id : ServiceId) (deadline : Instant) : InvariantAt consult id deadline P where
  slot w q slot hw := hP.slot w id q slot hw
  ask w q hw := hP.ask w id deadline q hw
  pass w nanos hw := hP.pass w nanos hw

/-- One decision of a service keeps the condition. -/
theorem answerFrom (hconsult : Reliable limits consult) (id : ServiceId) (q : Question)
    (hw : P w) : P ((answerFrom limits consult id q).run w).2 :=
  (hP.at_deadline id _).answerFrom hconsult q hw

/-- So does a decision for a scope, if the condition is kept when a service is fetched. -/
theorem answerWithin (hconsult : Reliable limits consult) {scope : Scope}
    (hfetch : ∀ w, P w → P (w.fetch limits scope).2) (retries : Nat) (q : Question) (hw : P w) :
    P ((answerWithin limits consult retries scope q).run w).2 :=
  answerWithin_keeps (fun w hw => hP.answerFrom hconsult _ q (hfetch w hw)) retries hw

end Invariant

end Decision

/-! ## Commands -/

section Commands

open World

variable {σ : Type} {limits : CacheLimits} {consult : Consult σ} {P : World σ → Prop}
  {w : World σ}

/-- A condition that is kept when services are created and marked, and when they leave the
store. -/
structure CommandInvariant (limits : CacheLimits) (consult : Consult σ) (P : World σ → Prop) :
    Prop extends Decision.Invariant consult P where
  fetch : ∀ w scope, P w → P (w.fetch limits scope).2
  mark : ∀ w id, P w → P (w.markInvalid id)
  invalidate : ∀ w m, P w → P (w.invalidate m).2
  store : ∀ w store, P w → P { w with store }

namespace CommandInvariant

/-- Every command keeps the condition. -/
theorem perform (hP : CommandInvariant limits consult P)
    (hconsult : Decision.Reliable limits consult) (command : Command) (hw : P w) :
    P ((perform limits consult command).run w).2 := by
  cases command with
  | ask scope inquiry =>
    exact hP.answerWithin hconsult (fun w => hP.fetch w scope) invalidationRetries _ hw
  | take scope => exact hP.fetch w scope hw
  | askService id inquiry => exact hP.answerFrom hconsult id _ hw
  | invalidateService id => exact hP.mark w id hw
  | event m action =>
    cases action with
    | stop => exact hP.invalidate w m hw
    | securityChanged => exact hP.invalidate w m hw
    | start => exact hw
    | startFailed => exact hw
  | invalidate m => exact hP.invalidate w m hw
  | evict => exact hP.store w _ hw
  | clear => exact hP.store w _ hw
  | wait nanos => exact hP.pass w nanos hw

/-- So does every sequence of commands. -/
theorem after {cache : DecisionCache σ} (hP : CommandInvariant cache.limits cache.consult P)
    (commands : List Command) (hw : P w) : P (cache.after commands w) := by
  induction commands generalizing w with
  | nil => exact hw
  | cons command rest ih =>
    rw [DecisionCache.after_cons]
    exact ih (hP.perform cache.reliable_consult command hw)

end CommandInvariant

end Commands

end Gatehouse
