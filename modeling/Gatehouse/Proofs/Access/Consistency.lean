import Gatehouse.Proofs.Access.Run

/-!
# A service never contradicts itself

Whatever the backend answers, and however often it changes its mind, fails or is late, what a
service remembers fits together, for the service remembers nothing without grounds, and never
forgets or replaces an answer.

- `World.Consistent`: what the refusals that a service remembers say about the rest of its memory.
  They are all that could go wrong: what is granted needs no further support.
- `Grounded.consistent`: grounds make a memory consistent. A resource is refused only after all
  groups were asked whose rules cover it; they come from the rules, and a group of the rules is
  never refused.
- `DecisionCache.RepeatsFrom`: a service gives the same answer from a certain world on.
- `memory_consistent`: all this holds in every world that is reached, also in the middle of a
  lookup.
-/

namespace Gatehouse

namespace World

variable {σ : Type} {w : World σ} {id : ServiceId}

/-- What the refusals that a service remembers say about the rest of its memory. -/
structure Consistent (w : World σ) (id : ServiceId) : Prop where
  /-- A refused action is not allowed everywhere. -/
  action : ∀ name, w.slot id (.action name) = .filled false →
    w.slot id (.resource (.everywhere name)) = .filled false
  /-- There are no rules for a refused group. -/
  group : ∀ name, w.slot id (.group name) = .filled false →
    ∃ rules, w.slot id .rules = .filled rules ∧ rules.hasGroup name = false
  /-- No rule covers a refused resource. -/
  resource : ∀ p, w.slot id (.resource p) = .filled false →
    ∃ rules, w.slot id .rules = .filled rules ∧ rules.grant p = false

theorem Grounded.consistent (hw : w.Grounded) (id : ServiceId) : w.Consistent id where
  action name h := by
    rcases hw _ _ _ h with ⟨-, hfalse⟩ | ⟨-, heverywhere⟩
    · cases hfalse
    · exact heverywhere
  group name h := by
    rcases hw _ _ _ h with ⟨-, hfalse⟩ | ⟨-, rules, hrules, hfalse⟩
    · cases hfalse
    · exact ⟨rules, hrules, hfalse.symm⟩
  resource p h := by
    rcases hw.resource h with ⟨-, hfalse⟩ | ⟨-, rules, hrules, hfalse⟩
    · cases hfalse
    · exact ⟨rules, hrules, hfalse.symm⟩

end World

namespace DecisionCache

open World

variable {σ : Type} {cache : DecisionCache σ} {id : ServiceId} {q : Question} {w w' : World σ}

/-- From a certain world on, every decision on a question ends at once and in the same way: with a
certain answer, or with none if the service is invalidated by then. The backend is not asked. -/
def RepeatsFrom (cache : DecisionCache σ) (id : ServiceId) (q : Question) (answer : q.Answer)
    (w : World σ) : Prop :=
  ∀ w', Steps cache.limits w w' → ∀ depth,
    (cache.answerAt depth id q).run w' =
      if w'.isInvalidated id then (.error (.invalidated (Decision.scopeOf w' id)), w')
      else (.ok answer, w'.pass 1)

theorem repeatsFrom_of_filled {answer : q.Answer} (h : w.slot id q = .filled answer) :
    cache.RepeatsFrom id q answer w := by
  intro w' hsteps depth
  by_cases hmark : w'.isInvalidated id = true
  · rw [if_pos hmark]
    exact Decision.run_answerFrom_of_invalidated hmark q
  · rw [if_neg hmark]
    rw [Bool.not_eq_true] at hmark
    exact Decision.run_answerFrom_of_filled hmark (hsteps.leads.slot_filled h)

/-- What a decision answers is remembered, also if only the outcome of its run is known. -/
theorem refused_of_run_answerAt {depth : Nat} {refusal : q.Answer}
    (h : ((cache.answerAt depth id q).run w).1 = .ok refusal) :
    ((cache.answerAt depth id q).run w).2.slot id q = .filled refusal :=
  cache.slot_of_run_answerAt (Prod.ext h rfl)

/-- Every run goes by steps, and in every world that steps lead to, the memory of each service is
consistent and is only ever added to. An answer that was given is given again, without asking the
backend. No service refuses an action and allows it everywhere, whichever it was asked first, and
none refuses a group or a resource that the rules it knows grant. -/
theorem memory_consistent (cache : DecisionCache σ) (start : σ) (now : Instant) :
    (∀ commands, Steps cache.limits (.initial start now)
      (cache.after commands (.initial start now))) ∧
    ∀ w, Steps cache.limits (.initial start now) w → ∀ id,
      w.Consistent id ∧
      (∀ w', Steps cache.limits w w' → ∀ q answer, w.slot id q = .filled answer →
        w'.slot id q = .filled answer) ∧
      (∀ depth q answer w₁, (cache.answerAt depth id q).run w = (.ok answer, w₁) →
        w₁.slot id q = .filled answer ∧ cache.RepeatsFrom id q answer w₁) ∧
      (∀ depth name w₁, (cache.answerAt depth id (.action name)).run w = (.ok false, w₁) →
        cache.RepeatsFrom id (.resource (.everywhere name)) false w₁) ∧
      (∀ depth name w₁,
        (cache.answerAt depth id (.resource (.everywhere name))).run w = (.ok true, w₁) →
        ∀ w₂, Steps cache.limits w₁ w₂ → ∀ depth',
          ((cache.answerAt depth' id (.action name)).run w₂).1 ≠ .ok false) ∧
      (∀ depth rules, w.slot id .rules = .filled rules →
        (∀ name, rules.hasGroup name = true →
          ((cache.answerAt depth id (.group name)).run w).1 ≠ .ok false) ∧
        (∀ p, rules.grant p = true →
          ((cache.answerAt depth id (.resource p)).run w).1 ≠ .ok false)) := by
  refine ⟨fun commands => (cache.settles_after commands _).steps, fun w hreached id => ?_⟩
  -- whatever is reached later on is grounded, and so consistent
  have hlater : ∀ w', Steps cache.limits w w' → w'.Consistent id := fun w' hsteps =>
    (Steps.grounded (hreached.trans hsteps) (grounded_initial start now)).consistent id
  refine ⟨hlater w .refl, fun w' hsteps q answer h => hsteps.leads.slot_filled h, ?again, ?denied,
    ?allowed, ?ruled⟩
  case again =>
    intro depth q answer w₁ hrun
    have hfilled := cache.slot_of_run_answerAt hrun
    exact ⟨hfilled, repeatsFrom_of_filled hfilled⟩
  case denied =>
    intro depth name w₁ hrun
    have hsteps := (cache.settles_answerAt depth id (.action name) w).steps
    rw [hrun] at hsteps
    exact repeatsFrom_of_filled ((hlater w₁ hsteps).action name (cache.slot_of_run_answerAt hrun))
  case allowed =>
    intro depth name w₁ hrun w₂ hsteps₂ depth' hrefused
    have hsteps₁ := (cache.settles_answerAt depth id (.resource (.everywhere name)) w).steps
    have hsteps₃ := (cache.settles_answerAt depth' id (.action name) w₂).steps
    rw [hrun] at hsteps₁
    have hdenied := (hlater _ (hsteps₁.trans (hsteps₂.trans hsteps₃))).action name
      (refused_of_run_answerAt hrefused)
    have hallowed := (Steps.leads (hsteps₂.trans hsteps₃)).slot_filled
      (cache.slot_of_run_answerAt hrun)
    rw [hallowed] at hdenied
    cases hdenied
  case ruled =>
    intro depth rules hrules
    constructor
    · intro name hgroup hrefused
      have hsteps := (cache.settles_answerAt depth id (.group name) w).steps
      obtain ⟨rules', hrules', hno⟩ := (hlater _ hsteps).group name
        (refused_of_run_answerAt hrefused)
      rw [hsteps.leads.slot_filled hrules] at hrules'
      cases hrules'
      rw [hgroup] at hno
      cases hno
    · intro p hgrant hrefused
      have hsteps := (cache.settles_answerAt depth id (.resource p) w).steps
      obtain ⟨rules', hrules', hno⟩ := (hlater _ hsteps).resource p
        (refused_of_run_answerAt hrefused)
      rw [hsteps.leads.slot_filled hrules] at hrules'
      cases hrules'
      rw [hgrant] at hno
      cases hno

end DecisionCache

end Gatehouse
