import Gatehouse.Proofs.Access.Invariant
import Gatehouse.Proofs.Access.Transparency

/-!
# Decisions over entitlements

The backend in memory answers at once, and nothing changes it. So every question of a caller is
answered, by what was granted and by nothing else: it makes no difference what was asked before,
how old the services are, and what was invalidated.

- `run_lookUp_in_time`: a lookup of the backend in memory.
- `commandInvariant_serves`: the entitlements stay as they are, and all lookups are answered by them.
- `answer_ask`: what every question of a caller is answered.
-/

namespace Gatehouse.Entitlements

open World

variable {limits : CacheLimits} {obey : Command → StateM (World Entitlements) Reply}
  {e : Entitlements} {w : World Entitlements} {id : ServiceId} {deadline : Instant} {q : Question}

/-! ## Lookups -/

/-- The report of a lookup that the backend in memory answers. -/
def reportOf (w : World Entitlements) (id : ServiceId) (deadline : Instant) (q : Question) :
    LookupReport :=
  ⟨id, ⟨Decision.scopeOf w id, q, w.now, deadline⟩, w.now,
    some (.ok (w.backend.answer (Decision.scopeOf w id) q))⟩

/-- A lookup in time is answered at once. -/
theorem run_lookUp_in_time (h : ¬deadline < w.now) :
    (lookUp limits backend obey id deadline q).run w =
      ((reportOf w id deadline q).outcome limits,
        (w.note (.called (Decision.scopeOf w id) q)).report (reportOf w id deadline q)) :=
  if_neg h

/-! ## What stays as it is -/

/-- The backend has certain entitlements, and every lookup was answered by them. -/
def Serves (e : Entitlements) (w : World Entitlements) : Prop :=
  w.backend = e ∧ w.AnsweredBy e.answer

theorem serves_initial (e : Entitlements) (now : Instant) : e.Serves (.initial e now) :=
  ⟨rfl, List.forall_mem_nil _⟩

theorem Serves.of_eq {w' : World Entitlements} (h : e.Serves w) (hbackend : w'.backend = w.backend)
    (hlookups : w'.lookups = w.lookups) : e.Serves w' := by
  unfold Serves AnsweredBy
  rw [hbackend, hlookups]
  exact h

theorem Serves.report {report : LookupReport} (h : e.Serves w)
    (hreport : ∀ result, report.result = some result →
      result = .ok (e.answer report.lookup.scope report.lookup.question) ∧
        report.ended ≤ report.lookup.deadline) : e.Serves (w.report report) :=
  ⟨h.1, List.forall_mem_cons.2 ⟨hreport, h.2⟩⟩

theorem Serves.lookUp (h : e.Serves w) (id : ServiceId) (deadline : Instant) (q : Question) :
    e.Serves ((lookUp limits backend obey id deadline q).run w).2 := by
  by_cases hlate : deadline < w.now
  · rw [run_lookUp_of_late backend obey hlate]
    exact h.report nofun
  · rw [run_lookUp_in_time hlate]
    have hnoted : e.Serves (w.note (.called (Decision.scopeOf w id) q)) := h.of_eq rfl rfl
    refine hnoted.report ?_
    rintro _ ⟨⟩
    exact ⟨by rw [h.1]; rfl, Nat.not_lt.1 hlate⟩

/-- The entitlements stay as they are, whatever is done with the cache. -/
theorem commandInvariant_serves (limits : CacheLimits)
    (obey : Command → StateM (World Entitlements) Reply) (e : Entitlements) :
    CommandInvariant limits (lookUp limits backend obey) e.Serves where
  slot _ _ _ _ h := h.of_eq rfl rfl
  ask _ id deadline q h := h.lookUp id deadline q
  pass _ _ h := h.of_eq rfl rfl
  fetch w scope h := h.of_eq (by rw [fetch_eq]) (by rw [fetch_eq])
  mark _ _ h := h.of_eq rfl rfl
  invalidate w m h := h.of_eq (by rw [invalidate_eq]) (by rw [invalidate_eq])
  store _ _ h := h.of_eq rfl rfl

theorem marked_lookUp (w : World Entitlements) (id : ServiceId) (deadline : Instant) (q : Question)
    (scope : Scope) :
    ((lookUp limits backend obey id deadline q).run w).2.marked scope = w.marked scope := by
  by_cases hlate : deadline < w.now
  · rw [run_lookUp_of_late backend obey hlate]
    rfl
  · rw [run_lookUp_in_time hlate]
    rfl

/-- While a decision is under way, no service is invalidated. -/
theorem invariant_marked (limits : CacheLimits) (obey : Command → StateM (World Entitlements) Reply)
    (scope : Scope) (marked : Finset ServiceId) :
    Decision.Invariant (lookUp limits backend obey) fun w => w.marked scope ⊆ marked where
  slot w id q slot h := (marked_setSlot w id q slot scope).trans h
  ask w id deadline q h := by
    rw [marked_lookUp]
    exact h
  pass _ _ h := h

/-! ## Answers -/

/-- A question of a caller is answered as it would be without a cache. -/
theorem answer_ask (htime : 0 < limits.timeout) (depth : Nat) (e : Entitlements) (now : Instant)
    (commands : List Command) (scope : Scope) (inquiry : Inquiry) :
    let cache : DecisionCache Entitlements := ⟨limits, backend, depth⟩
    ((cache.perform (.ask scope inquiry)).run (cache.after commands (.initial e now))).1 =
      .finding (inquiry.conclude (.ok (Reference.holds (e.answer scope) inquiry.question))) := by
  intro cache
  let before := cache.after commands (.initial e now)
  obtain ⟨outcome, after, hrun⟩ : ∃ outcome after,
      (answerWithin cache.limits cache.consult invalidationRetries scope inquiry.question).run
        before = (outcome, after) := ⟨_, _, rfl⟩
  have hserves : CommandInvariant cache.limits cache.consult e.Serves :=
    commandInvariant_serves limits (perform limits (consultAt limits backend depth)) e
  have hanswers := hserves.answerWithin cache.reliable_consult (fun w => hserves.fetch w scope)
    invalidationRetries inquiry.question (hserves.after commands (serves_initial e now))
  have hquiet : Decision.Invariant cache.consult fun w => w.marked scope ⊆ before.marked scope :=
    invariant_marked limits (perform limits (consultAt limits backend depth)) scope _
  have hmarked := hquiet.answerWithin cache.reliable_consult
    (fun w h => (marked_fetch w cache.limits scope scope).trans h) invalidationRetries
    inquiry.question (Finset.Subset.refl _)
  rw [hrun] at hanswers hmarked
  have hcount : (after.marked scope).card ≤ (before.marked scope).card + invalidationRetries :=
    Nat.le_trans (Finset.card_le_card hmarked) (Nat.le_add_right _ _)
  -- what is in memory is not held up
  have hprompt : cache.backend.Prompt cache.limits := ⟨htime, fun _ => rfl⟩
  obtain rfl := DecisionCache.answer_within depth invalidationRetries
    (cache.atRest_after e now commands) hrun (.inl hprompt) hanswers.2 hcount
  show Reply.finding (inquiry.conclude ((answerWithin cache.limits cache.consult
    invalidationRetries scope inquiry.question).run before).1) = _
  rw [hrun]

end Gatehouse.Entitlements
