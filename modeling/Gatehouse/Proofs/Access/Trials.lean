import Gatehouse.Proofs.Access.Plan
import Gatehouse.Proofs.Access.Transparency
import Mathlib.Algebra.Order.BigOperators.Group.List
import Mathlib.Algebra.Order.Ring.Nat

/-!
# Decisions that are started again

If the service of a scope was invalidated while it decided, the decision is started again with the
service that came after it. So what one decision costs is to be multiplied by the number of tries.

- `Trial`: one try, with the service that was fetched for it.
- `Trials`: the tries of a decision, and what it comes to.
- `exists_trials`: how a decision for a scope goes.
- `Trials.steps`: every try starts in a world that is reached, so what holds in such worlds holds of
  every try.
- `DecisionCache.lookups_are_bounded`: what decisions cost, in every world that is reached.
-/

namespace Gatehouse

/-- One try of a decision for a scope: the service that was fetched for it, and the world after
that. -/
structure Trial (σ : Type) where
  service : ServiceId
  start : World σ

section Trials

open World

variable {σ : Type} (limits : CacheLimits) (consult : Consult σ) (scope : Scope) (q : Question)

namespace Trial

/-- The service of a scope is fetched for a try. -/
def fetch (w : World σ) : Trial σ :=
  ⟨(w.fetch limits scope).1, (w.fetch limits scope).2⟩

/-- How a try goes. -/
def run (trial : Trial σ) : Except AuthzError q.Answer × World σ :=
  (Decision.answerFrom limits consult trial.service q).run trial.start

/-- The lookups of a try; the latest comes first. -/
def lookups (trial : Trial σ) : List LookupReport :=
  trial.start.lookupsOf (trial.run limits consult q).2 trial.service
    (trial.start.now + limits.timeout)

end Trial

/-- The tries of a decision for a scope that is started again a number of times at most, and its
outcome. It is started again if the service was invalidated, in the world in which the try ended. -/
inductive Trials :
    Nat → World σ → List (Trial σ) → Except AuthzError q.Answer × World σ → Prop where
  | last {retries : Nat} {w : World σ}
    (h : retries = 0 ∨ ∀ s, ((Trial.fetch limits scope w).run limits consult q).1 ≠
      .error (.invalidated s)) :
    Trials retries w [.fetch limits scope w] ((Trial.fetch limits scope w).run limits consult q)
  | again {retries : Nat} {w : World σ} {s : Scope} {trials : List (Trial σ)}
    {outcome : Except AuthzError q.Answer × World σ}
    (h : ((Trial.fetch limits scope w).run limits consult q).1 = .error (.invalidated s))
    (rest : Trials retries ((Trial.fetch limits scope w).run limits consult q).2 trials outcome) :
    Trials (retries + 1) w (.fetch limits scope w :: trials) outcome

/-- A decision for a scope goes through its tries. -/
theorem exists_trials (retries : Nat) (w : World σ) :
    ∃ trials, Trials limits consult scope q retries w trials
      ((answerWithin limits consult retries scope q).run w) := by
  induction retries generalizing w with
  | zero => exact ⟨_, .last (.inl rfl)⟩
  | succ n ih =>
    rw [run_answerWithin_succ]
    change ∃ trials, Trials limits consult scope q (n + 1) w trials
      (match (Trial.fetch limits scope w).run limits consult q with
      | (.error (.invalidated _), w') => (answerWithin limits consult n scope q).run w'
      | (.error (.backendUnavailable s e), w') => (.error (.backendUnavailable s e), w')
      | (.ok answer, w') => (.ok answer, w'))
    have hlast : (∀ s, ((Trial.fetch limits scope w).run limits consult q).1 ≠
        .error (.invalidated s)) → ∃ trials, Trials limits consult scope q (n + 1) w trials
          ((Trial.fetch limits scope w).run limits consult q) := fun h => ⟨_, .last (.inr h)⟩
    cases hrun : (Trial.fetch limits scope w).run limits consult q with
    | mk outcome w' =>
      rw [hrun] at hlast
      rcases outcome with (⟨s, e⟩ | s) | answer
      · exact hlast nofun
      · obtain ⟨trials, hrest⟩ := ih w'
        exact ⟨.fetch limits scope w :: trials, .again (by rw [hrun]) (by rw [hrun]; exact hrest)⟩
      · exact hlast nofun

end Trials

namespace Trials

open World Decision

variable {σ : Type} {limits : CacheLimits} {consult : Consult σ} {scope : Scope} {q : Question}
  {retries : Nat} {w : World σ} {trials : List (Trial σ)}
  {outcome : Except AuthzError q.Answer × World σ}

theorem length_le (h : Trials limits consult scope q retries w trials outcome) :
    trials.length ≤ retries + 1 := by
  induction h with
  | last => exact Nat.le_add_left 1 _
  | again _ _ ih => exact Nat.succ_le_succ ih

/-- What bounds the lookups of each try bounds those of all together. -/
theorem sum_lookups_le (h : Trials limits consult scope q retries w trials outcome) {bound : Nat}
    (hbound : ∀ trial ∈ trials, (trial.lookups limits consult q).length ≤ bound) :
    (trials.map fun trial => (trial.lookups limits consult q).length).sum ≤
      (retries + 1) * bound := by
  have hsum := List.sum_le_card_nsmul _ bound (List.forall_mem_map.2 hbound)
  rw [List.length_map, Nat.nsmul_eq_mul] at hsum
  exact hsum.trans (Nat.mul_le_mul_right bound h.length_le)

/-- A decision comes to what its last try comes to, and all others met a mark. -/
theorem exists_last (h : Trials limits consult scope q retries w trials outcome) :
    ∃ front last, trials = front ++ [last] ∧ last.run limits consult q = outcome ∧
      ∀ trial ∈ front, ∃ s, (trial.run limits consult q).1 = .error (.invalidated s) := by
  induction h with
  | last => exact ⟨[], _, rfl, rfl, List.forall_mem_nil _⟩
  | again hfirst _ ih =>
    obtain ⟨front, last, rfl, hlast, hfront⟩ := ih
    exact ⟨_ :: front, last, rfl, hlast, List.forall_mem_cons.2 ⟨⟨_, hfirst⟩, hfront⟩⟩

/-- The service of every try but the last one was invalidated. -/
theorem invalidated (h : Trials limits consult scope q retries w trials outcome) :
    ∀ trial ∈ trials.dropLast, ∃ s, (trial.run limits consult q).1 = .error (.invalidated s) := by
  obtain ⟨front, last, rfl, -, hfront⟩ := h.exists_last
  rwa [List.dropLast_concat]

theorem steps_fetch_run (hconsult : Reliable limits consult) (w : World σ) :
    Steps limits w ((Trial.fetch limits scope w).run limits consult q).2 :=
  ((settles_fetch limits w scope).trans (settles_answerFrom hconsult _ q _)).steps

/-- Every try starts in a world that was reached by then. -/
theorem steps (hconsult : Reliable limits consult)
    (h : Trials limits consult scope q retries w trials outcome) :
    ∀ trial ∈ trials, Steps limits w trial.start := by
  induction h with
  | last => exact List.forall_mem_singleton.2 (settles_fetch limits _ scope).steps
  | again _ _ ih =>
    exact List.forall_mem_cons.2 ⟨(settles_fetch limits _ scope).steps,
      fun trial hmem => (steps_fetch_run hconsult _).trans (ih trial hmem)⟩

theorem steps_outcome (hconsult : Reliable limits consult)
    (h : Trials limits consult scope q retries w trials outcome) : Steps limits w outcome.2 := by
  induction h with
  | last => exact steps_fetch_run hconsult _
  | again _ _ ih => exact (steps_fetch_run hconsult _).trans ih

/-- If each try leaves nothing but reports of its own lookups, so do all together. -/
theorem newReports_eq (hconsult : Reliable limits consult)
    (hown : ∀ trial : Trial σ, trial.start.newReports (trial.run limits consult q).2 =
      trial.lookups limits consult q)
    (h : Trials limits consult scope q retries w trials outcome) :
    w.newReports outcome.2 =
      (trials.map (Trial.lookups limits consult q)).reverse.flatten := by
  have hfirst : ∀ w : World σ, w.newReports ((Trial.fetch limits scope w).run limits consult q).2 =
      (Trial.fetch limits scope w).lookups limits consult q := by
    intro w
    rw [← hown]
    have hsame : (w.fetch limits scope).2.lookups = w.lookups := by rw [fetch_eq]
    simp only [newReports, Trial.fetch, hsame]
  induction h with
  | last => rw [hfirst, List.map_singleton, List.reverse_singleton, List.flatten_singleton]
  | again _ hrest ih =>
    rw [newReports_trans (steps_fetch_run hconsult _).lookups_suffix
      (hrest.steps_outcome hconsult).lookups_suffix, ih, hfirst, List.map_cons, List.reverse_cons,
      List.flatten_append, List.flatten_singleton]

end Trials

/-- A resource is refused only if no rule matches. -/
theorem World.Grounded.no_match_of_refused {σ : Type} {w : World σ} (hw : w.Grounded)
    {id : ServiceId} {p : ResourcePermission} (hrefused : w.slot id (.resource p) = .filled false) :
    ∃ rules, w.slot id .rules = .filled rules ∧ rules.firstMatch p = none := by
  obtain ⟨rules, hrules, hgrant⟩ := (hw.consistent id).resource p hrefused
  exact ⟨rules, hrules, GroupRules.firstMatch_eq_none_of_grant hgrant⟩

namespace DecisionCache

open World Decision

variable {σ : Type} (cache : DecisionCache σ) {w : World σ}

/-- The lookups of one decision are planned, so they are four at most, and no two of a kind. -/
theorem planned_answerAt (hgrounded : w.Grounded) (depth : Nat) (id : ServiceId) (q : Question) :
    let run := (cache.answerAt (depth + 1) id q).run w
    let lookups := w.lookupsOf run.2 id (w.now + cache.limits.timeout)
    List.Sublist (lookups.reverse.map (·.lookup.question)) (plan (run.2.slot id .rules) q) ∧
      lookups.length ≤ 4 ∧ (lookups.map (·.lookup.question.kind)).Nodup := by
  intro run lookups
  have hasked : List.Sublist (lookups.reverse.map (·.lookup.question))
      (plan (run.2.slot id .rules) q) :=
    questionsOf_answerFrom (reliable_consultAt cache.backend (depth + 1))
      (accounts_consultAt cache.backend depth) hgrounded id q
  refine ⟨hasked, ?_, ?_⟩
  · have hlength := Nat.le_trans hasked.length_le (length_plan_le _ q)
    rwa [List.length_map, List.length_reverse] at hlength
  · have hnodup := (nodup_plan _ q).sublist (hasked.map Question.kind)
    rw [List.map_map, List.map_reverse, List.nodup_reverse] at hnodup
    exact hnodup

/-- In every world that is reached, a decision makes four lookups at most, no two of a kind: those
that are planned, and in that order. None is made after one that has failed, and the decision then
fails with its error. If rules are looked through, then the first group that matches decides, and
it does not refuse; so a resource or an action is refused only if no group matches. A decision for a
scope is tried four times at most and makes sixteen lookups at most, none after one that has failed.
If the backend asks nothing itself, these lookups are all that it is asked. -/
theorem lookups_are_bounded (cache : DecisionCache σ) {start : σ} {now : Instant} {w : World σ}
    (hreached : Steps cache.limits (.initial start now) w) :
    (∀ depth id q,
      let run := (cache.answerAt (depth + 1) id q).run w
      let lookups := w.lookupsOf run.2 id (w.now + cache.limits.timeout)
      (List.Sublist (lookups.reverse.map (·.lookup.question)) (plan (run.2.slot id .rules) q) ∧
        lookups.length ≤ 4 ∧ (lookups.map (·.lookup.question.kind)).Nodup) ∧
      (∀ report ∈ lookups, ∀ source, report.failure? cache.limits = some source →
        lookups.head? = some report ∧
        run.1 = .error (.backendUnavailable (scopeOf w id) source)) ∧
      (cache.backend.Quiet → w.newReports run.2 = lookups)) ∧
    (∀ depth id deadline p rules, w.slot id .rules = .filled rules →
      (grantedByRule cache.limits (consultAt cache.limits cache.backend depth) id deadline p
          rules.entries).run w =
        (match rules.firstMatch p with
        | none => (.ok false, w)
        | some name => (resolve cache.limits (consultAt cache.limits cache.backend depth) id
            deadline (.group name)).run w) ∧
      ∀ name, rules.firstMatch p = some name →
        ((resolve cache.limits (consultAt cache.limits cache.backend depth) id deadline
          (.group name)).run w).1 ≠ .ok false) ∧
    (∀ depth id p w₁, (cache.answerAt depth id (.resource p)).run w = (.ok false, w₁) →
      ∃ rules, w₁.slot id .rules = .filled rules ∧ rules.firstMatch p = none) ∧
    (∀ depth id name w₁, (cache.answerAt depth id (.action name)).run w = (.ok false, w₁) →
      ∃ rules, w₁.slot id .rules = .filled rules ∧ rules.firstMatch (.everywhere name) = none) ∧
    ∀ scope q, ∃ trials,
      Trials cache.limits cache.consult scope q invalidationRetries w trials
        ((cache.answerScope scope q).run w) ∧
      trials.length ≤ 4 ∧
      (trials.map fun trial => (trial.lookups cache.limits cache.consult q).length).sum ≤ 16 ∧
      (∀ trial ∈ trials, Steps cache.limits w trial.start) ∧
      (∀ trial ∈ trials.dropLast,
        Answered cache.limits (trial.lookups cache.limits cache.consult q)) ∧
      (cache.backend.Quiet → w.newReports ((cache.answerScope scope q).run w).2 =
        (trials.map (Trial.lookups cache.limits cache.consult q)).reverse.flatten) := by
  have hgrounded : w.Grounded := hreached.grounded (grounded_initial start now)
  refine ⟨fun depth id q => ⟨?planned, ?failed, ?quiet⟩, ?first, ?resource, ?action, ?scope⟩
  case planned => exact cache.planned_answerAt hgrounded depth id q
  case failed =>
    intro report hmem source hfailure
    exact (cache.account_answerAt depth id q w).of_failure hmem hfailure
  case quiet => exact fun hquiet => newReports_of_quiet hquiet depth id q w
  case first =>
    intro depth id deadline p rules hrules
    have hconsult : Reliable cache.limits (consultAt cache.limits cache.backend depth) :=
      reliable_consultAt cache.backend depth
    refine ⟨run_grantedByRule hconsult hgrounded hrules, fun name hfirst => ?_⟩
    obtain ⟨rule, hrule, rfl⟩ := Option.map_eq_some_iff.1 hfirst
    exact group_not_refused hconsult hgrounded hrules (List.mem_of_find?_eq_some hrule)
  case resource =>
    intro depth id p w₁ hrun
    have hsteps := (cache.settles_answerAt depth id (.resource p) w).steps
    rw [hrun] at hsteps
    exact (hsteps.grounded hgrounded).no_match_of_refused (cache.slot_of_run_answerAt hrun)
  case action =>
    intro depth id name w₁ hrun
    have hsteps := (cache.settles_answerAt depth id (.action name) w).steps
    rw [hrun] at hsteps
    have hend := hsteps.grounded hgrounded
    -- a refused action is not allowed everywhere either
    exact hend.no_match_of_refused ((hend.consistent id).action name
      (cache.slot_of_run_answerAt hrun))
  case scope =>
    intro scope q
    obtain ⟨trials, htrials⟩ :=
      exists_trials cache.limits cache.consult scope q invalidationRetries w
    have hsteps := htrials.steps cache.reliable_consult
    refine ⟨trials, htrials, htrials.length_le, ?sum, hsteps, ?answered, ?quiet⟩
    case sum =>
      show _ ≤ (invalidationRetries + 1) * 4
      refine htrials.sum_lookups_le fun trial hmem => ?_
      exact (cache.planned_answerAt ((hsteps trial hmem).grounded hgrounded) cache.depth
        trial.service q).2.1
    case answered =>
      intro trial hmem
      obtain ⟨s, hinvalidated⟩ := htrials.invalidated trial hmem
      have haccount := cache.account_answerAt cache.depth trial.service q trial.start
      have hsame : ((cache.answerAt (cache.depth + 1) trial.service q).run trial.start).1 =
          .error (.invalidated s) := hinvalidated
      rw [hsame] at haccount
      exact haccount.answered_of_invalidated
    case quiet =>
      intro hquiet
      exact htrials.newReports_eq cache.reliable_consult fun trial =>
        newReports_of_quiet hquiet cache.depth trial.service q trial.start

/-- The cache of a wiki that stops whenever it is asked about one of its groups. -/
def restlessWiki : DecisionCache Unit where
  limits := ⟨100, 10⟩
  backend :=
    { react := fun l _ =>
        (⟨if l.question.kind = "group" then [.event l.scope.module .stop] else [],
          fun _ _ => (⟨1, .ok (wikiAnswers l.question)⟩, ())⟩, ()) }
  depth := 0

/-- Someone asks to read, after an hour. -/
def restlessStart : World Unit :=
  restlessWiki.after [.wait 3600] (.initial () 0)

/-- A decision that is started again as often as possible, and asks all that is planned each time,
makes sixteen lookups, which is the bound. -/
theorem restless_wiki_asks_sixteen_times :
    Steps restlessWiki.limits (.initial () 0) restlessStart ∧
    ((restlessWiki.answerScope wikiScope (.action "read")).run restlessStart).2.lookups.length =
      16 ∧
    ∃ trials, Trials restlessWiki.limits restlessWiki.consult wikiScope (.action "read")
        invalidationRetries restlessStart trials
        ((restlessWiki.answerScope wikiScope (.action "read")).run restlessStart) ∧
      (trials.map fun trial => (trial.lookups restlessWiki.limits restlessWiki.consult
        (.action "read")).length).sum ≤ 16 := by
  have hreached : Steps restlessWiki.limits (.initial () 0) restlessStart :=
    (restlessWiki.settles_after _ _).steps
  obtain ⟨-, -, -, -, hscope⟩ := lookups_are_bounded restlessWiki hreached
  obtain ⟨trials, htrials, -, hsum, -⟩ := hscope wikiScope (.action "read")
  exact ⟨hreached, by decide +kernel, trials, htrials, hsum⟩

end DecisionCache

end Gatehouse
