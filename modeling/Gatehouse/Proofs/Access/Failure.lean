import Gatehouse.Access.Entitlements
import Gatehouse.Proofs.Access.Calls

/-!
# Failures are passed on and forgotten

A decision fails with the first of its lookups that fails, and with the error of that lookup. It
makes no other lookup afterwards. The slot of its question is closed again, so the next decision on
the same question asks the backend anew; what was remembered before stays. All lookups of a decision
share its deadline, and time may pass before each of them. So the deadline may be over when a lookup
is put, at the first one as well as later; then it fails without a call of the backend.

- `slot_of_refused`: the slot of a question is empty if a lookup was made and gave no answer.
- `DecisionCache.fails_with_its_lookup`: all this, of every decision in every world. The other way
  round, a decision that is alone fails for no other reason.
-/

namespace Gatehouse

namespace Decision

open World

variable {σ : Type} {limits : CacheLimits} {consult : Consult σ} {id : ServiceId}
  {deadline : Instant} {q : Question} {w w' : World σ} {e : AuthzError}

theorem slot_setSlot_empty (w : World σ) (id : ServiceId) (q : Question) :
    (w.setSlot id q .empty).slot id q = .empty := by
  cases hs : w.service? id with
  | some service => exact slot_setSlot_self hs q .empty
  | none => rw [World.slot, service?_setSlot, hs, Option.map_none]

/-- A question that was asked of the backend and has no answer has an empty slot. -/
theorem slot_of_run_resolve (hrun : (resolve limits consult id deadline q).run w = (.error e, w'))
    (hasked : w'.lookups ≠ w.lookups) : w'.slot id q = .empty := by
  cases hslot : w.slot id q with
  | filled answer =>
    rw [run_resolve_of_filled hslot] at hrun
    cases hrun
  | loading =>
    -- whoever waits for another decision asks nothing
    rw [resolve_eq, run_remember_of_loading deadline _ hslot] at hrun
    cases hrun
    exact absurd rfl hasked
  | empty =>
    cases hload : (consult id deadline q >>= followUp limits consult id deadline q).run
        (w.setSlot id q .loading) with
    | mk outcome w₁ =>
      rw [resolve_eq, run_remember_of_empty deadline _ hslot hload] at hrun
      cases hrun
      exact slot_setSlot_empty w₁ id q

theorem slot_of_refused (hrun : (answerFrom limits consult id q).run w = (.error e, w'))
    (hrefused : ∀ scope, e ≠ .invalidated scope) (hasked : w'.lookups ≠ w.lookups) :
    w'.slot id q = .empty := by
  by_cases hmark : w.isInvalidated id = true
  · rw [run_answerFrom_of_invalidated hmark] at hrun
    cases hrun
    exact absurd rfl (hrefused _)
  · rw [Bool.not_eq_true] at hmark
    rw [run_answerFrom_of_current hmark] at hrun
    cases hresolve : (resolve limits consult id (w.now + limits.timeout) q).run (w.pass 1) with
    | mk outcome w₁ =>
      rw [hresolve] at hrun
      cases outcome with
      | error e₁ =>
        cases hrun
        exact slot_of_run_resolve hresolve hasked
      | ok answer =>
        by_cases hend : w₁.isInvalidated id = true
        · simp only [hend, if_true] at hrun
          cases hrun
          exact absurd rfl (hrefused _)
        · simp only [hend] at hrun
          cases hrun

end Decision

namespace DecisionCache

open World Decision

variable {σ : Type} (cache : DecisionCache σ)

/-- A decision takes its lookups as they come. If one of them fails, because the backend has no
answer, or because the answer comes after the deadline, or because the deadline is over when the
lookup is put, then it is the last one, and the decision fails with its error. In the last of these
cases the backend is not called: it has no result exactly for the lookups that come too late, and it
was called for no other lookups than those that have one. The question is not remembered after a
failure, so that the next decision on it begins by looking it up again. No answer that any service
remembers is lost. A decision that fails in this way has made a lookup that failed, or some slot of
its service was open before it started; this is never the case between commands. -/
theorem fails_with_its_lookup (depth : Nat) (id : ServiceId) (q : Question) (w : World σ) :
    let run := (cache.answerAt (depth + 1) id q).run w
    let lookups := w.lookupsOf run.2 id (w.now + cache.limits.timeout)
    (∀ report ∈ lookups, ∀ source, report.failure? cache.limits = some source →
      run.1 = .error (.backendUnavailable (scopeOf w id) source) ∧
      lookups.head? = some report ∧
      run.2.slot id q = .empty ∧
      ∀ w', Steps cache.limits run.2 w' → w'.slot id q = .empty → w'.isInvalidated id = false →
        BeginsWith (firstLookup cache.backend cache.limits w' id q)
          (w'.lookupsOf ((cache.answerAt (depth + 1) id q).run w').2 id
            (w'.now + cache.limits.timeout))) ∧
    (∀ report ∈ lookups,
      (report.result = none ↔ w.now + cache.limits.timeout < report.lookup.now) ∧
      (report.result = none → lookups.head? = some report ∧
        run.1 = .error (.backendUnavailable (scopeOf w id) (.timeout cache.limits.timeout)))) ∧
    (w.newCalls run.2).Perm ((w.newReports run.2).filterMap LookupReport.call?) ∧
    (∀ id' q' answer, w.slot id' q' = .filled answer → run.2.slot id' q' = .filled answer) ∧
    (∀ scope source, run.1 = .error (.backendUnavailable scope source) →
      (∃ report, lookups.head? = some report ∧ report.failure? cache.limits = some source) ∨
      ∃ q', w.slot id q' = .loading) ∧
    ∀ start now commands, w = cache.after commands (.initial start now) →
      ∀ q', w.slot id q' ≠ .loading := by
  intro run lookups
  have haccount : Account cache.backend cache.limits w run.2 id lookups run.1 :=
    cache.account_answerAt depth id q w
  refine ⟨?failed, ?late, (cache.tallies_answerAt _ id q w).newCalls_perm, ?kept, ?reasons, ?alone⟩
  case failed =>
    intro report hmem source hfailure
    have hasked : run.2.lookups ≠ w.lookups := by
      intro hsame
      rw [show lookups = [] from lookupsOf_of_eq hsame id _] at hmem
      cases hmem
    obtain ⟨hlast, houtcome⟩ := haccount.of_failure hmem hfailure
    have hrun : (cache.answerAt (depth + 1) id q).run w =
        (.error (.backendUnavailable (scopeOf w id) source), run.2) := Prod.ext houtcome rfl
    refine ⟨houtcome, hlast, slot_of_refused hrun nofun hasked, ?_⟩
    intro w' _ hempty hcurrent
    exact cache.first_lookup_answerAt depth hcurrent hempty
  case late =>
    intro report hmem
    have hpunctual : report.Punctual := (cache.extends_answerAt (depth + 1) id q w).punctual hmem
    refine ⟨?_, fun hresult => haccount.of_failure hmem ?_⟩
    · rw [hpunctual.result_eq_none_iff, deadline_of_mem_lookupsOf hmem]
    · rw [LookupReport.failure?, hresult]
  case kept =>
    intro id' q' answer hfilled
    exact (cache.settles_answerAt (depth + 1) id q w).steps.leads.slot_filled hfilled
  case reasons =>
    intro scope source houtcome
    rw [houtcome] at haccount
    refine haccount.of_unavailable.imp_left ?_
    rintro ⟨report, hlast, hfailure, -⟩
    exact ⟨report, hlast, hfailure⟩
  case alone =>
    rintro start now commands rfl q'
    exact (cache.atRest_after start now commands).idle id q'

/-- The rules are due when there is time left, but they are held up until it is too late. -/
example :
    let backend : PermissionBackend Unit :=
      { delay := fun l => if l.question = .rules then 20 else 0
        react := fun l state => (.immediate (.ok l.question.nothing), state) }
    let cache : DecisionCache Unit := ⟨⟨100, 10⟩, backend, 0⟩
    let scope : Scope := ⟨⟨"wiki"⟩, ⟨"ada"⟩⟩
    let read : Question := .resource (.everywhere "read")
    let w := ((initial () 0).fetch cache.limits scope).2
    let run := (cache.answerAt 1 0 read).run w
    run.1 = .error (.backendUnavailable scope (.timeout 10)) ∧ w.newCalls run.2 = [(scope, read)] :=
  ⟨rfl, rfl⟩

end DecisionCache

end Gatehouse
