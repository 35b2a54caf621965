import Gatehouse.Proofs.Access.Marks
import Gatehouse.Proofs.Access.Trials

/-!
# What decisions are started again for

A decision for a scope is started again if the service that decided was marked meanwhile. Each try
has a service of its own, which had no mark when it was fetched, so a mark in the end was put by a
command that the backend gave in the course of that try. An answer never comes from a service with
a mark.

- `Trials.fetched`, `Trials.services_nodup`: the services of the tries.
- `Trials.length_eq_of_invalidated`: how many tries there are if none comes to an answer.
- `invalidated_at_end`, `performed_of_invalidated`: a try that comes to nothing because of a mark.
- `decisions_start_again_for_marks`: all of this, and what the store holds.
- `marked_service_stays_in_store`: a mark that no invalidation has put.
-/

namespace Gatehouse

/-- The command of an occurrence, if it is one. -/
def Occurrence.command? : Occurrence → Option Command
  | .called _ _ => none
  | .performed command _ => some command

/-! ## Tries -/

namespace Trials

open World Decision

variable {σ : Type} {limits : CacheLimits} {consult : Consult σ} {scope : Scope} {q : Question}
  {retries : Nat} {w : World σ} {trials : List (Trial σ)}
  {outcome : Except AuthzError q.Answer × World σ}

/-- A decision that comes to nothing because of marks was tried as often as possible. -/
theorem length_eq_of_invalidated (h : Trials limits consult scope q retries w trials outcome)
    {s : Scope} (houtcome : outcome.1 = .error (.invalidated s)) :
    trials.length = retries + 1 := by
  induction h with
  | last h =>
    rcases h with rfl | hother
    · rfl
    · exact absurd houtcome (hother s)
  | again _ _ ih => exact congrArg (· + 1) (ih houtcome)

/-- Every try begins with a service of the scope that has no mark. -/
theorem fetched (hconsult : Reliable limits consult) (hw : w.Coherent)
    (h : Trials limits consult scope q retries w trials outcome) :
    ∀ trial ∈ trials, ∃ service, trial.start.service? trial.service = some service ∧
      service.scope = scope ∧ service.invalidated = false := by
  induction h with
  | last => exact List.forall_mem_singleton.2 (hw.fetched limits scope)
  | again _ _ ih =>
    exact List.forall_mem_cons.2 ⟨hw.fetched limits scope,
      ih ((steps_fetch_run hconsult _).leads.coherent hw)⟩

/-- A service that is marked already is not asked. -/
theorem notMem_services (hconsult : Reliable limits consult) (hw : w.Coherent)
    (h : Trials limits consult scope q retries w trials outcome) {id : ServiceId}
    {service : Service} (hs : w.service? id = some service) (hmark : service.invalidated = true) :
    id ∉ trials.map Trial.service := by
  intro hmem
  obtain ⟨trial, htrial, rfl⟩ := List.mem_map.1 hmem
  obtain ⟨service', hs', -, hcurrent⟩ := h.fetched hconsult hw trial htrial
  have hstill := Leads.isInvalidated (h.steps hconsult trial htrial).leads hs hmark
  rw [isInvalidated_eq_of_service hs', hcurrent] at hstill
  cases hstill

/-- No two tries have the same service, if each service that is blamed for the next try is marked
by then. -/
theorem services_nodup (hconsult : Reliable limits consult)
    (hmarked : ∀ (trial : Trial σ) s, (trial.run limits consult q).1 = .error (.invalidated s) →
      (trial.run limits consult q).2.isInvalidated trial.service = true)
    (hw : w.Coherent) (h : Trials limits consult scope q retries w trials outcome) :
    (trials.map Trial.service).Nodup := by
  induction h with
  | last => exact List.nodup_singleton _
  | @again retries w s trials outcome hfirst hrest ih =>
    have hleads : Leads limits w ((Trial.fetch limits scope w).run limits consult q).2 :=
      (steps_fetch_run hconsult w).leads
    have hw' := Leads.coherent hleads hw
    obtain ⟨service, hs, -, -⟩ := hw.fetched limits scope
    have hrun := (settles_answerFrom hconsult (w.fetch limits scope).1 q (w.fetch limits scope).2)
    obtain ⟨service', hs', -⟩ := hrun.later hs
    have hmark := hmarked _ s hfirst
    refine List.nodup_cons.2 ⟨hrest.notMem_services hconsult hw' hs' ?_, ih hw'⟩
    rw [← isInvalidated_eq_of_service hs']
    exact hmark

end Trials

namespace DecisionCache

open World Decision

variable {σ : Type} (cache : DecisionCache σ) {w : World σ} {id : ServiceId} {q : Question}

/-! ## Marks that end a try -/

/-- A decision that comes to nothing because of a mark has met it. -/
theorem invalidated_at_end {depth : Nat} {s : Scope}
    (h : ((cache.answerAt (depth + 1) id q).run w).1 = .error (.invalidated s)) :
    ((cache.answerAt (depth + 1) id q).run w).2.isInvalidated id = true := by
  have haccount := cache.account_answerAt depth id q w
  rw [h] at haccount
  exact haccount.of_invalidated

/-- The mark was put by a command of the backend, if it was not there in the beginning. -/
theorem performed_of_invalidated (hw : w.Coherent) {depth : Nat} {s : Scope} {service : Service}
    (hs : w.service? id = some service) (hcurrent : service.invalidated = false)
    (h : ((cache.answerAt (depth + 1) id q).run w).1 = .error (.invalidated s)) :
    ∃ command, Performed command w ((cache.answerAt (depth + 1) id q).run w).2 ∧
      command.Marks id service.scope.module := by
  obtain ⟨command, hdue, hmarks⟩ := (cache.explained_answerAt hw (depth + 1) id q).marked id
    service hs hcurrent (cache.invalidated_at_end h)
  exact ⟨command, hdue.resolve_left not_false, hmarks⟩

/-! ## The result -/

/-- A decision for a scope has been started again for marks, and for nothing else: some tries that
met a mark, and a last one. -/
structure StartedAgain (limits : CacheLimits) (consult : Consult σ) (scope : Scope) (q : Question)
    (w : World σ) (front : List (Trial σ)) (last : Trial σ)
    (outcome : Except AuthzError q.Answer × World σ) : Prop where
  trials : Trials limits consult scope q invalidationRetries w (front ++ [last]) outcome
  bounded : (front ++ [last]).length ≤ 4
  distinct : ((front ++ [last]).map Trial.service).Nodup
  /-- The service of a try belongs to the scope and has no mark when it is fetched. -/
  fetched : ∀ trial ∈ front ++ [last], ∃ service,
    trial.start.service? trial.service = some service ∧
      service.scope = scope ∧ service.invalidated = false
  retried : ∀ trial ∈ front, ∃ s, (trial.run limits consult q).1 = .error (.invalidated s)
  /-- What the last try comes to is what the decision comes to. -/
  concluded : last.run limits consult q = outcome
  /-- A mark was put in the course of the try, by the backend. -/
  due : ∀ trial ∈ front ++ [last], ∀ s,
    (trial.run limits consult q).1 = .error (.invalidated s) →
    ∃ command, Performed command trial.start (trial.run limits consult q).2 ∧
      command.Marks trial.service scope.module
  exhausted : ∀ s, outcome.1 = .error (.invalidated s) → front.length = 3
  /-- An answer comes from a service that has no mark from beginning to end. -/
  unmarked : ∀ answer, outcome.1 = .ok answer → ∀ w₁, Leads limits last.start w₁ →
    Leads limits w₁ outcome.2 → w₁.isInvalidated last.service = false

/-- From a world in which the store is in order, every decision is started again for marks only. -/
theorem startedAgain (hw : w.Coherent) (depth : Nat) (scope : Scope) (q : Question) :
    let consult := consultAt cache.limits cache.backend (depth + 1)
    let outcome := (answerWithin cache.limits consult invalidationRetries scope q).run w
    ∃ front last, StartedAgain cache.limits consult scope q w front last outcome := by
  intro consult outcome
  have hconsult : Reliable cache.limits consult := reliable_consultAt cache.backend (depth + 1)
  obtain ⟨trials, htrials⟩ := exists_trials cache.limits consult scope q invalidationRetries w
  have hfetched := htrials.fetched hconsult hw
  have hsteps := htrials.steps hconsult
  have hdistinct := htrials.services_nodup hconsult (fun _ _ => cache.invalidated_at_end) hw
  obtain ⟨front, last, rfl, hlast, hfront⟩ := htrials.exists_last
  refine ⟨front, last,
    { trials := htrials
      bounded := htrials.length_le
      distinct := hdistinct
      fetched := hfetched
      retried := hfront
      concluded := hlast
      due := fun trial htrial s hrun => ?due
      exhausted := fun s houtcome => ?exhausted
      unmarked := fun answer houtcome w₁ hfrom hto => ?unmarked }⟩
  case due =>
    obtain ⟨service, hs, rfl, hcurrent⟩ := hfetched trial htrial
    have hstart := (hsteps trial htrial).leads.coherent hw
    exact cache.performed_of_invalidated hstart hs hcurrent hrun
  case exhausted =>
    have hlength := htrials.length_eq_of_invalidated houtcome
    rw [List.length_append] at hlength
    exact Nat.succ.inj hlength
  case unmarked =>
    obtain ⟨service, hs, -, -⟩ := hfetched last (List.mem_append_right _ List.mem_cons_self)
    obtain ⟨service₁, hs₁, -⟩ := Leads.later hfrom hs
    have hrun : (Decision.answerFrom cache.limits consult last.service q).run last.start =
        (.ok answer, outcome.2) := hlast.trans (Prod.ext houtcome rfl)
    obtain ⟨-, -, hend⟩ := run_answerFrom_ok_iff.1 hrun
    -- a mark would still be there in the end
    rw [isInvalidated_eq_of_service hs₁]
    cases hmark : service₁.invalidated with
    | false => rfl
    | true =>
      rw [Leads.isInvalidated hto hs₁ hmark] at hend
      cases hend

/-- Decisions are started again for marks, and for nothing else. In every world that is reached, a
decision for a scope has four tries at most. Each has a service of its own, which belongs to the
scope and has no mark when it is fetched. All tries but the last one met a mark, and what the last
one comes to is what the decision comes to. A try that met a mark had it put by the backend, which
invalidated the module in the course of the try, or marked a service that it held. There were four
of them if the decision comes to nothing for that reason. An answer comes from a service that has no
mark from beginning to end.

The store holds one service of each scope at most, and gives out none with a mark. If it holds one
with a mark, then someone who held the service has marked it: a caller, or the backend. -/
theorem decisions_start_again_for_marks (start : σ) (now : Instant) :
    (∀ w, Leads cache.limits (.initial start now) w →
      (∀ depth scope q,
        let consult := consultAt cache.limits cache.backend (depth + 1)
        ∃ front last, StartedAgain cache.limits consult scope q w front last
          ((answerWithin cache.limits consult invalidationRetries scope q).run w)) ∧
      (∀ scope id, w.store.get? scope = some id →
        (∃ service, w.service? id = some service ∧ service.scope = scope) ∧
        (w.isInvalidated id = true → ∃ w₁, Leads cache.limits (.initial start now) w₁ ∧
          Leads cache.limits (w₁.markInvalid id) w)) ∧
      ∀ scope, ∃ service,
        (w.fetch cache.limits scope).2.service? (w.fetch cache.limits scope).1 = some service ∧
          service.scope = scope ∧ service.invalidated = false) ∧
    ∀ commands scope id,
      let w := cache.after commands (.initial start now)
      w.store.get? scope = some id → w.isInvalidated id = true →
        .invalidateService id ∈ commands ∨
          Performed (.invalidateService id) (.initial start now) w := by
  refine ⟨fun w hreached => ⟨?tries, ?store, ?fetched⟩, ?commands⟩
  case tries =>
    exact cache.startedAgain (Leads.coherent hreached (coherent_initial start now))
  case store =>
    intro scope id hget
    exact ⟨Leads.coherent hreached (coherent_initial start now) scope id hget,
      Leads.marked_in_store hreached hget⟩
  case fetched =>
    exact (Leads.coherent hreached (coherent_initial start now)).fetched cache.limits
  case commands =>
    intro commands scope id w hget hmark
    have hexplained := cache.explained_after (coherent_initial start now) commands
    exact (hexplained.stored scope id hget hmark).resolve_left nofun

/-- A cache whose backend marks a service that it holds, another one whenever it is asked. -/
def holdingWiki : DecisionCache Nat where
  limits := .standard
  backend :=
    { react := fun l asked =>
        (⟨[.invalidateService asked],
          fun _ state => (⟨1, .ok (wikiAnswers l.question)⟩, state)⟩, asked + 1) }
  depth := 0

/-- A service is taken, and then marked by the one who took it. -/
def holdAndMark : List Command :=
  [.take wikiScope, .invalidateService 0]

/-- The restless wiki stops in every try, so that a decision is tried four times, and comes to
nothing. A service in the store with a mark was marked by the one who took it. -/
theorem restless_wiki_is_asked_again :
    ((restlessWiki.answerScope wikiScope (.action "read")).run restlessStart).1 =
      .error (.invalidated wikiScope) ∧
    (∃ front last, StartedAgain restlessWiki.limits restlessWiki.consult wikiScope (.action "read")
        restlessStart front last
        ((restlessWiki.answerScope wikiScope (.action "read")).run restlessStart) ∧
      front.length = 3) ∧
    (holdingWiki.after holdAndMark (.initial 0 0)).store.get? wikiScope = some 0 ∧
    (holdingWiki.after holdAndMark (.initial 0 0)).isInvalidated 0 = true ∧
    (.invalidateService 0 ∈ holdAndMark ∨ Performed (.invalidateService 0) (.initial 0 0)
      (holdingWiki.after holdAndMark (.initial 0 0))) := by
  have houtcome : ((restlessWiki.answerScope wikiScope (.action "read")).run restlessStart).1 =
      .error (.invalidated wikiScope) := by decide +kernel
  have hreached : Leads restlessWiki.limits (.initial () 0) restlessStart :=
    restlessWiki.leads_run _ _
  obtain ⟨hworlds, -⟩ := decisions_start_again_for_marks restlessWiki () 0
  obtain ⟨hdecisions, -⟩ := hworlds restlessStart hreached
  obtain ⟨front, last, hagain⟩ := hdecisions 0 wikiScope (.action "read")
  have hstored : (holdingWiki.after holdAndMark (.initial 0 0)).store.get? wikiScope = some 0 := rfl
  have hmark : (holdingWiki.after holdAndMark (.initial 0 0)).isInvalidated 0 = true := rfl
  obtain ⟨-, hcommands⟩ := decisions_start_again_for_marks holdingWiki 0 0
  exact ⟨houtcome, ⟨front, last, hagain, hagain.exhausted _ houtcome⟩, hstored, hmark,
    hcommands holdAndMark wikiScope 0 hstored hmark⟩

/-- The law that the store holds no service with a mark fails, and so does the law that a decision
comes to nothing only if the module was invalidated. A service that was taken and then marked by
the one who took it stays in the store. And if the backend marks the service of every try, then
the decision comes to nothing, although no module is ever invalidated. -/
theorem marked_service_stays_in_store :
    (let w := holdingWiki.after holdAndMark (.initial 0 0)
    w.store.get? wikiScope = some 0 ∧ w.isInvalidated 0 = true ∧ w.cached = 1) ∧
    let run := (holdingWiki.answerScope wikiScope .identity).run (.initial 0 0)
    run.1 = .error (.invalidated wikiScope) ∧
      run.2.journal.filterMap Occurrence.command? = [.invalidateService 3, .invalidateService 2,
        .invalidateService 1, .invalidateService 0] :=
  ⟨by decide +kernel, by decide +kernel⟩

end DecisionCache

end Gatehouse
