import Mathlib.Data.Finset.Card
import Gatehouse.Access.Entitlements
import Gatehouse.Access.Reference
import Gatehouse.Proofs.Access.Failure

/-!
# Remembering makes no difference

If the backend answers by a fixed function, and in time, then every answer is the one that would be
given without a cache. It does not matter what was asked before, how old the services are, or what
was invalidated, unless a decision is invalidated over and over.

- `Reference.Alike`, `Reference.holds_congr`: what the answer without a cache depends on. The order
  of the rules makes no difference, and membership of a group only to questions about that group.
- `World.AnsweredBy`: every lookup was answered by a fixed function, and in time.
- `PermissionBackend.KeepsUp`: no lookup was too late to be put to the backend.
- `AnsweredBy.slot`: what is remembered then is what holds without a cache.
- `World.marked`, `Change.card_marked_le`: the services of a scope that were invalidated. An
  invalidation adds one at most, and nothing else adds any.
- `DecisionCache.answers_as_without_cache`: every question of a caller is answered, as it would be
  without a cache, if the service is invalidated fewer than four times meanwhile.
-/

namespace Gatehouse

/-! ## What the answer without a cache depends on -/

namespace GroupRules

variable {rules rules' : GroupRules}

theorem hasGroup_eq_true_iff {group : String} :
    rules.hasGroup group = true ↔ ∃ granted, (group, granted) ∈ rules.entries := by
  rw [hasGroup, Option.isSome_iff_exists]
  exact exists_congr fun granted => Table.get?_eq_some_iff

theorem hasGroup_of_perm (h : rules.entries.Perm rules'.entries) (group : String) :
    rules.hasGroup group = rules'.hasGroup group := by
  rw [Bool.eq_iff_iff, hasGroup_eq_true_iff, hasGroup_eq_true_iff]
  exact exists_congr fun granted => h.mem_iff

theorem grant_of_perm (h : rules.entries.Perm rules'.entries) (p : ResourcePermission) :
    rules.grant p = rules'.grant p :=
  h.any_eq

end GroupRules

namespace Reference

/-- Answers to single lookups that make no difference to a question: the rules may come in another
order, and groups may have other members unless the question is about that group. -/
structure Alike (q : Question) (answers other : Answers) : Prop where
  action : ∀ name, answers (.action name) = other (.action name)
  resource : ∀ p, answers (.resource p) = other (.resource p)
  group : ∀ name, q = .group name → answers (.group name) = other (.group name)
  rules : (answers .rules).entries.Perm (other .rules).entries
  ordered : q = .rules → answers .rules = other .rules
  attributes : answers .attributes = other .attributes
  identity : answers .identity = other .identity

theorem mayAccess_congr {q : Question} {answers other : Answers} (h : Alike q answers other)
    (p : ResourcePermission) : mayAccess answers p = mayAccess other p := by
  rw [mayAccess, mayAccess, h.resource, GroupRules.grant_of_perm h.rules]

theorem holds_congr {q : Question} {answers other : Answers} (h : Alike q answers other) :
    holds answers q = holds other q := by
  cases q with
  | action name =>
    show mayPerform answers name = mayPerform other name
    rw [mayPerform, mayPerform, h.action, mayAccess_congr h]
  | group name =>
    show inGroup answers name = inGroup other name
    rw [inGroup, inGroup, h.group name rfl, GroupRules.hasGroup_of_perm h.rules]
  | resource p => exact mayAccess_congr h p
  | rules => exact h.ordered rfl
  | attributes => exact h.attributes
  | identity => exact h.identity

end Reference

/-- A backend whose every lookup ends with the value of a function, whatever its state is and
whatever happened while it was asked. -/
def PermissionBackend.Serves {σ : Type} (backend : PermissionBackend σ)
    (answers : Scope → Reference.Answers) : Prop :=
  ∀ l state replies state', ((backend.react l state).1.conclude replies state').1.result =
    .ok (answers l.scope l.question)

namespace World

variable {σ : Type} {limits : CacheLimits} {w w' : World σ} {id : ServiceId} {scope : Scope}
  {answers : Scope → Reference.Answers}

/-! ## Answers by a fixed function -/

/-- Every lookup that reached the backend was answered by a function of scope and question, and in
time. -/
def AnsweredBy (w : World σ) (answers : Scope → Reference.Answers) : Prop :=
  ∀ report ∈ w.lookups, ∀ result, report.result = some result →
    result = .ok (answers report.lookup.scope report.lookup.question) ∧
      report.ended ≤ report.lookup.deadline

theorem AnsweredBy.of_suffix (h : w'.AnsweredBy answers) (hsuffix : w.lookups <:+ w'.lookups) :
    w.AnsweredBy answers :=
  fun report hmem => h report (hsuffix.subset hmem)

/-- No lookup fails that reaches such a backend. -/
theorem AnsweredBy.failure?_eq_none (h : w.AnsweredBy answers) {report : LookupReport}
    (hmem : report ∈ w.lookups) (hasked : report.result.isSome = true) :
    report.failure? limits = none := by
  obtain ⟨result, hresult⟩ := Option.isSome_iff_exists.1 hasked
  obtain ⟨rfl, hintime⟩ := h report hmem result hresult
  exact LookupReport.failure?_eq_none_of_outcome
    (LookupReport.outcome_eq_ok_iff.2 ⟨hresult, hintime⟩)

/-- What such a backend answers in time is answered by the function. -/
theorem Extends.answeredBy {backend : PermissionBackend σ} (hserves : backend.Serves answers)
    {start : σ} {now earliest : Instant} (h : Extends backend earliest (initial start now) w)
    (hintime : ∀ report ∈ w.lookups, report.result.isSome = true →
      report.ended ≤ report.lookup.deadline) : w.AnsweredBy answers := by
  intro report hmem result hresult
  obtain ⟨state, replies, state', rfl⟩ := h.reported report hmem result hresult
  exact ⟨hserves _ _ _ _, hintime report hmem (by rw [hresult]; rfl)⟩

/-- What a service has heard is what the function says about its scope. -/
theorem AnsweredBy.heard (h : w.AnsweredBy answers) (hw : w.Recorded) {service : Service}
    (hs : w.service? id = some service) {q : Question} {answer : q.Answer}
    (hheard : w.Heard id q answer) : answer = answers service.scope q := by
  obtain ⟨scope, now, deadline, ended, -, hmem⟩ := hheard
  obtain ⟨service', hs', hscope, -⟩ := hw.reports _ hmem
  rw [hs] at hs'
  cases hs'
  obtain ⟨hanswer, -⟩ := h _ hmem _ rfl
  rw [hscope]
  exact Except.ok.inj hanswer

/-- What a service remembers is what holds without a cache. -/
theorem AnsweredBy.slot (h : w.AnsweredBy answers) (hgrounded : w.Grounded) (hw : w.Recorded)
    {service : Service} (hs : w.service? id = some service) {q : Question} {answer : q.Answer}
    (hslot : w.slot id q = .filled answer) :
    answer = Reference.holds (answers service.scope) q := by
  have hheard : ∀ {q : Question} {answer : q.Answer}, w.Heard id q answer →
      answer = answers service.scope q := fun hq => h.heard hw hs hq
  have hrules : ∀ {rules}, w.slot id .rules = .filled rules →
      rules = answers service.scope .rules := fun hfilled => hheard (hgrounded _ _ _ hfilled)
  have hresource : ∀ {p : ResourcePermission} {allowed},
      w.slot id (.resource p) = .filled allowed →
      allowed = Reference.mayAccess (answers service.scope) p := by
    intro p allowed hfilled
    rw [Reference.mayAccess]
    rcases hgrounded.resource hfilled with ⟨hyes, rfl⟩ | ⟨hno, rules, hfound, rfl⟩
    · rw [← hheard hyes, Bool.true_or]
    · rw [← hheard hno, Bool.false_or, hrules hfound]
  cases q with
  | resource p => exact hresource hslot
  | action name =>
    show answer = Reference.mayPerform (answers service.scope) name
    rw [Reference.mayPerform]
    rcases hgrounded _ _ _ hslot with ⟨hyes, rfl⟩ | ⟨hno, heverywhere⟩
    · rw [← hheard hyes, Bool.true_or]
    · rw [← hheard hno, Bool.false_or, hresource heverywhere]
  | group name =>
    show answer = Reference.inGroup (answers service.scope) name
    rw [Reference.inGroup]
    rcases hgrounded _ _ _ hslot with ⟨hyes, rfl⟩ | ⟨hno, rules, hfound, rfl⟩
    · rw [← hheard hyes, Bool.true_or]
    · rw [← hheard hno, Bool.false_or, hrules hfound]
  | rules => exact hrules hslot
  | attributes => exact hheard (hgrounded _ _ _ hslot)
  | identity => exact hheard (hgrounded _ _ _ hslot)

/-! ## Invalidated services -/

/-- The services of a scope that were invalidated. -/
def marked (w : World σ) (scope : Scope) : Finset ServiceId :=
  (Finset.range w.services.length).filter fun id =>
    (w.service? id).any fun service => service.scope = scope && service.invalidated

theorem mem_marked_iff : id ∈ w.marked scope ↔
    ∃ service, w.service? id = some service ∧ service.scope = scope ∧
      service.invalidated = true := by
  simp only [marked, Finset.mem_filter, Finset.mem_range, Option.any_eq_true, Bool.and_eq_true,
    decide_eq_true_eq]
  constructor
  · rintro ⟨-, service, hs, hscope, hmark⟩
    exact ⟨service, hs, hscope, hmark⟩
  · rintro ⟨service, hs, hscope, hmark⟩
    exact ⟨(List.getElem?_eq_some_iff.1 hs).1, service, hs, hscope, hmark⟩

theorem Leads.marked_subset (h : Leads limits w w') (scope : Scope) :
    w.marked scope ⊆ w'.marked scope := by
  intro id hmem
  obtain ⟨service, hs, hscope, hmark⟩ := mem_marked_iff.1 hmem
  obtain ⟨service', hs', hlater⟩ := h.later hs
  exact mem_marked_iff.2 ⟨service', hs', hlater.scope.trans hscope, hlater.invalidated hmark⟩

/-- A service that is marked meanwhile is one more that is marked. -/
theorem Leads.card_marked_lt (h : Leads limits w w') {service : Service}
    (hs : w.service? id = some service) (hcurrent : service.invalidated = false)
    (hmark : w'.isInvalidated id = true) :
    (w.marked service.scope).card < (w'.marked service.scope).card := by
  refine Finset.card_lt_card ⟨h.marked_subset _, fun hsubset => ?_⟩
  obtain ⟨service', hs', hlater⟩ := h.later hs
  rw [isInvalidated_eq_of_service hs'] at hmark
  obtain ⟨service'', hs'', -, hmark''⟩ :=
    mem_marked_iff.1 (hsubset (mem_marked_iff.2 ⟨service', hs', hlater.scope, hmark⟩))
  rw [hs] at hs''
  cases hs''
  rw [hcurrent] at hmark''
  cases hmark''

theorem marked_setSlot (w : World σ) (id : ServiceId) (q : Question) (slot : Slot q.Answer)
    (scope : Scope) : (w.setSlot id q slot).marked scope ⊆ w.marked scope := by
  intro id' hmem
  obtain ⟨service', hs', hscope, hmark⟩ := mem_marked_iff.1 hmem
  rw [service?_setSlot, Option.map_eq_some_iff] at hs'
  obtain ⟨service, hs, rfl⟩ := hs'
  refine mem_marked_iff.2 ⟨service, hs, ?_⟩
  by_cases hid : id = id'
  · rw [if_pos hid] at hscope hmark
    exact ⟨hscope, hmark⟩
  · rw [if_neg hid] at hscope hmark
    exact ⟨hscope, hmark⟩

/-- If some services of a scope are marked, and these are one at most, then one more is marked at
most. -/
theorem marked_subset_insert {touched : ServiceId → Prop} [DecidablePred touched] {x : ServiceId}
    (hmark : ∀ id, w'.service? id = (w.service? id).map fun service =>
      if touched id then { service with invalidated := true } else service)
    (honly : ∀ id service, w.service? id = some service → service.scope = scope → touched id →
      id = x) : w'.marked scope ⊆ insert x (w.marked scope) := by
  intro id hmem
  obtain ⟨service', hs', hscope, hmark'⟩ := mem_marked_iff.1 hmem
  rw [hmark, Option.map_eq_some_iff] at hs'
  obtain ⟨service, hs, rfl⟩ := hs'
  by_cases htouched : touched id
  · rw [if_pos htouched] at hscope
    exact Finset.mem_insert.2 (.inl (honly id service hs hscope htouched))
  · rw [if_neg htouched] at hscope hmark'
    exact Finset.mem_insert_of_mem (mem_marked_iff.2 ⟨service, hs, hscope, hmark'⟩)

theorem marked_fetch (w : World σ) (limits : CacheLimits) (scope' scope : Scope) :
    (w.fetch limits scope').2.marked scope ⊆ w.marked scope := by
  intro id hmem
  obtain ⟨service, hs, hscope, hmark⟩ := mem_marked_iff.1 hmem
  cases hold : w.service? id with
  | some service' =>
    rw [service?_fetch hold] at hs
    cases hs
    exact mem_marked_iff.2 ⟨service, hold, hscope, hmark⟩
  | none =>
    rcases fetch_cases limits scope' w with ⟨id', -, -, hf⟩ | ⟨-, hf⟩
    · rw [hf, hold] at hs
      cases hs
    · -- the new service is not marked
      rw [hf, service?, List.getElem?_append_right (List.getElem?_eq_none_iff.1 hold)] at hs
      rw [List.mem_singleton.1 (List.mem_of_getElem? hs)] at hmark
      cases hmark

/-- A change marks one service of a scope at most: an invalidation marks those that are stored, and
one is stored for each scope. -/
theorem Change.card_marked_le (h : Change limits w w') (hw : w.Coherent) (scope : Scope) :
    (w'.marked scope).card ≤ (w.marked scope).card + 1 := by
  have hsubset : ∃ x, w'.marked scope ⊆ insert x (w.marked scope) := by
    cases h with
    | mark id =>
      exact ⟨id, marked_subset_insert (service?_markInvalid w id) fun _ _ _ _ h => h.symm⟩
    | invalidate m =>
      refine ⟨(w.store.get? scope).getD 0, marked_subset_insert (service?_invalidate m w) ?_⟩
      intro id service hs hscope hin
      obtain ⟨scope', -, hget⟩ := mem_stored_iff.1 hin
      obtain ⟨service', hs', rfl⟩ := hw scope' id hget
      rw [hs] at hs'
      cases hs'
      rw [← hscope, hget, Option.getD_some]
    | fetch scope' =>
      exact ⟨0, (marked_fetch w limits scope' scope).trans (Finset.subset_insert 0 _)⟩
    | load id q _ => exact ⟨0, (marked_setSlot w id q _ scope).trans (Finset.subset_insert 0 _)⟩
    | fill id q answer _ =>
      exact ⟨0, (marked_setSlot w id q _ scope).trans (Finset.subset_insert 0 _)⟩
    | unload id q _ => exact ⟨0, (marked_setSlot w id q _ scope).trans (Finset.subset_insert 0 _)⟩
    | evict => exact ⟨0, Finset.subset_insert 0 _⟩
    | clear => exact ⟨0, Finset.subset_insert 0 _⟩
    | pass nanos => exact ⟨0, Finset.subset_insert 0 _⟩
    | backend state => exact ⟨0, Finset.subset_insert 0 _⟩
    | note occurrence => exact ⟨0, Finset.subset_insert 0 _⟩
    | report report => exact ⟨0, Finset.subset_insert 0 _⟩
  obtain ⟨x, hsubset⟩ := hsubset
  exact (Finset.card_le_card hsubset).trans (Finset.card_insert_le x _)

end World

/-- The backend keeps up with what is asked between two worlds: no lookup is ever held up, or none
that was made was too late to be put to it. -/
def PermissionBackend.KeepsUp {σ : Type} (backend : PermissionBackend σ) (limits : CacheLimits)
    (w w' : World σ) : Prop :=
  backend.Prompt limits ∨ ∀ report ∈ w.newReports w', report.result.isSome = true

namespace PermissionBackend.KeepsUp

open World

variable {σ : Type} {backend : PermissionBackend σ} {limits : CacheLimits} {w w' w'' : World σ}

theorem of_parts (h : backend.KeepsUp limits w w'') (h₁ : w.lookups <:+ w'.lookups)
    (h₂ : w'.lookups <:+ w''.lookups) :
    backend.KeepsUp limits w w' ∧ backend.KeepsUp limits w' w'' := by
  rcases h with hprompt | hall
  · exact ⟨.inl hprompt, .inl hprompt⟩
  · rw [newReports_trans h₁ h₂] at hall
    obtain ⟨hlast, hfirst⟩ := List.forall_mem_append.1 hall
    exact ⟨.inr hfirst, .inr hlast⟩

/-- The lookup that left a decision without an answer reached the backend. -/
theorem asked (h : backend.KeepsUp limits w w') {id : ServiceId} {deadline : Instant}
    {report : LookupReport} (hmem : report ∈ w.lookupsOf w' id deadline)
    (hasked : backend.Prompt limits → report.result.isSome = true) :
    report.result.isSome = true :=
  h.elim hasked fun hall => hall report (List.mem_filter.1 hmem).1

end PermissionBackend.KeepsUp

namespace DecisionCache

open World Decision

variable {σ : Type} {cache : DecisionCache σ} {w : World σ} {scope : Scope} {q : Question}
  {answers : Scope → Reference.Answers}

/-- One try at a decision: the answer is the one that holds without a cache, unless the service was
invalidated meanwhile. -/
theorem answer_of_try (depth : Nat) (hw : w.AtRest)
    {outcome : Except AuthzError q.Answer} {w' : World σ}
    (hrun : (cache.answerAt (depth + 1) (w.fetch cache.limits scope).1 q).run
      (w.fetch cache.limits scope).2 = (outcome, w'))
    (hkeeps : cache.backend.KeepsUp cache.limits w w') (hanswers : w'.AnsweredBy answers) :
    outcome = .ok (Reference.holds (answers scope) q) ∨
      (∃ s, outcome = .error (.invalidated s)) ∧
        (w.marked scope).card < (w'.marked scope).card := by
  have hfetch := settles_fetch cache.limits w scope
  obtain ⟨service, hs, hscope, hcurrent⟩ := hw.coherent.fetched cache.limits scope
  have hdecision := cache.settles_answerAt (depth + 1) (w.fetch cache.limits scope).1 q
    (w.fetch cache.limits scope).2
  have haccount := cache.account_answerAt depth (w.fetch cache.limits scope).1 q
    (w.fetch cache.limits scope).2
  rw [hrun] at hdecision haccount
  have hend := (hw.settles hfetch).settles hdecision
  cases outcome with
  | ok answer =>
    obtain ⟨service', hs', hlater⟩ := hdecision.later hs
    have hslot := cache.slot_of_run_answerAt hrun
    have hanswer := hanswers.slot hend.grounded hend.recorded hs' hslot
    rw [hlater.scope, hscope] at hanswer
    exact .inl (congrArg Except.ok hanswer)
  | error e =>
    cases e with
    | invalidated s =>
      refine .inr ⟨⟨s, rfl⟩, ?_⟩
      have hbefore := Finset.card_le_card (hfetch.steps.leads.marked_subset scope)
      have hmore := hdecision.steps.leads.card_marked_lt hs hcurrent haccount.of_invalidated
      rw [hscope] at hmore
      exact Nat.lt_of_le_of_lt hbefore hmore
    | backendUnavailable s source =>
      -- no lookup fails, and nobody else is at work
      rcases haccount.of_unavailable with ⟨report, hlast, hfailure, hasked⟩ | ⟨q', hopen⟩
      · have hmem := List.mem_of_mem_head? hlast
        -- fetching the service makes no lookup
        have hfetched := (hkeeps.of_parts hfetch.steps.lookups_suffix
          hdecision.steps.lookups_suffix).2
        rw [hanswers.failure?_eq_none (mem_lookups_of_mem_lookupsOf hmem)
          (hfetched.asked hmem hasked)] at hfailure
        cases hfailure
      · exact absurd hopen ((hw.settles hfetch).idle _ q')

/-- A decision for a scope is answered as it would be without a cache, if fewer tries are
invalidated than there are. -/
theorem answer_within (depth : Nat) (retries : Nat) (hw : w.AtRest)
    {outcome : Except AuthzError q.Answer} {w' : World σ}
    (hrun : (answerWithin cache.limits (consultAt cache.limits cache.backend (depth + 1)) retries
      scope q).run w = (outcome, w'))
    (hkeeps : cache.backend.KeepsUp cache.limits w w') (hanswers : w'.AnsweredBy answers)
    (hmarked : (w'.marked scope).card ≤ (w.marked scope).card + retries) :
    outcome = .ok (Reference.holds (answers scope) q) := by
  induction retries generalizing w with
  | zero =>
    rw [run_answerWithin_zero] at hrun
    rcases answer_of_try depth hw hrun hkeeps hanswers with hok | ⟨-, hmore⟩
    · exact hok
    · exact absurd hmarked (Nat.not_le.2 hmore)
  | succ n ih =>
    rw [run_answerWithin_succ] at hrun
    cases htry : (cache.answerAt (depth + 1) (w.fetch cache.limits scope).1 q).run
        (w.fetch cache.limits scope).2 with
    | mk outcome₁ w₁ =>
      have hsettles := (settles_fetch cache.limits w scope).trans
        (cache.settles_answerAt (depth + 1) (w.fetch cache.limits scope).1 q _)
      have hanswer : cache.backend.KeepsUp cache.limits w w₁ → w₁.AnsweredBy answers → _ :=
        answer_of_try depth hw htry
      rw [htry] at hsettles
      change Settles cache.limits w w₁ at hsettles
      rw [answerAt] at htry
      rw [htry] at hrun
      rcases outcome₁ with (⟨s, e⟩ | s) | answer
      · -- the lookups of the only try are all lookups
        cases hrun
        rcases hanswer hkeeps hanswers with hok | ⟨⟨s, hagain⟩, -⟩
        · exact hok
        · cases hagain
      · -- one service was invalidated, and the rest is left to the next try
        change (answerWithin cache.limits (consultAt cache.limits cache.backend (depth + 1)) n
          scope q).run w₁ = (outcome, w') at hrun
        have hreliable : Reliable cache.limits (consultAt cache.limits cache.backend (depth + 1)) :=
          reliable_consultAt cache.backend (depth + 1)
        have hrest := settles_answerWithin hreliable n scope q w₁
        rw [hrun] at hrest
        obtain ⟨hfirst, hnext⟩ :=
          hkeeps.of_parts hsettles.steps.lookups_suffix hrest.steps.lookups_suffix
        rcases hanswer hfirst (hanswers.of_suffix hrest.steps.lookups_suffix) with hok | ⟨-, hmore⟩
        · cases hok
        · refine ih (hw.settles hsettles) hrun hnext ?_
          omega
      · cases hrun
        rcases hanswer hkeeps hanswers with hok | ⟨⟨s, hagain⟩, -⟩
        · exact hok
        · cases hagain

/-- If the backend answers by a fixed function whatever it is asked, and in time, then every
question of a caller is answered, as it would be without a cache, unless more services of its scope
are invalidated meanwhile than a decision is tried again. Neither the commands that were given
before nor the order of the rules make a difference, and what the backend says about groups only
makes one to questions about groups. An invalidation marks one service of a scope at most
(`Change.card_marked_le`). A lookup that is held up until its deadline is over is not answered in
time, and neither is any for a timeout of zero. -/
theorem answers_as_without_cache (cache : DecisionCache σ) (start : σ) (now : Instant)
    (commands : List Command) (scope : Scope) (inquiry : Inquiry)
    {answers : Scope → Reference.Answers} {other : Reference.Answers} {reply : Reply} {w' : World σ}
    (hrun : (cache.perform (.ask scope inquiry)).run (cache.after commands (.initial start now)) =
      (reply, w'))
    (hkeeps : cache.backend.KeepsUp cache.limits (cache.after commands (.initial start now)) w')
    (hanswers : w'.AnsweredBy answers)
    (hmarked : (w'.marked scope).card ≤
      ((cache.after commands (.initial start now)).marked scope).card + invalidationRetries)
    (halike : Reference.Alike inquiry.question (answers scope) other) :
    reply = .finding (inquiry.conclude (.ok (Reference.holds other inquiry.question))) := by
  rw [perform, run_perform_ask] at hrun
  obtain ⟨rfl, rfl⟩ := Prod.mk.inj hrun
  have hanswer := answer_within cache.depth invalidationRetries
    (cache.atRest_after start now commands) rfl hkeeps hanswers hmarked
  rw [← Reference.holds_congr halike, ← hanswer]
  rfl

/-! ## A module that stops while it is asked about -/

/-- A consumer of a wiki. -/
def wikiScope : Scope :=
  ⟨⟨"wiki"⟩, ⟨"ada"⟩⟩

/-- What is known about a wiki: nothing is granted directly, and its writers may read. -/
def wikiAnswers : Reference.Answers
  | .rules => Table.empty.put "writers" [.everywhere "read"]
  | q => q.nothing

/-- What would be known if everybody belonged to every group. -/
def sociableAnswers : Reference.Answers
  | .group _ => true
  | q => wikiAnswers q

/-- The cache of a wiki that stops once, while it is asked whether someone may read. -/
def restartingWiki : DecisionCache Bool where
  limits := ⟨100, 10⟩
  backend :=
    { react := fun l running =>
        let stops := running && l.question == .action "read"
        (⟨if stops then [.event l.scope.module .stop] else [],
          fun _ state => (⟨1, .ok (wikiAnswers l.question)⟩, state)⟩, running && !stops) }
  depth := 0

/-- What is done before someone asks to read. The service has expired by then. -/
def wikiCommands : List Command :=
  [.ask wikiScope (.group "writers"), .wait 200]

/-- Someone asks to read. -/
def wikiRun : Reply × World Bool :=
  (restartingWiki.perform (.ask wikiScope (.action "read"))).run
    (restartingWiki.after wikiCommands (.initial true 0))

/-- Reading is allowed by the rules, although the wiki stops while it is asked; it would be allowed
all the same if groups had other members. -/
theorem wiki_answers_as_without_cache :
    wikiRun.2.AnsweredBy (fun _ => wikiAnswers) ∧ (wikiRun.2.marked wikiScope).card = 1 ∧
      wikiRun.1 = .finding (.ok (.truth true)) := by
  have hrun : (restartingWiki.perform (.ask wikiScope (.action "read"))).run
      (restartingWiki.after wikiCommands (.initial true 0)) = (wikiRun.1, wikiRun.2) :=
    Prod.mk.eta.symm
  have hserves : restartingWiki.backend.Serves fun _ => wikiAnswers := fun _ _ _ _ => rfl
  have hbefore := restartingWiki.extends_after wikiCommands (.initial true 0)
  have hall := hbefore.trans ((restartingWiki.extends_performed
    (.ask wikiScope (.action "read")) _).mono (Nat.zero_le _))
  have hintime : ∀ report ∈ wikiRun.2.lookups, report.result.isSome = true →
      report.ended ≤ report.lookup.deadline := by
    decide +kernel
  have hanswers : wikiRun.2.AnsweredBy fun _ => wikiAnswers :=
    Extends.answeredBy hserves hall hintime
  have hmarked : (wikiRun.2.marked wikiScope).card = 1 := by decide +kernel
  have hfew : (wikiRun.2.marked wikiScope).card ≤
      ((restartingWiki.after wikiCommands (.initial true 0)).marked wikiScope).card +
        invalidationRetries := by
    rw [hmarked]
    exact Nat.le_add_left_of_le (by decide)
  have halike : Reference.Alike (.action "read") wikiAnswers sociableAnswers :=
    { action := fun _ => rfl
      resource := fun _ => rfl
      group := nofun
      rules := .refl _
      ordered := nofun
      attributes := rfl
      identity := rfl }
  have hholds : Reference.holds sociableAnswers (.action "read") = true := by decide +kernel
  refine ⟨hanswers, hmarked, ?_⟩
  have hprompt : restartingWiki.backend.Prompt restartingWiki.limits := ⟨by decide, fun _ => rfl⟩
  rw [answers_as_without_cache restartingWiki true 0 wikiCommands wikiScope (.action "read") hrun
    (.inl hprompt) hanswers hfew halike]
  show Reply.finding (.ok (.truth (Reference.holds sociableAnswers (.action "read")))) = _
  rw [hholds]

end DecisionCache

end Gatehouse
