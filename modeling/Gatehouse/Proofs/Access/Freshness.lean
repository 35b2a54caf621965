import Gatehouse.Proofs.Access.Invalidation
import Gatehouse.Proofs.Access.Lookups

/-!
# How fresh an answer is

A decision for a scope asks the service that the store holds, and the store never gives out a
service that is too old, or one that was there when the module was invalidated. What such a service
remembers it was told in its own time, so an answer rests on nothing that is older.

- `Derives`: what follows from answers of the backend, by the rules of decisions.
- `Grounded.derives`: what a service remembers follows from what it has heard.
- `Leads.stored`, `fetched_new`: a service that has left the store does not come back; hence one
  that is fetched after an invalidation of its module did not exist before.
- `World.SameFor`: nothing has happened to a module. An event that invalidates nothing changes
  nothing, and an event for another module is none of its business.
- `DecisionCache.answers_are_fresh`: every answer for a scope follows from answers of the backend
  that came after the last invalidation of the module, and not long before the service was fetched.
-/

namespace Gatehouse

/-! ## What an answer is computed from -/

/-- What follows from answers of the backend. A refusal has to be followed up: an action by the
same action on every resource, a group by the rules of the module, and a resource by these rules
and by the groups that they name. -/
inductive Derives (told : (q : Question) → q.Answer → Prop) : (q : Question) → q.Answer → Prop where
  | allowed {name : String} (h : told (.action name) true) : Derives told (.action name) true
  | everywhere {name : String} {allowed : Bool} (h : told (.action name) false)
    (hresource : Derives told (.resource (.everywhere name)) allowed) :
    Derives told (.action name) allowed
  | member {name : String} (h : told (.group name) true) : Derives told (.group name) true
  | listed {name : String} {rules : GroupRules} (h : told (.group name) false)
    (hrules : told .rules rules) : Derives told (.group name) (rules.hasGroup name)
  | granted {p : ResourcePermission} (h : told (.resource p) true) : Derives told (.resource p) true
  | ruled {p : ResourcePermission} {rules : GroupRules} (h : told (.resource p) false)
    (hrules : told .rules rules) {rule : String × List ResourcePermission}
    (hmem : rule ∈ rules.entries) (hcovers : rule.2.any (·.covers p) = true)
    (hgroup : Derives told (.group rule.1) true) : Derives told (.resource p) true
  | unruled {p : ResourcePermission} {rules : GroupRules} (h : told (.resource p) false)
    (hrules : told .rules rules)
    (hgroups : ∀ rule ∈ rules.entries, rule.2.any (·.covers p) = true →
      Derives told (.group rule.1) false) : Derives told (.resource p) false
  | rules {rules : GroupRules} (h : told .rules rules) : Derives told .rules rules
  | attributes {attributes : Attributes} (h : told .attributes attributes) :
    Derives told .attributes attributes
  | identity {identity : Option ConsumerIdentity} (h : told .identity identity) :
    Derives told .identity identity

theorem Derives.mono {told told' : (q : Question) → q.Answer → Prop}
    (hle : ∀ q answer, told q answer → told' q answer) {q : Question} {answer : q.Answer}
    (h : Derives told q answer) : Derives told' q answer := by
  induction h with
  | allowed h => exact .allowed (hle _ _ h)
  | everywhere h _ ih => exact .everywhere (hle _ _ h) ih
  | member h => exact .member (hle _ _ h)
  | listed h hrules => exact .listed (hle _ _ h) (hle _ _ hrules)
  | granted h => exact .granted (hle _ _ h)
  | ruled h hrules hmem hcovers _ ih => exact .ruled (hle _ _ h) (hle _ _ hrules) hmem hcovers ih
  | unruled h hrules _ ih => exact .unruled (hle _ _ h) (hle _ _ hrules) ih
  | rules h => exact .rules (hle _ _ h)
  | attributes h => exact .attributes (hle _ _ h)
  | identity h => exact .identity (hle _ _ h)

namespace World

variable {σ : Type} {limits : CacheLimits} {w w' : World σ} {id : ServiceId} {scope : Scope}

/-- What a service remembers follows from what it has heard. -/
theorem Grounded.derives (hw : w.Grounded) {q : Question} {answer : q.Answer}
    (h : w.slot id q = .filled answer) : Derives (w.Heard id) q answer := by
  have hrules : ∀ {rules}, w.slot id .rules = .filled rules → w.Heard id .rules rules :=
    fun hfilled => hw _ _ _ hfilled
  -- from the questions that are asked last to those that rest on them
  have hgroup : ∀ {name member}, w.slot id (.group name) = .filled member →
      Derives (w.Heard id) (.group name) member := by
    intro name member hfilled
    rcases hw _ _ _ hfilled with ⟨hheard, rfl⟩ | ⟨hheard, rules, hfound, rfl⟩
    · exact .member hheard
    · exact .listed hheard (hrules hfound)
  have hresource : ∀ {p allowed}, w.slot id (.resource p) = .filled allowed →
      Derives (w.Heard id) (.resource p) allowed := by
    intro p allowed hfilled
    rcases hw _ _ _ hfilled with ⟨hheard, rfl⟩ | ⟨hheard, rules, hfound, hdecided⟩
    · exact .granted hheard
    · cases allowed with
      | true =>
        obtain ⟨rule, hmem, hcovers, hmember⟩ := hdecided
        exact .ruled hheard (hrules hfound) hmem hcovers (hgroup hmember)
      | false =>
        exact .unruled hheard (hrules hfound) fun rule hmem hcovers =>
          hgroup (hdecided rule hmem hcovers)
  cases q with
  | action name =>
    rcases hw _ _ _ h with ⟨hheard, rfl⟩ | ⟨hheard, heverywhere⟩
    · exact .allowed hheard
    · exact .everywhere hheard (hresource heverywhere)
  | group name => exact hgroup h
  | resource p => exact hresource h
  | rules => exact .rules (hw _ _ _ h)
  | attributes => exact .attributes (hw _ _ _ h)
  | identity => exact .identity (hw _ _ _ h)

/-! ## Which services are fetched -/

/-- Only a service that is created is put into the store. -/
theorem Change.stored (h : Change limits w w') {service : Service}
    (hs : w.service? id = some service) (hget : w'.store.get? scope = some id) :
    w.store.get? scope = some id := by
  cases h with
  | fetch scope' =>
    rcases fetch_cases limits scope' w with ⟨id', -, -, hf⟩ | ⟨-, hf⟩
    · rwa [hf] at hget
    · rw [hf] at hget
      by_cases hscope : scope' = scope
      · simp only [Table.get?_put, hscope, if_true, Option.some.injEq] at hget
        rw [← hget, service?, List.getElem?_eq_none (Nat.le_refl _)] at hs
        cases hs
      · simpa only [Table.get?_put, hscope, if_false] using hget
  | invalidate m => exact (get?_keepOnly hget).1
  | evict => exact (get?_keepOnly hget).1
  | clear => cases hget
  | _ => exact hget

/-- A service that has left the store does not come back. -/
theorem Leads.stored (h : Leads limits w w') {service : Service}
    (hs : w.service? id = some service) (hget : w'.store.get? scope = some id) :
    w.store.get? scope = some id := by
  induction h with
  | refl => exact hget
  | tail hfirst hstep ih =>
    obtain ⟨service', hs', -⟩ := Leads.later hfirst hs
    exact ih (hstep.stored hs' hget)

/-- An invalidation leaves nothing of its module in the store. -/
theorem get?_invalidate_self (w : World σ) (scope : Scope) :
    (w.invalidate scope.module).2.store.get? scope = none := by
  show (w.store.keepOnly _).2.get? scope = none
  rw [Store.keepOnly, Table.get?_retain]
  simp

theorem get?_invalidate_ne (w : World σ) {m : ModuleName} (h : m ≠ scope.module) :
    (w.invalidate m).2.store.get? scope = w.store.get? scope := by
  show (w.store.keepOnly _).2.get? scope = _
  rw [Store.keepOnly, Table.get?_retain]
  cases w.store.get? scope with
  | none => rfl
  | some id => simp [Option.filter, Ne.symm h]

/-- A service that is fetched after an invalidation of its module did not exist before. -/
theorem fetched_new (h : Leads limits (w.invalidate scope.module).2 w') :
    w.service? (w'.fetch limits scope).1 = none := by
  cases hs : w.service? (w'.fetch limits scope).1 with
  | none => rfl
  | some service =>
    have hchange : Change limits w (w.invalidate scope.module).2 := .invalidate w scope.module
    obtain ⟨service₁, hs₁, -⟩ := hchange.later hs
    obtain ⟨service₂, hs₂, -⟩ := Leads.later h hs₁
    rcases fetch_cases limits scope w' with ⟨id, hget, -, hf⟩ | ⟨-, hf⟩
    · -- it would have been in the store when the invalidation was over
      rw [hf] at hs₁
      have hstored := Leads.stored h hs₁ hget
      rw [get?_invalidate_self] at hstored
      cases hstored
    · rw [hf, service?, List.getElem?_eq_none (Nat.le_refl _)] at hs₂
      cases hs₂

/-- A service that is fetched is not too old. -/
theorem fetched_young {service : Service}
    (hs : (w.fetch limits scope).2.service? (w.fetch limits scope).1 = some service) :
    w.now ≤ service.createdAt + limits.maxAge := by
  rcases fetch_cases limits scope w with ⟨id, -, hlive, hf⟩ | ⟨-, hf⟩
  · rw [hf] at hs
    simp only [isLive, isExpired, Bool.and_eq_true, Bool.not_eq_true', hs, decide_eq_false_iff_not,
      Nat.not_lt] at hlive
    exact Nat.sub_le_iff_le_add'.1 hlive.1
  · rw [hf, service?, List.getElem?_concat_length] at hs
    cases hs
    exact Nat.le_add_right _ _

/-- A service that did not exist was created afterwards. -/
theorem Leads.created (h : Leads limits w w') (hnew : w.service? id = none) {service : Service}
    (hs : w'.service? id = some service) : w.now ≤ service.createdAt := by
  induction h generalizing service with
  | refl =>
    rw [hnew] at hs
    cases hs
  | tail hfirst hstep ih =>
    rcases hstep.created hs with ⟨service', hs', hcreated⟩ | hcreated
    · rw [hcreated]
      exact ih hs'
    · rw [hcreated]
      exact Leads.now_le hfirst

/-! ## What does not concern a module -/

/-- Nothing has happened to a module: its services are what they were and where they were, and
nobody was asked about anything. -/
structure SameFor (m : ModuleName) (w w' : World σ) : Prop where
  now : w'.now = w.now
  lookups : w'.lookups = w.lookups
  stored : ∀ scope : Scope, scope.module = m → w'.store.get? scope = w.store.get? scope
  services : ∀ id service, w.service? id = some service → service.scope.module = m →
    w'.service? id = some service

theorem SameFor.refl (m : ModuleName) (w : World σ) : SameFor m w w :=
  ⟨rfl, rfl, fun _ _ => rfl, fun _ _ hs _ => hs⟩

/-- An invalidation does not concern other modules. -/
theorem sameFor_invalidate (hw : w.Coherent) {m m' : ModuleName} (h : m' ≠ m) :
    SameFor m w (w.invalidate m').2 where
  now := by rw [invalidate_eq]
  lookups := by rw [invalidate_eq]
  stored := by
    rintro scope rfl
    exact get?_invalidate_ne w h
  services id service hs hm := by
    rw [service?_invalidate, hs, Option.map_some, if_neg]
    intro hmem
    obtain ⟨scope, hscope, hget⟩ := mem_stored_iff.1 hmem
    obtain ⟨service', hs', rfl⟩ := hw scope id hget
    rw [hs] at hs'
    cases hs'
    exact h (hscope.symm.trans hm)

/-- A live service in the store is what is fetched. -/
theorem fetch_of_live (hget : w.store.get? scope = some id) (hlive : w.isLive limits id = true) :
    w.fetch limits scope = (id, w) := by
  rcases fetch_cases limits scope w with ⟨id', hget', -, hf⟩ | ⟨hdead, -⟩
  · rw [hget] at hget'
    cases hget'
    exact hf
  · rw [hdead id hget] at hlive
    cases hlive

/-- A service that is stored for a module that nothing has happened to is as it was. -/
theorem SameFor.service (hw : w.Coherent) (h : SameFor scope.module w w')
    (hget : w.store.get? scope = some id) : w'.service? id = w.service? id := by
  obtain ⟨service, hs, hscope⟩ := hw scope id hget
  rw [hs]
  exact h.services id service hs (congrArg Scope.module hscope)

/-- What a live service remembers is answered without asking anybody. -/
theorem run_answerWithin_of_filled {consult : Consult σ} (hget : w.store.get? scope = some id)
    (hlive : w.isLive limits id = true) {q : Question} {answer : q.Answer}
    (hfilled : w.slot id q = .filled answer) (retries : Nat) :
    (answerWithin limits consult retries scope q).run w = (.ok answer, w.pass 1) := by
  have hcurrent : w.isInvalidated id = false := by
    simp only [isLive, Bool.and_eq_true, Bool.not_eq_true'] at hlive
    exact hlive.2
  have hanswer : (Decision.answerFrom limits consult id q).run w = (.ok answer, w.pass 1) :=
    Decision.run_answerFrom_of_filled hcurrent hfilled
  cases retries with
  | zero => rw [run_answerWithin_zero, fetch_of_live hget hlive, hanswer]
  | succ n => rw [run_answerWithin_succ, fetch_of_live hget hlive, hanswer]

end World

/-! ## Answers for a scope -/

namespace DecisionCache

open World

variable {σ : Type} (cache : DecisionCache σ) {start : σ} {now : Instant} {scope : Scope}
  {w w₁ w' : World σ}

/-- One decision for a scope, somewhere down in the lookups of other decisions. -/
def decideAt (depth : Nat) (scope : Scope) (q : Question) : Decision σ q.Answer :=
  Gatehouse.answerScope cache.limits (consultAt cache.limits cache.backend depth) scope q

/-- A world that is reached from a start by steps, and in which all reports are reports of the
backend. -/
structure Reaches (start : σ) (now : Instant) (w : World σ) : Prop where
  steps : Steps cache.limits (.initial start now) w
  reports : Extends cache.backend 0 (.initial start now) w

variable {cache}

theorem reaches_after (commands : List Command) :
    cache.Reaches start now (cache.after commands (.initial start now)) :=
  ⟨(cache.settles_after commands _).steps, cache.extends_after commands _⟩

theorem Reaches.grounded (h : cache.Reaches start now w) : w.Grounded :=
  Steps.grounded h.steps (grounded_initial start now)

theorem Reaches.recorded (h : cache.Reaches start now w) : w.Recorded :=
  Steps.recorded h.steps (recorded_initial start now)

theorem Reaches.coherent (h : cache.Reaches start now w) : w.Coherent :=
  Leads.coherent h.steps.leads (coherent_initial start now)

theorem Reaches.decideAt (h : cache.Reaches start now w) (depth : Nat) (scope : Scope)
    (q : Question) : cache.Reaches start now ((cache.decideAt depth scope q).run w).2 where
  steps := h.steps.trans (settles_answerWithin (reliable_consultAt cache.backend depth)
    invalidationRetries scope q w).steps
  reports := h.reports.trans ((extends_answerWithin (reliable_consultAt cache.backend depth)
    (timely_consultAt cache.backend depth) invalidationRetries scope q w).mono (Nat.zero_le _))

/-- What makes a report fresh for a decision that starts in one world and fetches its service in a
later one: it is about the scope, it is not much older than the fetch, and it came after every
invalidation of the module that was over when the decision started. -/
structure Fresh (cache : DecisionCache σ) (start : σ) (now : Instant) (scope : Scope)
    (w w₁ : World σ) (report : LookupReport) : Prop where
  about : report.lookup.scope = scope
  young : w₁.now ≤ report.ended + cache.limits.maxAge
  current : ∀ w₀ command, cache.Reaches start now w₀ → command.Invalidates scope.module →
    Steps cache.limits ((cache.perform command).run w₀).2 w →
    report ∉ w₀.lookups ∧ w₀.now ≤ report.ended

/-- All that a service was told that is fetched in the course of a decision is fresh. -/
theorem fresh_of_fetched (hw : Steps cache.limits w w₁) (hreach : cache.Reaches start now w')
    (hfetch : Steps cache.limits (w₁.fetch cache.limits scope).2 w')
    (hcoherent : w₁.Coherent) {report : LookupReport} (hmem : report ∈ w'.lookups)
    (hservice : report.service = (w₁.fetch cache.limits scope).1) :
    cache.Fresh start now scope w w₁ report := by
  obtain ⟨service₁, hs₁, hscope₁, -⟩ := hcoherent.fetched cache.limits scope
  obtain ⟨service, hs, hscope, hcreated, -⟩ := hreach.recorded.reports report hmem
  obtain ⟨service', hs', hlater⟩ := Leads.later hfetch.leads hs₁
  rw [hservice, hs'] at hs
  cases hs
  rw [hlater.createdAt] at hcreated
  refine ⟨hscope.symm.trans (hlater.scope.trans hscope₁), ?_, ?_⟩
  · exact Nat.le_trans (fetched_young hs₁) (Nat.add_le_add_right hcreated _)
  · intro w₀ command hw₀ hcommand hsince
    rw [run_perform_of_invalidates hcommand] at hsince
    have hall := Steps.leads (hsince.trans hw)
    have hnew := fetched_new hall
    constructor
    · intro hold
      obtain ⟨service₀, hs₀, -⟩ := hw₀.recorded.reports report hold
      rw [hservice, hnew] at hs₀
      cases hs₀
    · have hfirst : Leads cache.limits w₀ (w₁.fetch cache.limits scope).2 :=
        .head (.invalidate w₀ scope.module) (hall.tail (.fetch w₁ scope))
      exact Nat.le_trans (Leads.created hfirst hnew hs₁) hcreated

/-- An answer in a report that satisfies a condition, if it came in time. -/
def ToldIn (P : LookupReport → Prop) (q : Question) (answer : q.Answer) : Prop :=
  ∃ id scope now deadline ended, ended ≤ deadline ∧
    P ⟨id, ⟨scope, q, now, deadline⟩, ended, some (.ok answer)⟩

/-- Every answer for a scope follows from answers of the backend about that scope that came after
the last invalidation of its module, and no earlier than the limit of age before the service was
fetched that gives the answer. What callers are told is such an answer. Events that invalidate
nothing, and events for other modules, change nothing for the scope: what its service remembers is
answered as before, and nobody is asked. -/
theorem answers_are_fresh (cache : DecisionCache σ) (start : σ) (now : Instant) :
    (∀ commands, cache.Reaches start now (cache.after commands (.initial start now))) ∧
    ∀ w, cache.Reaches start now w → ∀ scope depth,
      (∀ q answer w', (cache.decideAt depth scope q).run w = (.ok answer, w') →
        ∃ w₁, Steps cache.limits w w₁ ∧
          (cache.answerAt depth (w₁.fetch cache.limits scope).1 q).run
            (w₁.fetch cache.limits scope).2 = (.ok answer, w') ∧
          Derives (ToldIn fun report => report ∈ w'.lookups ∧ cache.backend.Says report ∧
            cache.Fresh start now scope w w₁ report) q answer) ∧
      (∀ inquiry,
        (Gatehouse.perform cache.limits (consultAt cache.limits cache.backend depth)
          (.ask scope inquiry)).run w =
        (.finding (inquiry.conclude ((cache.decideAt depth scope inquiry.question).run w).1),
          ((cache.decideAt depth scope inquiry.question).run w).2)) ∧
      ∀ m action, m ≠ scope.module ∨ action = .start ∨ action = .startFailed →
        let w₁ := ((cache.perform (.event m action)).run w).2
        SameFor scope.module w w₁ ∧
        ∀ id, w.store.get? scope = some id → w.isLive cache.limits id = true →
          ∀ q answer, w.slot id q = .filled answer →
            (cache.decideAt depth scope q).run w₁ = (.ok answer, w₁.pass 1) := by
  refine ⟨reaches_after, fun w hw scope depth => ⟨?fresh, fun inquiry => rfl, ?undisturbed⟩⟩
  case fresh =>
    intro q answer w' hrun
    obtain ⟨w₁, ⟨hsteps, -⟩, hanswer⟩ :=
      fetched_of_answered (reliable_consultAt cache.backend depth) hrun
    change (cache.answerAt depth (w₁.fetch cache.limits scope).1 q).run _ = _ at hanswer
    have hreach := hw.decideAt depth scope q
    rw [hrun] at hreach
    refine ⟨w₁, hsteps, hanswer, ?_⟩
    have hfrom := (cache.settles_answerAt depth (w₁.fetch cache.limits scope).1 q
      (w₁.fetch cache.limits scope).2).steps
    rw [hanswer] at hfrom
    have hcoherent : w₁.Coherent := Leads.coherent hsteps.leads hw.coherent
    refine (hreach.grounded.derives (cache.slot_of_run_answerAt hanswer)).mono ?_
    rintro q' answer' ⟨scope', asked, deadline, ended, hintime, hmem⟩
    exact ⟨_, scope', asked, deadline, ended, hintime, hmem, hreach.reports.reported _ hmem,
      fresh_of_fetched hsteps hreach hfrom hcoherent hmem rfl⟩
  case undisturbed =>
    intro m action hevent w₁
    have hsame : SameFor scope.module w w₁ := by
      rcases hevent with hother | rfl | rfl
      · cases action with
        | stop => exact sameFor_invalidate hw.coherent hother
        | securityChanged => exact sameFor_invalidate hw.coherent hother
        | start => exact SameFor.refl _ w
        | startFailed => exact SameFor.refl _ w
      · exact SameFor.refl _ w
      · exact SameFor.refl _ w
    refine ⟨hsame, fun id hget hlive q answer hfilled => ?_⟩
    have hservice := hsame.service hw.coherent hget
    refine run_answerWithin_of_filled ((hsame.stored scope rfl).trans hget) ?_ ?_ _
    · rw [isLive, isExpired, isInvalidated, hservice, hsame.now]
      exact hlive
    · rw [slot, hservice]
      exact hfilled

/-! ## A grant that is taken back -/

namespace Sample

/-- A cache over a backend that grants the first action that it is asked about, and nothing else. -/
def singleGrant : DecisionCache Nat where
  limits := ⟨100, 10⟩
  backend :=
    { react := fun l asked =>
        (⟨[], fun _ state => (⟨1, .ok (match l.question with
          | .action _ => asked == 0
          | q => q.nothing)⟩, state)⟩, asked + 1) }
  depth := 0

/-- Someone may read the wiki. -/
def granted : World Nat :=
  singleGrant.after [.ask anyScope (.action "read")] (.initial 0 0)

/-- The wiki has been stopped since. -/
def stopped : World Nat :=
  singleGrant.after [.ask anyScope (.action "read"), .event anyScope.module .start, moduleStops]
    (.initial 0 0)

/-- Whether someone may read is decided again. -/
def again : Except AuthzError Bool × World Nat :=
  (singleGrant.decideAt 1 anyScope (.action "read")).run stopped

end Sample

open Sample in
/-- When the wiki has started, reading is allowed as before. When it has stopped, reading is
refused, and the refusal follows from what the backend has said since. -/
theorem wiki_decides_afresh :
    (singleGrant.decideAt 1 anyScope (.action "read")).run
        ((singleGrant.perform (.event anyScope.module .start)).run granted).2 =
      (.ok true, ((singleGrant.perform (.event anyScope.module .start)).run granted).2.pass 1) ∧
    again.1 = .ok false ∧
    Derives (ToldIn fun report => report ∈ again.2.lookups ∧ report ∉ granted.lookups)
      (.action "read") false := by
  have hgranted : singleGrant.Reaches 0 0 granted := reaches_after _
  have hstopped : singleGrant.Reaches 0 0 stopped := reaches_after _
  have hrefused : again.1 = .ok false := eq_ok_of_toOption (by decide +kernel)
  have hrun : again = (.ok false, again.2) := by rw [← hrefused]
  refine ⟨?_, hrefused, ?_⟩
  · obtain ⟨-, -, hevents⟩ := (answers_are_fresh singleGrant 0 0).2 granted hgranted anyScope 1
    exact (hevents anyScope.module .start (.inr (.inl rfl))).2 0 rfl rfl _ _ rfl
  · obtain ⟨hfresh, -⟩ := (answers_are_fresh singleGrant 0 0).2 stopped hstopped anyScope 1
    obtain ⟨w₁, -, -, hderives⟩ := hfresh (.action "read") false again.2 hrun
    refine hderives.mono ?_
    rintro q answer ⟨id, scope, asked, deadline, ended, hintime, hmem, -, hreport⟩
    have hsince : Steps singleGrant.limits ((singleGrant.perform moduleStops).run granted).2
        stopped := .refl
    exact ⟨id, scope, asked, deadline, ended, hintime, hmem,
      (hreport.current granted moduleStops hgranted ⟨rfl, rfl⟩ hsince).1⟩

end DecisionCache

end Gatehouse
