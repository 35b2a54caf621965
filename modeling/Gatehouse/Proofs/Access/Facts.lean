import Gatehouse.Proofs.Access.Coverage

/-!
# What policies state

The entries of a policy state facts: that something was granted to a consumer within a module, or
that the members of a group are permitted something. Entries may be put together or taken apart,
repeated, and written in another order. Decisions depend on nothing but the facts, and a policy
that states more of them allows more.

- `Policy.Fact`, `Policy.facts`: the facts that the entries of a policy state.
- `Reference.Below`, `Reference.holds_of_below`: more answers to lookups, more answers to questions.
- `Entitlements.Within`, `within_collected`: entitlements that are part of others.
- `Entitlements.decision_eq`: what a fresh cache decides.
- `entitlements_eq_error_iff`: which policies are refused, and for which name.
- `decisions_follow_facts`: all of this about policies.
-/

namespace Gatehouse

/-! ## Facts -/

namespace Policy

/-- What a single value in an entry of a policy states. -/
inductive Fact where
  /-- An action was granted to a consumer within a module. -/
  | action (scope : Scope) (name : String)
  /-- A consumer was made a member of a group. -/
  | group (scope : Scope) (name : String)
  /-- Access to a resource was granted. -/
  | resource (scope : Scope) (permission : ResourcePermission)
  /-- The members of a group of a module are permitted something. -/
  | rule (module : ModuleName) (group : String) (permission : ResourcePermission)
deriving DecidableEq

end Policy

/-- The facts that a grant states. -/
def GrantEntry.facts (g : GrantEntry) : List Policy.Fact :=
  g.actions.map (.action g.scope) ++ g.groups.map (.group g.scope) ++
    g.resources.map (.resource g.scope)

/-- The facts that a rule states. -/
def RuleEntry.facts (r : RuleEntry) : List Policy.Fact :=
  r.permissions.map (.rule ⟨r.module⟩ r.group)

namespace Policy

/-- The facts that a policy states, in the order of its entries. -/
def facts (policy : Policy) : List Fact :=
  policy.grants.flatMap GrantEntry.facts ++ policy.rules.flatMap RuleEntry.facts

/-- The names of modules that a policy gives, in the order of its entries. -/
def modules (policy : Policy) : List String :=
  policy.grants.map GrantEntry.module ++ policy.rules.map RuleEntry.module

variable {policy policy' : Policy} {scope : Scope} {name group : String} {m : ModuleName}
  {p : ResourcePermission}

theorem mem_facts {fact : Fact} :
    fact ∈ policy.facts ↔
      (∃ g ∈ policy.grants, fact ∈ g.facts) ∨ ∃ r ∈ policy.rules, fact ∈ r.facts := by
  rw [facts, List.mem_append, List.mem_flatMap, List.mem_flatMap]

theorem action_mem_facts :
    .action scope name ∈ policy.facts ↔
      ∃ g ∈ policy.grants, g.scope = scope ∧ name ∈ g.actions := by
  simp [mem_facts, GrantEntry.facts, RuleEntry.facts, and_comm]

theorem group_mem_facts :
    .group scope name ∈ policy.facts ↔
      ∃ g ∈ policy.grants, g.scope = scope ∧ name ∈ g.groups := by
  simp [mem_facts, GrantEntry.facts, RuleEntry.facts, and_comm]

theorem resource_mem_facts :
    .resource scope p ∈ policy.facts ↔
      ∃ g ∈ policy.grants, g.scope = scope ∧ p ∈ g.resources := by
  simp [mem_facts, GrantEntry.facts, RuleEntry.facts, and_comm]

theorem rule_mem_facts :
    .rule m group p ∈ policy.facts ↔
      ∃ r ∈ policy.rules, ⟨r.module⟩ = m ∧ r.group = group ∧ p ∈ r.permissions := by
  simp [mem_facts, GrantEntry.facts, RuleEntry.facts, and_comm, and_left_comm, and_assoc]

end Policy

/-! ## More answers to lookups -/

/-- Something was permitted to every group that the rules of a policy name. -/
def Entitlements.Peopled (e : Entitlements) : Prop :=
  ∀ m group, (e.rulesOf m).hasGroup group = true → ∃ p, (e.rulesOf m).Permits group p

theorem Entitlements.Peopled.addRule {e : Entitlements} (h : e.Peopled) (m : ModuleName)
    (group : String) (p : ResourcePermission) : (e.addRule m group p).Peopled := by
  intro m' group' hgroup
  by_cases hsame : m = m' ∧ group = group'
  · exact ⟨p, permits_addRule.2 (.inr ⟨hsame.1, hsame.2, rfl⟩)⟩
  · -- a rule for another group leaves this one as it is
    have hold : (e.rulesOf m').hasGroup group' = true := by
      rw [rulesOf_addRule] at hgroup
      by_cases hm : m = m'
      · subst hm
        have hne : group ≠ group' := fun heq => hsame ⟨rfl, heq⟩
        rw [if_pos rfl, GroupRules.hasGroup, Table.get?_put, if_neg hne] at hgroup
        exact hgroup
      · rwa [if_neg hm] at hgroup
    obtain ⟨q, hq⟩ := h m' group' hold
    exact ⟨q, permits_addRule.2 (.inl hq)⟩

namespace Reference

/-- Answers to single lookups of which others allow all that is allowed. -/
structure Below (answers other : Answers) : Prop where
  action : ∀ name, answers (.action name) = true → other (.action name) = true
  group : ∀ name, answers (.group name) = true → other (.group name) = true
  resource : ∀ p, answers (.resource p) = true → other (.resource p) = true
  hasGroup : ∀ group, (answers .rules).hasGroup group = true → (other .rules).hasGroup group = true
  grant : ∀ p, (answers .rules).grant p = true → (other .rules).grant p = true

variable {answers other : Answers}

theorem mayAccess_of_below (h : Below answers other) {p : ResourcePermission}
    (hallowed : mayAccess answers p = true) : mayAccess other p = true := by
  rw [mayAccess, Bool.or_eq_true] at hallowed ⊢
  exact hallowed.imp (h.resource p) (h.grant p)

/-- The answers to access queries grow with the answers to lookups. -/
theorem holds_of_below (h : Below answers other) (query : AccessQuery)
    (hallowed : query.holds (holds answers query.question) = true) :
    query.holds (holds other query.question) = true := by
  cases query with
  | action name =>
    change mayPerform answers name = true at hallowed
    change mayPerform other name = true
    rw [mayPerform, Bool.or_eq_true] at hallowed ⊢
    exact hallowed.imp (h.action name) (mayAccess_of_below h)
  | group name =>
    change inGroup answers name = true at hallowed
    change inGroup other name = true
    rw [inGroup, Bool.or_eq_true] at hallowed ⊢
    exact hallowed.imp (h.group name) (h.hasGroup name)
  | resource p => exact mayAccess_of_below h hallowed

end Reference

namespace Entitlements

variable {e e' : Entitlements}

/-- Entitlements all of which are among others. -/
structure Within (e e' : Entitlements) : Prop where
  all : e.allowAll = true → e'.allowAll = true
  actions : ∀ scope, (e.grantsOf scope).actions ⊆ (e'.grantsOf scope).actions
  groups : ∀ scope, (e.grantsOf scope).groups ⊆ (e'.grantsOf scope).groups
  resources : ∀ scope, (e.grantsOf scope).resources ⊆ (e'.grantsOf scope).resources
  rules : ∀ m group p, (e.rulesOf m).Permits group p → (e'.rulesOf m).Permits group p

/-- More entitlements, more answers. -/
theorem Within.below (h : Within e e') (hpeopled : e.Peopled) (scope : Scope) :
    Reference.Below (e.answer scope) (e'.answer scope) where
  action name hallowed := by
    rw [answer, Bool.or_eq_true, List.contains_iff_mem] at hallowed ⊢
    exact hallowed.imp h.all fun hmem => h.actions scope hmem
  group name hallowed := by
    rw [answer, Bool.or_eq_true, List.contains_iff_mem] at hallowed ⊢
    exact hallowed.imp h.all fun hmem => h.groups scope hmem
  resource p hallowed := by
    rw [answer, Bool.or_eq_true, List.contains_iff_mem] at hallowed ⊢
    exact hallowed.imp h.all fun hmem => h.resources scope hmem
  hasGroup group hgroup := by
    obtain ⟨p, hp⟩ := hpeopled scope.module group hgroup
    obtain ⟨granted, hrule, -⟩ := h.rules scope.module group p hp
    exact Option.isSome_of_eq_some hrule
  grant p hgranted := by
    obtain ⟨group, q, hq, hcovers⟩ := GroupRules.grant_iff_permits.1 hgranted
    exact GroupRules.grant_iff_permits.2 ⟨group, q, h.rules scope.module group q hq, hcovers⟩

end Entitlements

namespace Policy

variable {policy policy' : Policy}

theorem peopled_collected (policy : Policy) : policy.collected.Peopled := by
  have hrules : (policy.rules.foldl withRule
      (policy.grants.foldl withGrant (.start policy.allowAll))).Peopled := by
    refine List.foldlRecOn policy.rules withRule ?_ fun e he r _ => ?_
    · intro m group hgroup
      rw [rulesOf_foldl_withGrant] at hgroup
      cases hgroup
    · exact List.foldlRecOn r.permissions _ he fun e he p _ => he.addRule ⟨r.module⟩ r.group p
  intro m group
  rw [rulesOf_collected]
  exact hrules m group

/-- What a policy grants is part of what a policy grants that states the same facts or more. -/
theorem within_collected (hall : policy.allowAll = true → policy'.allowAll = true)
    (hfacts : policy.facts ⊆ policy'.facts) : policy.collected.Within policy'.collected where
  all h := by
    rw [allowAll_collected] at h ⊢
    exact hall h
  actions scope name hmem := by
    rw [mem_granted_collected Grants.actions GrantEntry.actions (fun _ _ => rfl) rfl] at hmem ⊢
    exact action_mem_facts.1 (hfacts (action_mem_facts.2 hmem))
  groups scope name hmem := by
    rw [mem_granted_collected Grants.groups GrantEntry.groups (fun _ _ => rfl) rfl] at hmem ⊢
    exact group_mem_facts.1 (hfacts (group_mem_facts.2 hmem))
  resources scope p hmem := by
    rw [mem_resources_collected] at hmem ⊢
    exact resource_mem_facts.1 (hfacts (resource_mem_facts.2 hmem))
  rules m group p hpermits := by
    rw [permits_collected] at hpermits ⊢
    exact rule_mem_facts.1 (hfacts (rule_mem_facts.2 hpermits))

end Policy

/-! ## Fresh caches -/

/-- A limit that leaves no time: what is not remembered stays unanswered. -/
theorem Decision.run_answerFrom_of_overdue {σ : Type} {limits : CacheLimits}
    {backend : PermissionBackend σ} {depth : Nat} {w : World σ} {id : ServiceId} {q : Question}
    (htime : limits.timeout = 0) (hcurrent : w.isInvalidated id = false)
    (hslot : w.slot id q = .empty) :
    ∃ scope source w', (answerFrom limits (consultAt limits backend (depth + 1)) id q).run w =
      (.error (.backendUnavailable scope source), w') := by
  have hslot' : (w.pass 1).slot id q = .empty := hslot
  have hask : ∃ scope source w',
      (consultAt limits backend (depth + 1) id (w.now + limits.timeout) q).run
        ((w.pass 1).setSlot id q .loading) = (.error (.backendUnavailable scope source), w') := by
    -- the clock has moved on since the deadline was set, whether the lookup is held up or not
    have hlate : ∀ nanos, w.now + limits.timeout <
        (((w.pass 1).setSlot id q .loading).pass nanos).now := by
      intro nanos
      rw [htime]
      exact Nat.lt_of_lt_of_le (Nat.lt_succ_self w.now) (Nat.le_add_right _ _)
    rw [consultAt, run_delayed, run_lookUp_of_late backend _ (hlate _)]
    exact ⟨_, _, _, rfl⟩
  obtain ⟨scope, source, w', hask⟩ := hask
  rw [run_answerFrom_of_current hcurrent, resolve_eq,
    run_remember_of_empty _ _ hslot' (run_bind_of_error hask _)]
  exact ⟨_, _, _, rfl⟩

namespace Entitlements

/-- What a fresh cache decides. -/
def decision (e : Entitlements) (limits : CacheLimits) (depth : Nat) (now : Instant)
    (scope : Scope) (query : AccessQuery) : AccessDecision :=
  let cache : DecisionCache Entitlements := ⟨limits, backend, depth⟩
  ((cache.check scope query).run (.initial e now)).1

/-- A fresh cache decides as one would without a cache, if there is any time for it. -/
theorem decision_eq (e : Entitlements) (limits : CacheLimits) (depth : Nat) (now : Instant)
    (scope : Scope) (query : AccessQuery) :
    e.decision limits depth now scope query =
      if 0 < limits.timeout then
        .ofBool (query.holds (Reference.holds (e.answer scope) query.question))
      else .indeterminate := by
  split
  · next htime =>
    have hask := answer_ask htime depth e now [] scope (.check query)
    injection hask with hfinding
    injection hfinding with hdecision
    injection hdecision
  · next htime =>
    obtain ⟨s, source, w', hrun⟩ : ∃ s source w',
        (Decision.answerFrom limits (consultAt limits backend (depth + 1))
          ((World.initial e now).fetch limits scope).1 query.question).run
          ((World.initial e now).fetch limits scope).2 =
            (.error (.backendUnavailable s source), w') :=
      Decision.run_answerFrom_of_overdue (Nat.eq_zero_of_not_pos htime) rfl rfl
    have hanswer : (answerWithin limits (consultAt limits backend (depth + 1)) invalidationRetries
        scope query.question).run (.initial e now) =
          (.error (.backendUnavailable s source), w') := by
      rw [invalidationRetries, run_answerWithin_succ, hrun]
    show query.decision ((answerWithin limits (consultAt limits backend (depth + 1))
      invalidationRetries scope query.question).run (.initial e now)).1 = _
    rw [hanswer]
    rfl

theorem isAllowed_ofBool (b : Bool) : (AccessDecision.ofBool b).isAllowed = b := by
  cases b with
  | true => rfl
  | false => rfl

/-- A fresh cache allows what it would allow with fewer entitlements. -/
theorem Within.isAllowed {e e' : Entitlements} (h : Within e e') (hpeopled : e.Peopled)
    {limits : CacheLimits} {depth : Nat} {now : Instant} {scope : Scope} {query : AccessQuery}
    (hallowed : (e.decision limits depth now scope query).isAllowed = true) :
    (e'.decision limits depth now scope query).isAllowed = true := by
  rw [decision_eq] at hallowed ⊢
  split at hallowed
  · next htime =>
    rw [if_pos htime, isAllowed_ofBool]
    rw [isAllowed_ofBool] at hallowed
    exact Reference.holds_of_below (h.below hpeopled scope) query hallowed
  · cases hallowed

/-- With entitlements that are part of each other, everything is decided alike. -/
theorem decision_congr {e e' : Entitlements} (h : Within e e') (h' : Within e' e)
    (hpeopled : e.Peopled) (hpeopled' : e'.Peopled) (limits : CacheLimits) (depth : Nat)
    (now : Instant) (scope : Scope) (query : AccessQuery) :
    e.decision limits depth now scope query = e'.decision limits depth now scope query := by
  rw [decision_eq, decision_eq]
  have hsame : query.holds (Reference.holds (e.answer scope) query.question) =
      query.holds (Reference.holds (e'.answer scope) query.question) := by
    rw [Bool.eq_iff_iff]
    exact ⟨Reference.holds_of_below (h.below hpeopled scope) query,
      Reference.holds_of_below (h'.below hpeopled' scope) query⟩
  rw [hsame]

end Entitlements

/-! ## Refused policies -/

/-- Why a text cannot be the name of a module. -/
def ModuleName.refusal? (name : String) : Option InvalidModuleName :=
  if isValid name then none else some ⟨name⟩

theorem ModuleName.refusal?_isSome_iff {name : String} :
    (refusal? name).isSome = true ↔ Text.allBlank name = true ∨ '/' ∈ name.toList := by
  have hvalid : isValid name = true ↔ ¬(Text.allBlank name = true ∨ '/' ∈ name.toList) := by
    simp [isValid]
  unfold refusal?
  split
  · next h => exact iff_of_false Bool.false_ne_true (hvalid.1 h)
  · next h => exact iff_of_true rfl (not_not.1 fun hnot => h (hvalid.2 hnot))

theorem ModuleName.ofString_eq_error_iff {name : String} {refusal : InvalidModuleName} :
    ofString name = .error refusal ↔ refusal? name = some refusal := by
  unfold ofString refusal?
  split
  · exact ⟨nofun, nofun⟩
  · exact ⟨fun h => congrArg some (Except.error.inj h),
      fun h => congrArg Except.error (Option.some.inj h)⟩

namespace Policy

theorem addGrant_eq_error_iff (e : Entitlements) (g : GrantEntry) (refusal : InvalidModuleName) :
    addGrant e g = .error refusal ↔ ModuleName.refusal? g.module = some refusal :=
  bind_pure_eq_error_iff.trans ModuleName.ofString_eq_error_iff

theorem addRule_eq_error_iff (e : Entitlements) (r : RuleEntry) (refusal : InvalidModuleName) :
    addRule e r = .error refusal ↔ ModuleName.refusal? r.module = some refusal :=
  bind_pure_eq_error_iff.trans ModuleName.ofString_eq_error_iff

/-- A policy is refused for the first of its names that cannot be the name of a module. -/
theorem entitlements_eq_error_iff {policy : Policy} {refusal : InvalidModuleName} :
    policy.entitlements = .error refusal ↔
      policy.modules.findSome? ModuleName.refusal? = some refusal := by
  have hgrants : ∀ refusal, policy.grants.foldlM addGrant (.start policy.allowAll) =
      .error refusal ↔
        policy.grants.findSome? (ModuleName.refusal? ∘ GrantEntry.module) = some refusal :=
    fun _ => foldlM_eq_error_iff addGrant_eq_error_iff
  rw [modules, List.findSome?_append, List.findSome?_map, List.findSome?_map, entitlements]
  cases hfirst : policy.grants.foldlM addGrant (.start policy.allowAll) with
  | error refusal' =>
    rw [(hgrants refusal').1 hfirst]
    exact ⟨fun h => congrArg some (Except.error.inj h),
      fun h => congrArg Except.error (Option.some.inj h)⟩
  | ok e =>
    have hnone : policy.grants.findSome? (ModuleName.refusal? ∘ GrantEntry.module) = none := by
      rw [Option.eq_none_iff_forall_ne_some]
      intro refusal' hrefused
      rw [(hgrants refusal').2 hrefused] at hfirst
      cases hfirst
    rw [hnone, Option.none_or]
    exact bind_pure_eq_error_iff.trans (foldlM_eq_error_iff addRule_eq_error_iff)

/-! ## The result -/

/-- Decisions follow the facts that a policy states. If all facts of one policy are among those of
another, in whatever entries, order and number they are stated, then what a fresh cache allows
under the first it allows under the second; and if the facts are the same, it decides everything
alike. A policy is refused if and only if an entry, even one that states nothing, names a module
by a blank text or by one with a slash, and it is refused for the first such name. -/
theorem decisions_follow_facts :
    (∀ (policy policy' : Policy) (e e' : Entitlements),
      policy.entitlements = .ok e → policy'.entitlements = .ok e' →
      (policy.allowAll = true → policy'.allowAll = true) → policy.facts ⊆ policy'.facts →
      ∀ limits depth now scope query,
        (e.decision limits depth now scope query).isAllowed = true →
          (e'.decision limits depth now scope query).isAllowed = true) ∧
    (∀ (policy policy' : Policy) (e e' : Entitlements),
      policy.entitlements = .ok e → policy'.entitlements = .ok e' →
      policy.allowAll = policy'.allowAll → (∀ fact, fact ∈ policy.facts ↔ fact ∈ policy'.facts) →
      ∀ limits depth now scope query,
        e.decision limits depth now scope query = e'.decision limits depth now scope query) ∧
    ∀ policy : Policy,
      ((∃ refusal, policy.entitlements = .error refusal) ↔
        ∃ name ∈ policy.modules, Text.allBlank name = true ∨ '/' ∈ name.toList) ∧
      ∀ refusal, policy.entitlements = .error refusal ↔
        policy.modules.findSome? ModuleName.refusal? = some refusal := by
  refine ⟨?monotone, ?alike, fun policy => ⟨?refused, fun _ => entitlements_eq_error_iff⟩⟩
  case monotone =>
    intro policy policy' e e' he he' hall hfacts limits depth now scope query hallowed
    obtain rfl := eq_of_entitlements_eq_ok he
    obtain rfl := eq_of_entitlements_eq_ok he'
    exact (within_collected hall hfacts).isAllowed (peopled_collected policy) hallowed
  case alike =>
    intro policy policy' e e' he he' hall hfacts limits depth now scope query
    obtain rfl := eq_of_entitlements_eq_ok he
    obtain rfl := eq_of_entitlements_eq_ok he'
    exact Entitlements.decision_congr
      (within_collected (fun h => hall ▸ h) fun fact => (hfacts fact).1)
      (within_collected (fun h => hall ▸ h) fun fact => (hfacts fact).2)
      (peopled_collected policy) (peopled_collected policy') limits depth now scope query
  case refused =>
    have hsome : (∃ refusal, policy.entitlements = .error refusal) ↔
        (policy.modules.findSome? ModuleName.refusal?).isSome = true := by
      rw [Option.isSome_iff_exists]
      exact exists_congr fun _ => entitlements_eq_error_iff
    rw [hsome, List.isSome_findSome?, List.any_eq_true]
    exact exists_congr fun name => and_congr_right fun _ => ModuleName.refusal?_isSome_iff

namespace Sample

/-- Two entries, for someone who may view. -/
def brief : Policy :=
  { empty with
    grants := [⟨"wiki", "someone", ["view"], [], [.of "report" "7" "view"], []⟩]
    rules := [⟨"wiki", "readers", [.of "map" "" "view"]⟩] }

/-- The same in other entries, one of which states nothing. -/
def scattered : Policy :=
  { empty with
    grants := [⟨"wiki", "someone", [], [], [.of "report" "7" "view"], []⟩,
      ⟨"atlas", "nobody", [], [], [], []⟩,
      ⟨"wiki", "someone", ["view", "view"], [], [], []⟩]
    rules := [⟨"wiki", "writers", []⟩, ⟨"wiki", "readers", [.of "map" " " "view"]⟩] }

/-- More than that: someone may edit, too. -/
def generous : Policy :=
  { scattered with
    grants := ⟨"wiki", "someone", ["edit"], ["writers"], [], []⟩ :: scattered.grants
    rules := ⟨"wiki", "readers", [.of "map" "" "edit"]⟩ :: scattered.rules }

/-- An entry that states nothing, but names no module. -/
def nameless : Policy :=
  { brief with rules := [⟨"wiki/home", "readers", []⟩] }

end Sample

open Sample in
/-- Someone may view a map, for there is a rule for it. This is so whatever the entries are like,
and it stays so when more is permitted. -/
theorem decisions_follow_facts_sample :
    let scope : Scope := ⟨⟨"wiki"⟩, ⟨"someone"⟩⟩
    let query : AccessQuery := .resource ⟨"map", "12", "view"⟩
    (∃ e e' e'', brief.entitlements = .ok e ∧ scattered.entitlements = .ok e' ∧
      generous.entitlements = .ok e'' ∧
      e.decision .standard 0 0 scope query = .allow ∧
      e'.decision .standard 0 0 scope query = .allow ∧
      (e''.decision .standard 0 0 scope query).isAllowed = true) ∧
    nameless.entitlements = .error ⟨"wiki/home"⟩ := by
  intro scope query
  obtain ⟨hmonotone, halike, hrefused⟩ := decisions_follow_facts
  have hbrief : brief.collected.decision .standard 0 0 scope query = .allow := by
    rw [Entitlements.decision_eq]
    rfl
  have hfront : brief.facts ⊆ scattered.facts := by decide
  have hback : scattered.facts ⊆ brief.facts := by decide
  have hsame := halike brief scattered brief.collected scattered.collected rfl rfl rfl
    (fun fact => ⟨fun h => hfront h, fun h => hback h⟩) .standard 0 0 scope query
  have hmore := hmonotone brief generous brief.collected generous.collected rfl rfl id
    (by decide) .standard 0 0 scope query (by rw [hbrief]; rfl)
  exact ⟨⟨_, _, _, rfl, rfl, rfl, hbrief, hsame.symm.trans hbrief, hmore⟩,
    ((hrefused nameless).2 _).2 (by decide)⟩

end Policy

end Gatehouse
