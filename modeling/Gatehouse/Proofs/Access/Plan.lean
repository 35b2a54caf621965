import Gatehouse.Proofs.Access.Consistency
import Gatehouse.Proofs.Access.Failure
import Mathlib.Data.List.Nodup

/-!
# What a decision asks, and in which order

The rules of a module may name any number of groups, and still a decision asks about one of them at
most. For a group that is taken from remembered rules is never refused: either the backend says that
the consumer belongs to it, or the rules do, or there is no answer. So the first group whose rule
covers the request decides.

- `GroupRules.firstMatch` and `Decision.plan`: the questions that a decision may put to the backend.
- `World.questionsOf`: the questions that it has put.
- `Decision.Asks`: a computation asks no more than planned, in the planned order; with one rule for
  each way to make up computations.
- `run_grantedByRule`: the first group that matches decides.
- `asks_resolve`, `questionsOf_answerFrom`: every decision keeps to its plan.
- `PermissionBackend.Quiet`: a backend that asks nothing itself. Then the lookups of a decision are
  all that is reported.
-/

namespace Gatehouse

/-! ## Plans -/

namespace GroupRules

/-- Whether the rule of a group covers a permission. -/
def matchesRule (p : ResourcePermission) (rule : String × List ResourcePermission) : Bool :=
  rule.2.any (·.covers p)

/-- The first group whose rule covers a permission. -/
def firstMatch (rules : GroupRules) (p : ResourcePermission) : Option String :=
  (rules.entries.find? (matchesRule p)).map Prod.fst

theorem firstMatch_eq_none_of_grant {rules : GroupRules} {p : ResourcePermission}
    (h : rules.grant p = false) : rules.firstMatch p = none := by
  rw [firstMatch, Option.map_eq_none_iff, List.find?_eq_none]
  intro rule hmem
  exact List.any_eq_false.1 h rule hmem

end GroupRules

namespace Decision

/-- What is asked about groups when rules are looked through. -/
def groupPlan (rules : Slot GroupRules) (p : ResourcePermission) : List Question :=
  match rules with
  | .filled rules => (rules.firstMatch p).toList.map .group
  | _ => []

/-- What may be asked for a question, given the rules that are known in the end. -/
def plan (rules : Slot GroupRules) : Question → List Question
  | .action name =>
    .action name :: .resource (.everywhere name) :: .rules :: groupPlan rules (.everywhere name)
  | .group name => [.group name, .rules]
  | .resource p => .resource p :: .rules :: groupPlan rules p
  | q => [q]

theorem groupPlan_mono {slot slot' : Slot GroupRules} {p : ResourcePermission}
    (h : ∀ rules, slot = .filled rules → slot' = .filled rules) :
    List.Sublist (groupPlan slot p) (groupPlan slot' p) := by
  cases slot with
  | filled rules => rw [h rules rfl]
  | empty => exact List.nil_sublist _
  | loading => exact List.nil_sublist _

/-- One group is planned at most. -/
theorem groupPlan_cases (rules : Slot GroupRules) (p : ResourcePermission) :
    groupPlan rules p = [] ∨ ∃ name, groupPlan rules p = [.group name] := by
  cases rules with
  | filled rules =>
    cases h : rules.firstMatch p with
    | none => exact .inl (by simp [groupPlan, h])
    | some name => exact .inr ⟨name, by simp [groupPlan, h]⟩
  | empty => exact .inl rfl
  | loading => exact .inl rfl

/-- No kind of question is planned twice. -/
theorem nodup_plan (rules : Slot GroupRules) (q : Question) :
    ((plan rules q).map Question.kind).Nodup := by
  have hwalk : ∀ {p first}, "group" ∉ first → first.Nodup →
      (first ++ (groupPlan rules p).map Question.kind).Nodup := by
    intro p first hgroup hfirst
    rcases groupPlan_cases rules p with h | ⟨name, h⟩
    · rwa [h, List.map_nil, List.append_nil]
    · rw [h, List.map_singleton, Question.kind, List.nodup_append_comm]
      exact hfirst.cons hgroup
  cases q with
  | action name => exact @hwalk _ ["action", "resource", "rules"] (by decide) (by decide)
  | resource p => exact @hwalk _ ["resource", "rules"] (by decide) (by decide)
  | group name => exact (by decide : ["group", "rules"].Nodup)
  | _ => exact List.nodup_singleton _

theorem length_plan_le (rules : Slot GroupRules) (q : Question) : (plan rules q).length ≤ 4 := by
  have hwalk : ∀ p, (groupPlan rules p).length ≤ 1 := by
    intro p
    rcases groupPlan_cases rules p with h | ⟨name, h⟩
    · rw [h]
      exact Nat.zero_le 1
    · rw [h]
      exact Nat.le_refl 1
  cases q with
  | action name => exact Nat.add_le_add_right (hwalk (.everywhere name)) 3
  | resource p => exact Nat.le_succ_of_le (Nat.add_le_add_right (hwalk p) 2)
  | group name => exact Nat.le_add_right 2 2
  | _ => exact Nat.le_add_right 1 3

end Decision

/-! ## What was asked -/

namespace World

variable {σ : Type} {w w' w'' : World σ} {id : ServiceId} {deadline : Instant}

/-- The questions that a service put to the backend between two worlds, for a decision with a
certain deadline and in order. -/
def questionsOf (w w' : World σ) (id : ServiceId) (deadline : Instant) : List Question :=
  (w.lookupsOf w' id deadline).reverse.map (·.lookup.question)

theorem questionsOf_trans (h₁ : w.lookups <:+ w'.lookups) (h₂ : w'.lookups <:+ w''.lookups) :
    w.questionsOf w'' id deadline =
      w.questionsOf w' id deadline ++ w'.questionsOf w'' id deadline := by
  rw [questionsOf, lookupsOf_trans h₁ h₂, List.reverse_append, List.map_append]
  rfl

/-- Without new reports nothing was asked, whatever was planned. -/
theorem questionsOf_sublist_of_eq (h : w'.lookups = w.lookups) (questions : List Question) :
    List.Sublist (w.questionsOf w' id deadline) questions := by
  rw [questionsOf, lookupsOf_of_eq h]
  exact List.nil_sublist questions

end World

namespace Decision

open World

variable {σ α β : Type} {backend : PermissionBackend σ} {limits : CacheLimits}
  {consult : Consult σ} {id : ServiceId} {deadline : Instant} {w w₁ w' : World σ}

/-- A decision of a service that exists is under way. -/
structure Underway (limits : CacheLimits) (id : ServiceId) (deadline : Instant) (w : World σ) :
    Prop where
  service : ∃ service, w.service? id = some service
  started : deadline < w.now + limits.timeout

theorem Underway.steps (h : Underway limits id deadline w) (hsteps : Steps limits w w') :
    Underway limits id deadline w' := by
  obtain ⟨service, hs⟩ := h.service
  obtain ⟨service', hs', -⟩ := hsteps.leads.later hs
  exact ⟨⟨service', hs'⟩,
    Nat.lt_of_lt_of_le h.started (Nat.add_le_add_right hsteps.leads.now_le _)⟩

/-- From a certain world, a computation settles, and asks the backend some of the given questions,
in order. -/
structure Asks (limits : CacheLimits) (id : ServiceId) (deadline : Instant) (w : World σ)
    (x : Decision σ α) (questions : List Question) : Prop where
  settles : Settles limits w (x.run w).2
  asked : List.Sublist (w.questionsOf (x.run w).2 id deadline) questions

theorem Asks.mono {x : Decision σ α} {questions questions' : List Question}
    (h : Asks limits id deadline w x questions) (hle : List.Sublist questions questions') :
    Asks limits id deadline w x questions' :=
  ⟨h.settles, h.asked.trans hle⟩

/-- Computations that run alike ask alike. -/
theorem Asks.of_run_eq {x y : Decision σ α} {questions : List Question}
    (h : Asks limits id deadline w x questions) (hrun : y.run w = x.run w) :
    Asks limits id deadline w y questions := by
  obtain ⟨hsettles, hasked⟩ := h
  rw [← hrun] at hsettles hasked
  exact ⟨hsettles, hasked⟩

theorem asks_pure (a : α) (questions : List Question) :
    Asks limits id deadline w (pure a) questions where
  settles := Settles.refl w
  asked := questionsOf_sublist_of_eq rfl questions

theorem asks_bind {x : Decision σ α} {f : α → Decision σ β} {questions questions' : List Question}
    (hx : Asks limits id deadline w x questions)
    (hf : ∀ a w₁, x.run w = (.ok a, w₁) → Asks limits id deadline w₁ (f a) questions') :
    Asks limits id deadline w (x >>= f) (questions ++ questions') := by
  obtain ⟨hsettles, hasked⟩ := hx
  cases hrun : x.run w with
  | mk outcome w₁ =>
    rw [hrun] at hsettles hasked
    cases outcome with
    | error e =>
      have hall : (x >>= f).run w = (.error e, w₁) := run_bind_of_error hrun f
      refine ⟨by rwa [hall], ?_⟩
      rw [hall]
      exact hasked.trans (List.sublist_append_left _ _)
    | ok a =>
      obtain ⟨hsettles', hasked'⟩ := hf a w₁ hrun
      rw [← run_bind_of_ok hrun f] at hsettles' hasked'
      refine ⟨hsettles.trans hsettles', ?_⟩
      rw [questionsOf_trans hsettles.steps.lookups_suffix hsettles'.steps.lookups_suffix]
      exact hasked.append hasked'

/-- What is remembered is not asked about. -/
theorem asks_of_filled {q : Question} {answer : q.Answer} (h : w.slot id q = .filled answer) :
    Asks limits id deadline w (resolve limits consult id deadline q) [] :=
  (asks_pure answer []).of_run_eq (run_resolve_of_filled h deadline)

section Rules

variable (hconsult : Reliable limits consult) (haccounts : Accounts backend limits consult)

include hconsult haccounts

theorem asks_consult (h : Underway limits id deadline w) (q : Question) :
    Asks limits id deadline w (consult id deadline q) [q] := by
  obtain ⟨service, hs⟩ := h.service
  obtain ⟨report, htold⟩ := haccounts id deadline q w h.started
  refine ⟨(hconsult id deadline q w service hs).1, ?_⟩
  rw [World.questionsOf, htold.only, List.reverse_singleton, List.map_singleton, htold.question]

/-- A question that is not remembered is asked first, and then whatever follows it up. What is
known at the end of that is known at the end. -/
theorem asks_of_followUp (h : Underway limits id deadline w) (q : Question)
    {rest : List Question}
    (hfollow : ∀ answer w₁, Steps limits w w₁ →
      (∀ q' answer', q' ≠ q →
        ((followUp limits consult id deadline q answer).run w₁).2.slot id q' = .filled answer' →
        ((resolve limits consult id deadline q).run w).2.slot id q' = .filled answer') →
      Asks limits id deadline w₁ (followUp limits consult id deadline q answer) rest) :
    Asks limits id deadline w (resolve limits consult id deadline q) (q :: rest) := by
  obtain ⟨service, hs⟩ := h.service
  refine ⟨(proceeds_resolve hconsult q w service hs trivial).1, ?_⟩
  cases hslot : w.slot id q with
  | filled answer =>
    rw [run_resolve_of_filled hslot]
    exact questionsOf_sublist_of_eq rfl _
  | loading =>
    rw [resolve_eq, run_remember_of_loading deadline _ hslot]
    exact questionsOf_sublist_of_eq rfl _
  | empty =>
    -- the slot is opened, the lookup and what follows it run, and the slot is closed again
    have hopen : Step limits w (w.setSlot id q .loading) := .of_setSlot (.load w id q hslot) nofun
    have hfirst := asks_consult hconsult haccounts (h.steps (.single hopen)) q
    cases hload : (consult id deadline q >>= followUp limits consult id deadline q).run
        (w.setSlot id q .loading) with
    | mk outcome w' =>
      have hrun : (resolve limits consult id deadline q).run w =
          (outcome, w'.setSlot id q (outcome.toOption.elim .empty .filled)) := by
        rw [resolve_eq]
        exact run_remember_of_empty deadline _ hslot hload
      have hall : Asks limits id deadline (w.setSlot id q .loading)
          (consult id deadline q >>= followUp limits consult id deadline q) ([q] ++ rest) := by
        refine asks_bind hfirst fun answer w₁ hask => hfollow answer w₁ ?_ ?_
        · have hsettles := hfirst.settles
          rw [hask] at hsettles
          exact .head hopen hsettles.steps
        · intro q' answer' hne hfilled
          rw [← run_bind_of_ok hask, hload] at hfilled
          rw [hrun, slot_setSlot_ne _ fun _ => hne.symm]
          exact hfilled
      have hasked := hall.asked
      rw [hload] at hasked
      rw [hrun]
      exact hasked

theorem asks_rules (h : Underway limits id deadline w) :
    Asks limits id deadline w (resolve limits consult id deadline .rules) [.rules] :=
  asks_of_followUp hconsult haccounts h .rules fun rules _ _ _ => asks_pure rules []

/-- A group is asked about, and then the rules as far as they are. -/
theorem asks_group {questions : List Question} (h : Underway limits id deadline w) (name : String)
    (hrules : ∀ w₁, Steps limits w w₁ →
      Asks limits id deadline w₁ (resolve limits consult id deadline .rules) questions) :
    Asks limits id deadline w (resolve limits consult id deadline (.group name))
      (.group name :: questions) := by
  refine asks_of_followUp hconsult haccounts h (.group name) fun member w₁ hsteps _ => ?_
  cases member with
  | true => exact asks_pure true questions
  | false =>
    have hlast : ∀ (rules : GroupRules) (w₂ : World σ),
        Asks limits id deadline w₂ (pure (rules.hasGroup name)) [] :=
      fun rules _ => asks_pure (rules.hasGroup name) []
    have hbind := asks_bind (hrules w₁ hsteps) fun rules w₂ _ => hlast rules w₂
    rwa [List.append_nil] at hbind

end Rules

/-! ## Looking through the rules -/

section Walk

variable {p : ResourcePermission} {rules : GroupRules}

/-- If no group is refused, the first one that matches decides. -/
theorem run_grantedByRule_of (entries : List (String × List ResourcePermission))
    (h : ∀ rule ∈ entries,
      ((resolve limits consult id deadline (.group rule.1)).run w).1 ≠ .ok false) :
    (grantedByRule limits consult id deadline p entries).run w =
      match entries.find? (GroupRules.matchesRule p) with
      | none => (.ok false, w)
      | some rule => (resolve limits consult id deadline (.group rule.1)).run w := by
  induction entries with
  | nil => rfl
  | cons rule rest ih =>
    obtain ⟨name, granted⟩ := rule
    rw [List.forall_mem_cons] at h
    cases hcovers : granted.any (·.covers p) with
    | true =>
      have hfirst : GroupRules.matchesRule p (name, granted) = true := hcovers
      rw [grantedByRule, if_pos hcovers, run_bind, List.find?_cons, hfirst]
      dsimp only
      -- the rest of the rules is of no importance
      have hnever : ((inGroup limits consult id deadline name).run w).1 ≠ .ok false := h.1
      change _ = (inGroup limits consult id deadline name).run w
      cases hrun : (inGroup limits consult id deadline name).run w with
      | mk outcome w' =>
        rw [hrun] at hnever
        rcases outcome with e | (_ | _)
        · rfl
        · exact absurd rfl hnever
        · rfl
    | false =>
      have hfirst : GroupRules.matchesRule p (name, granted) = false := hcovers
      rw [grantedByRule, if_neg (Bool.eq_false_iff.1 hcovers), List.find?_cons, hfirst]
      exact ih h.2

variable (hconsult : Reliable limits consult) (hgrounded : w.Grounded)
  (hrules : w.slot id .rules = .filled rules)

include hconsult hgrounded hrules

/-- A group of remembered rules is never refused. -/
theorem group_not_refused {rule : String × List ResourcePermission} (hmem : rule ∈ rules.entries) :
    ((resolve limits consult id deadline (.group rule.1)).run w).1 ≠ .ok false := by
  intro hrefused
  obtain ⟨service, hs⟩ := exists_service_of_slot (by rw [hrules]; exact nofun)
  obtain ⟨hsettles, -, hpost⟩ := proceeds_resolve hconsult (.group rule.1) w service hs trivial
  -- the refusal is remembered, and so are the rules, which say the opposite
  obtain ⟨rules', hrules', hno⟩ :=
    ((hsettles.steps.grounded hgrounded).consistent id).group rule.1 (hpost false hrefused)
  rw [hsettles.steps.leads.slot_filled hrules] at hrules'
  cases hrules'
  rw [GroupRules.hasGroup_of_mem hmem] at hno
  cases hno

/-- When remembered rules are looked through, the first group that matches decides, and it does not
refuse. -/
theorem run_grantedByRule :
    (grantedByRule limits consult id deadline p rules.entries).run w =
      match rules.firstMatch p with
      | none => (.ok false, w)
      | some name => (resolve limits consult id deadline (.group name)).run w := by
  rw [run_grantedByRule_of rules.entries fun rule hmem =>
    group_not_refused hconsult hgrounded hrules hmem, GroupRules.firstMatch]
  cases rules.entries.find? (GroupRules.matchesRule p) with
  | none => rfl
  | some rule => rfl

theorem asks_grantedByRule (haccounts : Accounts backend limits consult)
    (h : Underway limits id deadline w) :
    Asks limits id deadline w (grantedByRule limits consult id deadline p rules.entries)
      (groupPlan (w.slot id .rules) p) := by
  have hrun : (grantedByRule limits consult id deadline p rules.entries).run w = _ :=
    run_grantedByRule hconsult hgrounded hrules
  rw [hrules, groupPlan]
  cases hfirst : rules.firstMatch p with
  | none =>
    rw [hfirst] at hrun
    exact (asks_pure false []).of_run_eq hrun
  | some name =>
    rw [hfirst] at hrun
    -- the rules are known already, and stay so while the group is asked about
    have hgroup : Asks limits id deadline w (resolve limits consult id deadline (.group name))
        [.group name] :=
      asks_group hconsult haccounts h name fun w₁ hsteps =>
        asks_of_filled (hsteps.leads.slot_filled hrules)
    exact hgroup.of_run_eq hrun

end Walk

/-! ## Keeping to the plan -/

section Plan

variable (hconsult : Reliable limits consult) (haccounts : Accounts backend limits consult)

include hconsult haccounts

theorem asks_resource (h : Underway limits id deadline w) (hgrounded : w.Grounded)
    (p : ResourcePermission) :
    Asks limits id deadline w (resolve limits consult id deadline (.resource p))
      (plan (((resolve limits consult id deadline (.resource p)).run w).2.slot id .rules)
        (.resource p)) := by
  refine asks_of_followUp hconsult haccounts h (.resource p) fun granted w₁ hsteps hkept => ?_
  cases granted with
  | true => exact asks_pure true _
  | false =>
    have h₁ := h.steps hsteps
    have hfirst := asks_rules hconsult haccounts h₁
    refine asks_bind hfirst fun rules w₂ hrun => ?_
    obtain ⟨service, hs⟩ := h₁.service
    obtain ⟨-, -, hpost⟩ := proceeds_rules hconsult w₁ service hs trivial
    have hsettles := hfirst.settles
    rw [hrun] at hpost hsettles
    have hwalk := asks_grantedByRule (p := p) hconsult
      (hsettles.steps.grounded (hsteps.grounded hgrounded)) (hpost rules rfl) haccounts
      (h₁.steps hsettles.steps)
    refine hwalk.mono (groupPlan_mono fun rules' hrules => hkept .rules rules' nofun ?_)
    rw [followUp, if_neg Bool.false_ne_true, run_bind_of_ok hrun]
    exact hwalk.settles.steps.leads.slot_filled hrules

theorem asks_action (h : Underway limits id deadline w) (hgrounded : w.Grounded) (name : String) :
    Asks limits id deadline w (resolve limits consult id deadline (.action name))
      (plan (((resolve limits consult id deadline (.action name)).run w).2.slot id .rules)
        (.action name)) := by
  refine asks_of_followUp hconsult haccounts h (.action name) fun granted w₁ hsteps hkept => ?_
  cases granted with
  | true => exact asks_pure true _
  | false =>
    have hresource := asks_resource hconsult haccounts (h.steps hsteps)
      (hsteps.grounded hgrounded) (.everywhere name)
    refine hresource.mono (List.Sublist.cons_cons _ (List.Sublist.cons_cons _ ?_))
    exact groupPlan_mono fun rules hrules => hkept .rules rules nofun hrules

/-- Every decision keeps to its plan. -/
theorem asks_resolve (h : Underway limits id deadline w) (hgrounded : w.Grounded) (q : Question) :
    Asks limits id deadline w (resolve limits consult id deadline q)
      (plan (((resolve limits consult id deadline q).run w).2.slot id .rules) q) := by
  cases q with
  | action name => exact asks_action hconsult haccounts h hgrounded name
  | group name =>
    exact asks_group hconsult haccounts h name fun w₁ hsteps =>
      asks_rules hconsult haccounts (h.steps hsteps)
  | resource p => exact asks_resource hconsult haccounts h hgrounded p
  | rules => exact asks_rules hconsult haccounts h
  | attributes =>
    exact asks_of_followUp hconsult haccounts h .attributes fun answer _ _ _ => asks_pure answer []
  | identity =>
    exact asks_of_followUp hconsult haccounts h .identity fun answer _ _ _ => asks_pure answer []

/-- Every decision of a service keeps to its plan. -/
theorem questionsOf_answerFrom (hgrounded : w.Grounded) (id : ServiceId) (q : Question) :
    List.Sublist
      (w.questionsOf ((answerFrom limits consult id q).run w).2 id (w.now + limits.timeout))
      (plan (((answerFrom limits consult id q).run w).2.slot id .rules) q) := by
  by_cases hmark : w.isInvalidated id = true
  · rw [run_answerFrom_of_invalidated hmark]
    exact questionsOf_sublist_of_eq rfl _
  · rw [Bool.not_eq_true] at hmark
    rw [world_answerFrom_of_current hmark]
    obtain ⟨service, hs, -⟩ := exists_service_of_current hmark
    have hunderway : Underway limits id (w.now + limits.timeout) (w.pass 1) :=
      ⟨⟨service, hs⟩, Nat.add_lt_add_right (Nat.lt_succ_self _) _⟩
    exact (asks_resolve hconsult haccounts hunderway
      ((settles_pass limits w 1).steps.grounded hgrounded) q).asked

end Plan

end Decision

/-! ## Backends that ask nothing themselves -/

/-- A backend that gives no commands. -/
def PermissionBackend.Quiet {σ : Type} (backend : PermissionBackend σ) : Prop :=
  ∀ l state, (backend.react l state).1.commands = []

namespace World

variable {σ : Type} {w w' w'' : World σ} {id : ServiceId} {deadline : Instant}

/-- Nothing was reported but lookups of one decision. -/
def OnlyReports (id : ServiceId) (deadline : Instant) (w w' : World σ) : Prop :=
  ∃ news, w'.lookups = news ++ w.lookups ∧ ∀ report ∈ news, report.isOf id deadline = true

theorem OnlyReports.newReports_eq (h : OnlyReports id deadline w w') :
    w.newReports w' = w.lookupsOf w' id deadline := by
  obtain ⟨news, hnews, hown⟩ := h
  rw [lookupsOf, newReports_of_eq news hnews, List.filter_eq_self.2 hown]

theorem OnlyReports.refl (w : World σ) : OnlyReports id deadline w w :=
  ⟨[], rfl, fun _ hmem => nomatch hmem⟩

theorem OnlyReports.report (h : OnlyReports id deadline w w') {report : LookupReport}
    (hreport : w''.lookups = report :: w'.lookups) (hown : report.isOf id deadline = true) :
    OnlyReports id deadline w w'' := by
  obtain ⟨news, hnews, hall⟩ := h
  exact ⟨report :: news, by rw [hreport, hnews]; rfl, List.forall_mem_cons.2 ⟨hown, hall⟩⟩

end World

namespace Decision

open World

variable {σ : Type} {limits : CacheLimits} {backend : PermissionBackend σ} {w : World σ}
  {id : ServiceId} {deadline : Instant}

/-- A quiet backend leaves one report of each lookup. -/
theorem lookups_lookUp_of_quiet (limits : CacheLimits) (hquiet : backend.Quiet)
    (obey : Command → StateM (World σ) Reply) (q : Question) (w : World σ) :
    ∃ report, ((lookUp limits backend obey id deadline q).run w).2.lookups = report :: w.lookups ∧
      report.isOf id deadline = true := by
  by_cases hlate : deadline < w.now
  · rw [run_lookUp_of_late _ _ hlate]
    exact ⟨_, rfl, by simp [LookupReport.isOf]⟩
  · obtain ⟨reaction, state, replies, w₁, conclusion, state', hreact, hcommands, -, hrun⟩ :=
      run_lookUp_of_open limits backend obey hlate
    have hnone := hquiet ⟨scopeOf w id, q, w.now, deadline⟩ w.backend
    rw [hreact] at hnone
    rw [hnone] at hcommands
    cases hcommands
    rw [hrun]
    exact ⟨_, rfl, by simp [LookupReport.isOf]⟩

/-- With a quiet backend, the lookups of a decision are all that is reported. -/
theorem newReports_of_quiet (hquiet : backend.Quiet) (depth : Nat) (id : ServiceId) (q : Question)
    (w : World σ) :
    w.newReports ((answerFrom limits (consultAt limits backend (depth + 1)) id q).run w).2 =
      w.lookupsOf ((answerFrom limits (consultAt limits backend (depth + 1)) id q).run w).2 id
        (w.now + limits.timeout) := by
  have hinvariant : InvariantAt (consultAt limits backend (depth + 1)) id (w.now + limits.timeout)
      (OnlyReports id (w.now + limits.timeout) w) := by
    refine ⟨fun _ _ _ h => h, fun w₁ q h => ?_, fun _ _ h => h⟩
    -- nothing is reported while the lookup is held up
    obtain ⟨report, hreport, hown⟩ := lookups_lookUp_of_quiet limits hquiet
      (perform limits (consultAt limits backend depth)) q
      (w₁.pass (backend.delay ⟨scopeOf w₁ id, q, w₁.now, w.now + limits.timeout⟩))
    exact h.report hreport hown
  exact (hinvariant.answerFrom (reliable_consultAt backend (depth + 1)) q
    (OnlyReports.refl w)).newReports_eq

end Decision

end Gatehouse
