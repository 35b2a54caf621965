import Gatehouse.Policy
import Gatehouse.Proofs.Access.Entitlements

/-!
# What grants and rules open

A permission can be given to a consumer directly, or to a group of the module by a rule. The same
permission opens less in the first way than in the second: a rule opens all that it covers, while a
direct grant is looked up by its three names, so that its wildcards stand for nothing but
themselves.

- `Opens`: what is open to a consumer. `opens_iff_mayAccess` says that decisions come to that.
- `opens_grantResource`, `opens_addRule`: what a direct grant opens, and what a rule opens.
- `opens_entitlements`: what the entries of a policy open.
- `grants_open_by_name`: what callers are told, and what it depends on.
- `wildcard_grant_opens_nothing_else`: a grant that covers a request which is denied.
-/

namespace Gatehouse

/-- A rule permits something to the members of a group. -/
def GroupRules.Permits (rules : GroupRules) (group : String) (p : ResourcePermission) : Prop :=
  ∃ granted, rules.get? group = some granted ∧ p ∈ granted

theorem GroupRules.grant_iff_permits {rules : GroupRules} {requested : ResourcePermission} :
    rules.grant requested = true ↔
      ∃ group p, rules.Permits group p ∧ p.covers requested = true := by
  rw [grant_eq_true_iff]
  constructor
  · rintro ⟨⟨group, granted⟩, hrule, hcovers⟩
    obtain ⟨p, hp, hcovers⟩ := List.any_eq_true.1 hcovers
    exact ⟨group, p, ⟨granted, Table.get?_eq_some_iff.2 hrule, hp⟩, hcovers⟩
  · rintro ⟨group, p, ⟨granted, hrule, hp⟩, hcovers⟩
    exact ⟨(group, granted), Table.get?_eq_some_iff.1 hrule, List.any_eq_true.2 ⟨p, hp, hcovers⟩⟩

namespace Entitlements

variable {e : Entitlements} {scope : Scope} {requested : ResourcePermission}

/-! ## What is open -/

/-- Everything is granted, or just this was granted to the consumer, or a rule of the module covers
it. -/
def Opens (e : Entitlements) (scope : Scope) (requested : ResourcePermission) : Prop :=
  e.allowAll = true ∨ requested ∈ (e.grantsOf scope).resources ∨
    ∃ group p, (e.rulesOf scope.module).Permits group p ∧ p.covers requested = true

theorem opens_iff_mayAccess :
    e.Opens scope requested ↔ Reference.mayAccess (e.answer scope) requested = true := by
  show _ ↔ (e.allowAll || (e.grantsOf scope).resources.contains requested ||
    (e.rulesOf scope.module).grant requested) = true
  rw [Bool.or_eq_true, Bool.or_eq_true, List.contains_iff_mem, GroupRules.grant_iff_permits,
    or_assoc]
  rfl

/-! ## Grants -/

theorem grantsOf_modifyGrants (e : Entitlements) (scope : Scope) (change : Grants → Grants)
    (scope' : Scope) :
    (e.modifyGrants scope change).grantsOf scope' =
      if scope = scope' then change (e.grantsOf scope) else e.grantsOf scope' := by
  unfold modifyGrants grantsOf
  rw [Table.get?_put]
  split <;> rfl

/-- Several changes of the grants of one scope are one change of these grants. -/
theorem grantsOf_foldl {α : Type} (scope : Scope) (change : α → Grants → Grants) (l : List α)
    (e : Entitlements) (scope' : Scope) :
    (l.foldl (fun e a => e.modifyGrants scope (change a)) e).grantsOf scope' =
      if scope = scope' then l.foldl (fun g a => change a g) (e.grantsOf scope)
      else e.grantsOf scope' := by
  induction l generalizing e with
  | nil =>
    show e.grantsOf scope' = if scope = scope' then e.grantsOf scope else e.grantsOf scope'
    split
    · next h => rw [h]
    · rfl
  | cons a l ih =>
    rw [List.foldl_cons, ih, List.foldl_cons, grantsOf_modifyGrants, grantsOf_modifyGrants,
      if_pos rfl]
    split <;> rfl

/-- A direct grant opens what has the same three names, and nothing else. -/
theorem opens_grantResource (e : Entitlements) (scope : Scope) (p : ResourcePermission) :
    (e.grantResource scope p).Opens scope requested ↔ requested = p ∨ e.Opens scope requested := by
  have hgrants : ((e.grantResource scope p).grantsOf scope).resources =
      (e.grantsOf scope).resources ++ [p] := by
    rw [grantResource, grantsOf_modifyGrants, if_pos rfl]
  unfold Opens
  rw [hgrants, List.mem_append, List.mem_singleton]
  show e.allowAll = true ∨ (_ ∨ requested = p) ∨ _ ↔ _
  tauto

/-! ## Rules -/

theorem mem_addOnce {p q : ResourcePermission} {granted : List ResourcePermission} :
    q ∈ addOnce p granted ↔ q ∈ granted ∨ q = p := by
  unfold addOnce
  split
  · next h =>
    have hp : p ∈ granted := List.contains_iff_mem.1 h
    constructor
    · exact .inl
    · rintro (hq | rfl)
      · exact hq
      · exact hp
  · rw [List.mem_append, List.mem_singleton]

theorem rulesOf_addRule (e : Entitlements) (m : ModuleName) (group : String)
    (p : ResourcePermission) (m' : ModuleName) :
    (e.addRule m group p).rulesOf m' =
      if m = m' then
        (e.rulesOf m).put group (addOnce p (((e.rulesOf m).get? group).getD []))
      else e.rulesOf m' := by
  show ((e.rules.put m _).get? m').getD .empty = _
  rw [Table.get?_put]
  split <;> rfl

/-- A rule permits one thing more to one group of one module. -/
theorem permits_addRule {m m' : ModuleName} {group group' : String} {p q : ResourcePermission} :
    ((e.addRule m group p).rulesOf m').Permits group' q ↔
      (e.rulesOf m').Permits group' q ∨ m = m' ∧ group = group' ∧ q = p := by
  rw [rulesOf_addRule]
  by_cases hm : m = m'
  · subst hm
    unfold GroupRules.Permits
    rw [if_pos rfl, Table.get?_put]
    by_cases hgroup : group = group'
    · subst hgroup
      simp only [if_true, Option.some.injEq, exists_eq_left', mem_addOnce, true_and]
      cases (e.rulesOf m).get? group with
      | none => simp
      | some granted => simp
    · simp [hgroup]
  · simp [hm]

/-- A rule opens all that it covers. -/
theorem opens_addRule (e : Entitlements) (scope : Scope) (group : String) (p : ResourcePermission) :
    (e.addRule scope.module group p).Opens scope requested ↔
      p.covers requested = true ∨ e.Opens scope requested := by
  constructor
  · rintro (hall | hdirect | ⟨group', q, hpermits, hcovers⟩)
    · exact .inr (.inl hall)
    · exact .inr (.inr (.inl hdirect))
    · rcases permits_addRule.1 hpermits with hold | ⟨-, -, rfl⟩
      · exact .inr (.inr (.inr ⟨group', q, hold, hcovers⟩))
      · exact .inl hcovers
  · rintro (hcovers | hall | hdirect | ⟨group', q, hold, hcovers⟩)
    · exact .inr (.inr ⟨group, p, permits_addRule.2 (.inr ⟨rfl, rfl, rfl⟩), hcovers⟩)
    · exact .inl hall
    · exact .inr (.inl hdirect)
    · exact .inr (.inr ⟨group', q, permits_addRule.2 (.inl hold), hcovers⟩)

end Entitlements

/-! ## Policies -/

/-- The scope that an entry of a policy speaks about. -/
def GrantEntry.scope (g : GrantEntry) : Scope :=
  ⟨⟨g.module⟩, ⟨g.consumer⟩⟩

/-- Grants with those of an entry added. -/
def Grants.withEntry (old : Grants) (g : GrantEntry) : Grants where
  actions := old.actions ++ g.actions
  groups := old.groups ++ g.groups
  resources := old.resources ++ g.resources
  attributes := g.attributes.foldl (fun all (name, value) => Json.putMember name value all)
    old.attributes

/-- If one field is changed again and again, only that field has changed in the end. -/
theorem Grants.foldl_field {α β : Type} (get : Grants → β) (set : β → Grants → Grants)
    (hget : ∀ b g, get (set b g) = b) (hset : ∀ b b' g, set b' (set b g) = set b' g)
    (hself : ∀ g, set (get g) g = g) (step : β → α → β) (l : List α) (g : Grants) :
    l.foldl (fun g a => set (step (get g) a) g) g = set (l.foldl step (get g)) g := by
  induction l generalizing g with
  | nil => exact (hself g).symm
  | cons a l ih => rw [List.foldl_cons, ih, hget, hset, List.foldl_cons]

namespace Policy

variable {scope : Scope} {requested : ResourcePermission}

theorem eq_of_ofString_eq_ok {name : String} {m : ModuleName}
    (h : ModuleName.ofString name = .ok m) : m = ⟨name⟩ := by
  unfold ModuleName.ofString at h
  split at h
  · exact (Except.ok.inj h).symm
  · cases h

/-! ### Grants -/

/-- The entitlements with what an entry grants. -/
def withGrant (e : Entitlements) (g : GrantEntry) : Entitlements :=
  let e := g.actions.foldl (fun e action => e.grantAction g.scope action) e
  let e := g.groups.foldl (fun e group => e.grantGroup g.scope group) e
  let e := g.resources.foldl (fun e p => e.grantResource g.scope p) e
  g.attributes.foldl (fun e (name, value) => e.setAttribute g.scope name value) e

theorem eq_withGrant_of_addGrant (e : Entitlements) (g : GrantEntry) {e' : Entitlements}
    (h : addGrant e g = .ok e') : e' = withGrant e g := by
  obtain ⟨m, hm, h⟩ := ok_of_bind h
  obtain rfl := eq_of_ofString_eq_ok hm
  exact (Except.ok.inj h).symm

/-- What one entry grants is added to the grants of its scope. -/
theorem grantsOf_withGrant (e : Entitlements) (g : GrantEntry) (scope : Scope) :
    (withGrant e g).grantsOf scope =
      if g.scope = scope then (e.grantsOf g.scope).withEntry g else e.grantsOf scope := by
  unfold withGrant Entitlements.grantAction Entitlements.grantGroup Entitlements.grantResource
    Entitlements.setAttribute
  simp only [Entitlements.grantsOf_foldl, if_true]
  split
  · -- each of the four lists changes a field of its own
    rw [Grants.foldl_field Grants.actions (fun actions g => { g with actions })
        (fun _ _ => rfl) (fun _ _ _ => rfl) (fun _ => rfl) (fun old a => old ++ [a]),
      Grants.foldl_field Grants.groups (fun groups g => { g with groups })
        (fun _ _ => rfl) (fun _ _ _ => rfl) (fun _ => rfl) (fun old a => old ++ [a]),
      Grants.foldl_field Grants.resources (fun resources g => { g with resources })
        (fun _ _ => rfl) (fun _ _ _ => rfl) (fun _ => rfl) (fun old a => old ++ [a]),
      Grants.foldl_field Grants.attributes (fun attributes g => { g with attributes })
        (fun _ _ => rfl) (fun _ _ _ => rfl) (fun _ => rfl)
        (fun old (member : String × Json.Value) => Json.putMember member.1 member.2 old)]
    simp only [List.foldl_append_eq_append, ← List.flatMap_def, List.flatMap_singleton']
    rfl
  · rfl

/-- What no grant changes, no entry changes either. -/
theorem foldl_withGrant_keeps {β : Type} (f : Entitlements → β)
    (hf : ∀ e scope change, f (e.modifyGrants scope change) = f e) (grants : List GrantEntry)
    (e : Entitlements) : f (grants.foldl withGrant e) = f e := by
  refine foldl_keeps f (fun e g => ?_) grants e
  have hlist {α : Type} (change : α → Grants → Grants) (l : List α) (e : Entitlements) :
      f (l.foldl (fun e a => e.modifyGrants g.scope (change a)) e) = f e :=
    foldl_keeps f (fun e a => hf e g.scope (change a)) l e
  exact (hlist _ _ _).trans ((hlist _ _ _).trans ((hlist _ _ _).trans (hlist _ _ _)))

/-- What is granted directly is what some entry for the scope grants, in each list of grants. -/
theorem mem_granted_foldl {α : Type} (field : Grants → List α) (given : GrantEntry → List α)
    (hfield : ∀ old g, field (Grants.withEntry old g) = field old ++ given g) {a : α}
    {grants : List GrantEntry} {e : Entitlements} :
    a ∈ field ((grants.foldl withGrant e).grantsOf scope) ↔
      a ∈ field (e.grantsOf scope) ∨ ∃ g ∈ grants, g.scope = scope ∧ a ∈ given g := by
  induction grants generalizing e with
  | nil => simp
  | cons g grants ih =>
    rw [List.foldl_cons, ih, grantsOf_withGrant, List.exists_mem_cons_iff, ← or_assoc]
    refine or_congr_left ?_
    by_cases hg : g.scope = scope
    · subst hg
      simp [hfield]
    · simp [hg]

/-! ### Rules -/

/-- The entitlements with what an entry permits. -/
def withRule (e : Entitlements) (r : RuleEntry) : Entitlements :=
  r.permissions.foldl (fun e p => e.addRule ⟨r.module⟩ r.group p) e

theorem eq_withRule_of_addRule (e : Entitlements) (r : RuleEntry) {e' : Entitlements}
    (h : addRule e r = .ok e') : e' = withRule e r := by
  obtain ⟨m, hm, h⟩ := ok_of_bind h
  obtain rfl := eq_of_ofString_eq_ok hm
  exact (Except.ok.inj h).symm

/-- What no rule changes, no entry changes either. -/
theorem foldl_withRule_keeps {β : Type} (f : Entitlements → β)
    (hf : ∀ e m group p, f (e.addRule m group p) = f e) (rules : List RuleEntry)
    (e : Entitlements) : f (rules.foldl withRule e) = f e := by
  refine foldl_keeps f (fun e r => ?_) rules e
  exact foldl_keeps f (fun e p => hf e ⟨r.module⟩ r.group p) r.permissions e

variable {m : ModuleName} {group : String} {p : ResourcePermission}

theorem permits_withRule {r : RuleEntry} {e : Entitlements} :
    ((withRule e r).rulesOf m).Permits group p ↔
      (e.rulesOf m).Permits group p ∨ ⟨r.module⟩ = m ∧ r.group = group ∧ p ∈ r.permissions := by
  unfold withRule
  induction r.permissions generalizing e with
  | nil => simp
  | cons q permissions ih =>
    rw [List.foldl_cons, ih, Entitlements.permits_addRule, List.mem_cons]
    tauto

/-- What the members of a group are permitted is what some entry for the group permits. -/
theorem permits_foldl {rules : List RuleEntry} {e : Entitlements} :
    ((rules.foldl withRule e).rulesOf m).Permits group p ↔
      (e.rulesOf m).Permits group p ∨
        ∃ r ∈ rules, ⟨r.module⟩ = m ∧ r.group = group ∧ p ∈ r.permissions := by
  induction rules generalizing e with
  | nil => simp
  | cons r rules ih =>
    rw [List.foldl_cons, ih, permits_withRule, List.exists_mem_cons_iff, or_assoc]

/-! ### All entries -/

/-- What a policy opens to a consumer within a module. -/
def Opens (policy : Policy) (scope : Scope) (requested : ResourcePermission) : Prop :=
  policy.allowAll = true ∨
    (∃ g ∈ policy.grants, g.scope = scope ∧ requested ∈ g.resources) ∨
      ∃ r ∈ policy.rules, ⟨r.module⟩ = scope.module ∧ ∃ p ∈ r.permissions, p.covers requested = true

instance (policy : Policy) (scope : Scope) (requested : ResourcePermission) :
    Decidable (policy.Opens scope requested) :=
  inferInstanceAs (Decidable (_ ∨ _ ∨ _))

/-- What no identity changes, no account changes either. -/
theorem foldl_addIdentity_keeps {β : Type} (f : Entitlements → β)
    (hf : ∀ e consumer identity, f (e.setIdentity consumer identity) = f e)
    (accounts : List AccountEntry) (e : Entitlements) : f (accounts.foldl addIdentity e) = f e := by
  refine foldl_keeps f (fun e a => ?_) accounts e
  unfold addIdentity
  split
  · exact hf e _ _
  · rfl

/-- The entitlements of a policy whose module names are all valid. -/
def collected (policy : Policy) : Entitlements :=
  policy.accounts.foldl addIdentity
    (policy.rules.foldl withRule (policy.grants.foldl withGrant (.start policy.allowAll)))

theorem eq_of_entitlements_eq_ok {policy : Policy} {e : Entitlements}
    (h : policy.entitlements = .ok e) : e = policy.collected := by
  obtain ⟨e₁, hgrants, h⟩ := ok_of_bind h
  obtain ⟨e₂, hrules, h⟩ := ok_of_bind h
  obtain rfl := eq_foldl_of_foldlM eq_withGrant_of_addGrant hgrants
  obtain rfl := eq_foldl_of_foldlM eq_withRule_of_addRule hrules
  exact (Except.ok.inj h).symm

theorem allowAll_collected (policy : Policy) : policy.collected.allowAll = policy.allowAll :=
  (foldl_addIdentity_keeps Entitlements.allowAll (fun _ _ _ => rfl) _ _).trans <|
    (foldl_withRule_keeps Entitlements.allowAll (fun _ _ _ _ => rfl) _ _).trans <|
      foldl_withGrant_keeps Entitlements.allowAll (fun _ _ _ => rfl) _ _

theorem mem_granted_collected {α : Type} (field : Grants → List α) (given : GrantEntry → List α)
    (hfield : ∀ old g, field (Grants.withEntry old g) = field old ++ given g)
    (hnone : field .none = []) {policy : Policy} {a : α} :
    a ∈ field (policy.collected.grantsOf scope) ↔
      ∃ g ∈ policy.grants, g.scope = scope ∧ a ∈ given g := by
  have hafter : policy.collected.grantsOf scope =
      (policy.grants.foldl withGrant (.start policy.allowAll)).grantsOf scope :=
    (foldl_addIdentity_keeps (Entitlements.grantsOf · scope) (fun _ _ _ => rfl) _ _).trans
      (foldl_withRule_keeps (Entitlements.grantsOf · scope) (fun _ _ _ _ => rfl) _ _)
  have hbefore : field ((Entitlements.start policy.allowAll).grantsOf scope) = [] := hnone
  rw [hafter, mem_granted_foldl field given hfield, hbefore]
  exact or_iff_right List.not_mem_nil

theorem mem_resources_collected {policy : Policy} :
    requested ∈ (policy.collected.grantsOf scope).resources ↔
      ∃ g ∈ policy.grants, g.scope = scope ∧ requested ∈ g.resources :=
  mem_granted_collected Grants.resources GrantEntry.resources (fun _ _ => rfl) rfl

theorem rulesOf_collected (policy : Policy) (m : ModuleName) :
    policy.collected.rulesOf m = (policy.rules.foldl withRule
      (policy.grants.foldl withGrant (.start policy.allowAll))).rulesOf m :=
  foldl_addIdentity_keeps (Entitlements.rulesOf · m) (fun _ _ _ => rfl) _ _

theorem rulesOf_foldl_withGrant (grants : List GrantEntry) (allowAll : Bool) (m : ModuleName) :
    (grants.foldl withGrant (.start allowAll)).rulesOf m = .empty :=
  foldl_withGrant_keeps (Entitlements.rulesOf · m) (fun _ _ _ => rfl) _ _

theorem permits_collected {policy : Policy} :
    (policy.collected.rulesOf m).Permits group p ↔
      ∃ r ∈ policy.rules, ⟨r.module⟩ = m ∧ r.group = group ∧ p ∈ r.permissions := by
  rw [rulesOf_collected, permits_foldl, rulesOf_foldl_withGrant]
  refine or_iff_right ?_
  rintro ⟨_, hnone, -⟩
  cases hnone

/-- The entries of a policy open what they say: grants open by name, and rules what they cover. -/
theorem opens_entitlements {policy : Policy} {e : Entitlements}
    (h : policy.entitlements = .ok e) : e.Opens scope requested ↔ policy.Opens scope requested := by
  obtain rfl := eq_of_entitlements_eq_ok h
  unfold Entitlements.Opens Opens
  rw [allowAll_collected, mem_resources_collected]
  simp only [permits_collected]
  constructor
  · rintro (hall | hgrant | ⟨group, p, ⟨r, hr, hm, -, hp⟩, hcovers⟩)
    · exact .inl hall
    · exact .inr (.inl hgrant)
    · exact .inr (.inr ⟨r, hr, hm, p, hp, hcovers⟩)
  · rintro (hall | hgrant | ⟨r, hr, hm, p, hp, hcovers⟩)
    · exact .inl hall
    · exact .inr (.inl hgrant)
    · exact .inr (.inr ⟨r.group, p, ⟨r, hr, hm, rfl, hp⟩, hcovers⟩)

end Policy

/-! ## What callers are told -/

/-- A reply that tells whether something is the case. -/
def Reply.Tells (reply : Reply) (found : Bool → Finding) (P : Prop) : Prop :=
  ∃ b, reply = .finding (.ok (found b)) ∧ (b = true ↔ P)

theorem Reply.Tells.congr {reply : Reply} {found : Bool → Finding} {P Q : Prop}
    (h : reply.Tells found P) (hiff : P ↔ Q) : reply.Tells found Q := by
  obtain ⟨b, hreply, hb⟩ := h
  exact ⟨b, hreply, hb.trans hiff⟩

namespace Entitlements

/-- What a caller is told about a resource, whatever was asked and done before, is what is open to
the consumer. A direct grant adds what has its three names to that, and a rule adds what it covers.
The entries of a policy come to the same. -/
theorem grants_open_by_name {limits : CacheLimits} (htime : 0 < limits.timeout) (depth : Nat)
    (e : Entitlements) (now : Instant) (commands : List Command) (scope : Scope)
    (resourceClass resourceId action : String) :
    let cache : DecisionCache Entitlements := ⟨limits, backend, depth⟩
    let told := fun inquiry =>
      ((cache.perform (.ask scope inquiry)).run (cache.after commands (.initial e now))).1
    let requested := ResourcePermission.of resourceClass resourceId action
    let anyAction := ResourcePermission.of resourceClass resourceId ResourcePermission.wildcard
    (told (.resource resourceClass resourceId action)).Tells .truth (e.Opens scope requested) ∧
    (told (.check (.resource ⟨resourceClass, resourceId, action⟩))).Tells
      (fun b => .decision (.ofBool b)) (e.Opens scope requested) ∧
    (told (.resourceAnyAction resourceClass resourceId)).Tells .truth (e.Opens scope anyAction) ∧
    (∀ g, (e.grantResource scope g).Opens scope requested ↔
      requested = g ∨ e.Opens scope requested) ∧
    (∀ group g, (e.addRule scope.module group g).Opens scope requested ↔
      g.covers requested = true ∨ e.Opens scope requested) ∧
    (∀ policy : Policy, policy.entitlements = .ok e →
      (e.Opens scope requested ↔ policy.Opens scope requested)) := by
  intro cache told requested anyAction
  have htold := answer_ask htime depth e now commands scope
  refine ⟨?resource, ?check, ?anyAction, opens_grantResource e scope, opens_addRule e scope,
    fun _ => Policy.opens_entitlements⟩
  case resource => exact ⟨_, htold _, opens_iff_mayAccess.symm⟩
  case check => exact ⟨_, htold _, opens_iff_mayAccess.symm⟩
  case anyAction => exact ⟨_, htold _, opens_iff_mayAccess.symm⟩

/-! ## The same permissions as grants and as rules -/

namespace Sample

/-- To view all reports, and to edit one map. -/
def permissions : List ResourcePermission :=
  [.of "report" "" "view", .of "map" "7" "edit"]

/-- The wiki grants them to someone directly, and the atlas to a group. -/
def policy : Policy :=
  { Policy.empty with
    grants := [⟨"wiki", "someone", [], [], permissions, []⟩]
    rules := [⟨"atlas", "readers", permissions⟩] }

/-- What the policy says. -/
def entitlements : Entitlements :=
  let scope : Scope := ⟨⟨"wiki"⟩, ⟨"someone"⟩⟩
  (((Entitlements.start false).grantResource scope (.of "report" "" "view")).grantResource scope
    (.of "map" "7" "edit")).addRule ⟨"atlas"⟩ "readers" (.of "report" "" "view")
    |>.addRule ⟨"atlas"⟩ "readers" (.of "map" "7" "edit")

/-- What someone who asks is told. -/
def told (m : String) (inquiry : Inquiry) : Reply :=
  let cache : DecisionCache Entitlements := ⟨.standard, backend, 0⟩
  ((cache.perform (.ask ⟨⟨m⟩, ⟨"someone"⟩⟩ inquiry)).run (.initial entitlements 0)).1

end Sample

open Sample in
/-- The report is closed to someone whose grant is for all reports, but what was granted is open by
its own name. Where a rule says the same, the report is open. -/
theorem grants_open_by_name_sample :
    policy.entitlements = .ok entitlements ∧
    (told "wiki" (.resource "report" "7" "view")).Tells .truth False ∧
    (told "wiki" (.resource "report" " " "view")).Tells .truth True ∧
    (told "atlas" (.resource "report" "7" "view")).Tells .truth True := by
  have hpolicy : policy.entitlements = .ok entitlements := rfl
  have htime : 0 < CacheLimits.standard.timeout := by decide
  have htold (m id : String) : (told m (.resource "report" id "view")).Tells .truth
      (policy.Opens ⟨⟨m⟩, ⟨"someone"⟩⟩ (.of "report" id "view")) := by
    obtain ⟨htold, -, -, -, -, hentries⟩ := grants_open_by_name htime 0 entitlements 0 []
      ⟨⟨m⟩, ⟨"someone"⟩⟩ "report" id "view"
    exact htold.congr (hentries policy hpolicy)
  exact ⟨hpolicy, (htold _ _).congr (iff_of_false (by decide +kernel) id),
    (htold _ _).congr (iff_of_true (by decide +kernel) trivial),
    (htold _ _).congr (iff_of_true (by decide +kernel) trivial)⟩

open Sample in
/-- The law that a direct grant opens what it covers fails. Someone was granted to view all reports,
and may not view the seventh; they were granted to edit a map, and are told that there is nothing
they may do to it. Where rules say the same, they may do both. -/
theorem wildcard_grant_opens_nothing_else :
    (∀ p ∈ permissions, p ∈ (entitlements.grantsOf ⟨⟨"wiki"⟩, ⟨"someone"⟩⟩).resources) ∧
    permissions.any (·.covers (.of "report" "7" "view")) = true ∧
    permissions.any (·.covers (.of "map" "7" ResourcePermission.wildcard)) = true ∧
    (told "wiki" (.resource "report" "7" "view") = .finding (.ok (.truth false)) ∧
      told "wiki" (.resourceAnyAction "map" "7") = .finding (.ok (.truth false))) ∧
    (told "atlas" (.resource "report" "7" "view") = .finding (.ok (.truth true)) ∧
      told "atlas" (.resourceAnyAction "map" "7") = .finding (.ok (.truth true))) := by
  have htime : 0 < CacheLimits.standard.timeout := by decide
  have htold (m : String) := answer_ask htime 0 entitlements 0 [] ⟨⟨m⟩, ⟨"someone"⟩⟩
  exact ⟨by decide +kernel, by decide +kernel, by decide +kernel,
    ⟨(htold _ _).trans rfl, (htold _ _).trans rfl⟩, ⟨(htold _ _).trans rfl, (htold _ _).trans rfl⟩⟩

end Entitlements

end Gatehouse
