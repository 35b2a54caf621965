import Gatehouse.Proofs.Access.World

/-!
# Why a service remembers an answer

A service remembers nothing without a reason. Either the backend has told it so, or the backend
has refused, and the answer follows from others that the service remembers: for an action, that
it is allowed on every resource; for a resource and for a group, the rules of the module.

- `World.Heard`: a service was told an answer, in time.
- `World.Grounds`: the reason for an answer, in terms of what was heard and what is remembered.
- `World.Step`: a change that comes with its reason. Filling a slot needs grounds, and a report is
  about a service that exists, and is made when the lookup ends. No other change fills a slot or
  reports anything.
- `World.Grounded` and `Steps.grounded`: so everything that is ever remembered has grounds. The
  rules are remembered once and for all, hence no group of theirs is ever denied
  (`Grounded.resource`), and no decision depends on the order in which groups are looked at.
- `World.Recorded` and `Steps.recorded`: every report is about a service that existed by then.
-/

namespace Gatehouse

/-! ## What rules say -/

namespace GroupRules

theorem hasGroup_of_mem {rules : GroupRules} {rule : String × List ResourcePermission}
    (h : rule ∈ rules.entries) : rules.hasGroup rule.1 = true := by
  rw [hasGroup, Table.get?_eq_some_iff.2 h, Option.isSome_some]

theorem grant_eq_true_iff {rules : GroupRules} {p : ResourcePermission} :
    rules.grant p = true ↔ ∃ rule ∈ rules.entries, rule.2.any (·.covers p) = true := by
  rw [grant, List.any_eq_true]

end GroupRules

namespace World

variable {σ : Type} {limits : CacheLimits} {w w' : World σ} {id : ServiceId}

/-! ## Grounds -/

/-- The backend has told a service an answer, in time. -/
def Heard (w : World σ) (id : ServiceId) (q : Question) (answer : q.Answer) : Prop :=
  ∃ scope now deadline ended, ended ≤ deadline ∧
    (⟨id, ⟨scope, q, now, deadline⟩, ended, some (.ok answer)⟩ : LookupReport) ∈ w.lookups

/-- What a service found when it looked through rules: some group is known whose rule covers the
permission, or every such group is known to be denied. -/
def DecidedByRules (w : World σ) (id : ServiceId) (p : ResourcePermission)
    (rules : List (String × List ResourcePermission)) : Bool → Prop
  | true => ∃ rule ∈ rules, rule.2.any (·.covers p) = true ∧
    w.slot id (.group rule.1) = .filled true
  | false => ∀ rule ∈ rules, rule.2.any (·.covers p) = true →
    w.slot id (.group rule.1) = .filled false

/-- The reason for which a service may remember an answer. -/
def Grounds (w : World σ) (id : ServiceId) : (q : Question) → q.Answer → Prop
  | .action name, allowed =>
    w.Heard id (.action name) true ∧ allowed = true ∨
    w.Heard id (.action name) false ∧ w.slot id (.resource (.everywhere name)) = .filled allowed
  | .group name, member =>
    w.Heard id (.group name) true ∧ member = true ∨
    w.Heard id (.group name) false ∧
      ∃ rules, w.slot id .rules = .filled rules ∧ member = rules.hasGroup name
  | .resource p, allowed =>
    w.Heard id (.resource p) true ∧ allowed = true ∨
    w.Heard id (.resource p) false ∧
      ∃ rules, w.slot id .rules = .filled rules ∧ w.DecidedByRules id p rules.entries allowed
  | .rules, rules => w.Heard id .rules rules
  | .attributes, attributes => w.Heard id .attributes attributes
  | .identity, identity => w.Heard id .identity identity

/-- What is heard and remembered is the only thing that grounds depend on. -/
theorem Grounds.mono (hslot : ∀ q answer, w.slot id q = .filled answer →
      w'.slot id q = .filled answer)
    (hheard : ∀ q answer, w.Heard id q answer → w'.Heard id q answer)
    {q : Question} {answer : q.Answer} (h : w.Grounds id q answer) : w'.Grounds id q answer := by
  cases q with
  | action name => exact h.imp (.imp_left (hheard _ _)) (.imp (hheard _ _) (hslot _ _))
  | group name =>
    refine h.imp (.imp_left (hheard _ _)) (.imp (hheard _ _) ?_)
    rintro ⟨rules, hrules, hmember⟩
    exact ⟨rules, hslot _ _ hrules, hmember⟩
  | resource p =>
    refine h.imp (.imp_left (hheard _ _)) (.imp (hheard _ _) ?_)
    rintro ⟨rules, hrules, hdecided⟩
    refine ⟨rules, hslot _ _ hrules, ?_⟩
    cases answer with
    | true =>
      obtain ⟨rule, hmem, hcovers, hgroup⟩ := hdecided
      exact ⟨rule, hmem, hcovers, hslot _ _ hgroup⟩
    | false => exact fun rule hmem hcovers => hslot _ _ (hdecided rule hmem hcovers)
  | rules => exact hheard _ _ h
  | attributes => exact hheard _ _ h
  | identity => exact hheard _ _ h

/-! ## Steps -/

/-- A change with its reason. -/
inductive Step (limits : CacheLimits) : World σ → World σ → Prop where
  /-- A change that neither fills a slot nor reports anything needs no reason. -/
  | plain {w w' : World σ} (h : Change limits w w')
    (filled : ∀ id q answer, w'.slot id q = .filled answer → w.slot id q = .filled answer)
    (lookups : w'.lookups = w.lookups) : Step limits w w'
  | fill (w : World σ) (id : ServiceId) (q : Question) (answer : q.Answer)
    (h : w.slot id q = .loading) (grounds : w.Grounds id q answer) :
    Step limits w (w.setSlot id q (.filled answer))
  | report (w : World σ) (report : LookupReport) (service : Service)
    (hs : w.service? report.service = some service) (scope : service.scope = report.lookup.scope)
    (started : report.lookup.now ≤ w.now) (ended : report.ended = w.now) :
    Step limits w (w.report report)

/-- A world is reached from another one by any number of steps. -/
abbrev Steps (limits : CacheLimits) : World σ → World σ → Prop :=
  Relation.ReflTransGen (Step limits)

theorem Step.change (h : Step limits w w') : Change limits w w' := by
  cases h with
  | plain h _ _ => exact h
  | fill id q answer h _ => exact .fill w id q answer h
  | report report _ _ _ _ _ => exact .report w report

theorem Steps.leads (h : Steps limits w w') : Leads limits w w' :=
  Relation.ReflTransGen.mono (fun _ _ => Step.change) _ _ h

/-- The clock never goes back. -/
theorem Change.now_le (h : Change limits w w') : w.now ≤ w'.now := by
  cases h with
  | fetch scope => exact Nat.le_of_eq (by rw [fetch_eq])
  | invalidate m => exact Nat.le_of_eq (by rw [invalidate_eq])
  | pass nanos => exact Nat.le_add_right _ _
  | _ => exact Nat.le_refl _

theorem Leads.now_le (h : Leads limits w w') : w.now ≤ w'.now := by
  induction h with
  | refl => exact Nat.le_refl _
  | tail _ hstep ih => exact Nat.le_trans ih hstep.now_le

/-- What was reported stays reported. -/
theorem Step.lookups_suffix (h : Step limits w w') : w.lookups <:+ w'.lookups := by
  cases h with
  | plain _ _ hlookups => exact hlookups ▸ List.suffix_rfl
  | fill id q answer _ _ => exact List.suffix_rfl
  | report report _ _ _ _ _ => exact List.suffix_cons report w.lookups

theorem Steps.lookups_suffix (h : Steps limits w w') : w.lookups <:+ w'.lookups := by
  induction h with
  | refl => exact List.suffix_rfl
  | tail _ hstep ih => exact ih.trans hstep.lookups_suffix

/-- What was heard once was heard for good. -/
theorem Steps.heard (h : Steps limits w w') {q : Question} {answer : q.Answer}
    (hheard : w.Heard id q answer) : w'.Heard id q answer := by
  obtain ⟨scope, now, deadline, ended, hintime, hmem⟩ := hheard
  exact ⟨scope, now, deadline, ended, hintime, h.lookups_suffix.subset hmem⟩

/-- A reason stays a reason. -/
theorem Steps.grounds (h : Steps limits w w') {q : Question} {answer : q.Answer}
    (hgrounds : w.Grounds id q answer) : w'.Grounds id q answer :=
  hgrounds.mono (fun _ _ hfilled => h.leads.slot_filled hfilled) fun _ _ hheard => h.heard hheard

/-! ## Everything that is remembered has grounds -/

/-- Every answer that some service remembers has grounds. -/
def Grounded (w : World σ) : Prop :=
  ∀ id q answer, w.slot id q = .filled answer → w.Grounds id q answer

theorem grounded_initial (backend : σ) (now : Instant) : (initial backend now).Grounded :=
  fun _ _ _ h => nomatch h

/-- An answer that is remembered after a step was remembered before, or its slot was filled. -/
theorem Step.filled_cases (h : Step limits w w') {q : Question} {answer : q.Answer}
    (hfilled : w'.slot id q = .filled answer) :
    w.slot id q = .filled answer ∨ w.Grounds id q answer := by
  cases h with
  | plain _ hold _ => exact .inl (hold _ _ _ hfilled)
  | report _ _ _ _ _ _ => exact .inl hfilled
  | fill id' q' answer' hloading hgrounds =>
    by_cases hsame : id' = id ∧ q' = q
    · obtain ⟨rfl, rfl⟩ := hsame
      obtain ⟨service, hs⟩ := exists_service_of_slot (by rw [hloading]; exact nofun)
      rw [slot_setSlot_self hs] at hfilled
      cases hfilled
      exact .inr hgrounds
    · rw [slot_setSlot_ne _ fun hid hq => hsame ⟨hid, hq⟩] at hfilled
      exact .inl hfilled

theorem Step.grounded (h : Step limits w w') (hw : w.Grounded) : w'.Grounded := by
  intro id q answer hfilled
  have hbefore : w.Grounds id q answer := (h.filled_cases hfilled).elim (hw id q answer) fun h => h
  exact Steps.grounds (.single h) hbefore

theorem Steps.grounded (h : Steps limits w w') (hw : w.Grounded) : w'.Grounded := by
  induction h with
  | refl => exact hw
  | tail _ hstep ih => exact hstep.grounded ih

/-- Looking through the rules comes to what the rules say: a service that remembers rules denies
none of their groups. -/
theorem Grounded.decidedByRules (hw : w.Grounded) {rules : GroupRules}
    (hrules : w.slot id .rules = .filled rules) {p : ResourcePermission} {allowed : Bool}
    (h : w.DecidedByRules id p rules.entries allowed) : allowed = rules.grant p := by
  cases allowed with
  | true =>
    obtain ⟨rule, hmem, hcovers, -⟩ := h
    exact (GroupRules.grant_eq_true_iff.2 ⟨rule, hmem, hcovers⟩).symm
  | false =>
    refine (Bool.eq_false_iff.2 fun hgrant => ?_).symm
    obtain ⟨rule, hmem, hcovers⟩ := GroupRules.grant_eq_true_iff.1 hgrant
    rcases hw _ _ _ (h rule hmem hcovers) with ⟨-, hfalse⟩ | ⟨-, rules', hrules', hfalse⟩
    · cases hfalse
    · -- the rules that the group was denied by are the ones that it was taken from
      rw [hrules] at hrules'
      cases hrules'
      rw [GroupRules.hasGroup_of_mem hmem] at hfalse
      cases hfalse

/-- Why a decision about a resource is remembered. -/
theorem Grounded.resource (hw : w.Grounded) {p : ResourcePermission} {allowed : Bool}
    (h : w.slot id (.resource p) = .filled allowed) :
    w.Heard id (.resource p) true ∧ allowed = true ∨
    w.Heard id (.resource p) false ∧
      ∃ rules, w.slot id .rules = .filled rules ∧ allowed = rules.grant p := by
  refine (hw id _ _ h).imp_right (.imp_right ?_)
  rintro ⟨rules, hrules, hdecided⟩
  exact ⟨rules, hrules, hw.decidedByRules hrules hdecided⟩

/-! ## Reports are about services that exist -/

/-- Services were created in the past, and every report is about a service of the same scope that
existed when the lookup ended. -/
structure Recorded (w : World σ) : Prop where
  created : ∀ id service, w.service? id = some service → service.createdAt ≤ w.now
  reports : ∀ report ∈ w.lookups, ∃ service, w.service? report.service = some service ∧
    service.scope = report.lookup.scope ∧ service.createdAt ≤ report.ended ∧
    report.lookup.now ≤ report.ended ∧ report.ended ≤ w.now

theorem recorded_initial (backend : σ) (now : Instant) : (initial backend now).Recorded where
  created _ _ h := nomatch h
  reports _ h := nomatch h

/-- A service is as old as it was, or new. -/
theorem Change.created (h : Change limits w w') {service' : Service}
    (hs' : w'.service? id = some service') :
    (∃ service, w.service? id = some service ∧ service'.createdAt = service.createdAt) ∨
      service'.createdAt = w.now := by
  cases hs : w.service? id with
  | some service =>
    obtain ⟨service'', hs'', hlater⟩ := h.later hs
    rw [hs'] at hs''
    cases hs''
    exact .inl ⟨service, rfl, hlater.createdAt⟩
  | none =>
    cases h with
    | fetch scope =>
      rcases fetch_cases limits scope w with ⟨id', -, -, hf⟩ | ⟨-, hf⟩
      · rw [hf, hs] at hs'
        cases hs'
      · rw [hf] at hs'
        have hnew : service' ∈ [⟨scope, w.now, false, .empty⟩] := by
          rw [service?, List.getElem?_append_right (List.getElem?_eq_none_iff.1 hs)] at hs'
          exact List.mem_of_getElem? hs'
        rw [List.mem_singleton.1 hnew]
        exact .inr rfl
    | mark id' => rw [service?_markInvalid, hs] at hs'; cases hs'
    | invalidate m => rw [service?_invalidate, hs] at hs'; cases hs'
    | load id' q _ => rw [service?_setSlot, hs] at hs'; cases hs'
    | fill id' q answer _ => rw [service?_setSlot, hs] at hs'; cases hs'
    | unload id' q _ => rw [service?_setSlot, hs] at hs'; cases hs'
    | evict => rw [show w.service? id = some service' from hs'] at hs; cases hs
    | clear => rw [show w.service? id = some service' from hs'] at hs; cases hs
    | pass nanos => rw [show w.service? id = some service' from hs'] at hs; cases hs
    | backend state => rw [show w.service? id = some service' from hs'] at hs; cases hs
    | note occurrence => rw [show w.service? id = some service' from hs'] at hs; cases hs
    | report report => rw [show w.service? id = some service' from hs'] at hs; cases hs

theorem Step.recorded (h : Step limits w w') (hw : w.Recorded) : w'.Recorded where
  created id service' hs' := by
    rcases h.change.created hs' with ⟨service, hs, hcreated⟩ | hcreated
    · rw [hcreated]
      exact Nat.le_trans (hw.created id service hs) h.change.now_le
    · rw [hcreated]
      exact h.change.now_le
  reports report hmem := by
    have hold : report ∈ w.lookups ∨ ∃ service, w.service? report.service = some service ∧
        service.scope = report.lookup.scope ∧ report.lookup.now ≤ w.now ∧ report.ended = w.now := by
      cases h with
      | plain _ _ hlookups => exact .inl (hlookups ▸ hmem)
      | fill id q answer _ _ => exact .inl hmem
      | report report' service hs hscope hstarted hended =>
        rcases List.mem_cons.1 hmem with rfl | hmem
        · exact .inr ⟨service, hs, hscope, hstarted, hended⟩
        · exact .inl hmem
    rcases hold with hmem | ⟨service, hs, hscope, hstarted, hended⟩
    · obtain ⟨service, hs, hscope, hcreated, hstarted, hended⟩ := hw.reports report hmem
      obtain ⟨service', hs', hlater⟩ := h.change.later hs
      exact ⟨service', hs', hlater.scope.trans hscope, hlater.createdAt ▸ hcreated, hstarted,
        Nat.le_trans hended h.change.now_le⟩
    · obtain ⟨service', hs', hlater⟩ := h.change.later hs
      refine ⟨service', hs', hlater.scope.trans hscope, ?_, hended ▸ hstarted,
        hended ▸ h.change.now_le⟩
      rw [hlater.createdAt, hended]
      exact hw.created _ service hs

theorem Steps.recorded (h : Steps limits w w') (hw : w.Recorded) : w'.Recorded := by
  induction h with
  | refl => exact hw
  | tail _ hstep ih => exact hstep.recorded ih

end World

end Gatehouse
