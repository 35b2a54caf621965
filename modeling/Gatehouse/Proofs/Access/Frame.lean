import Gatehouse.Proofs.Access.Freshness

/-!
# What is done for other scopes

A decision for one scope has nothing to do with any other scope: it leaves the services of the
others alone, and puts no questions about them. The only way in which it can reach them is through
the backend, which may give commands of its own while it is asked.

- `Command.Concerns`: the commands that can do something to a scope.
- `World.callsFor`, `World.reportsFor`: what was asked of the backend about a scope.
- `World.Aside`: nothing was done for a scope, whatever else was done.
- `World.Disturbed`: the backend was asked about another scope, and gave a command that concerns
  this one.
- `World.Spares`: nothing was done for a scope unless it was disturbed. This is a law of all
  commands that do not concern the scope (`spares_perform`), and of all decisions for other scopes
  (`spares_answerScope`). The proof follows the course of a decision, and goes down with the depth.
-/

namespace Gatehouse

/-- The commands that can do something to a scope. A command for a service by its number may be
about any scope. -/
def Command.Concerns (scope : Scope) : Command → Prop
  | .ask s _ => s = scope
  | .take s => s = scope
  | .askService _ _ => True
  | .invalidateService _ => True
  | .event m _ => m = scope.module
  | .invalidate m => m = scope.module
  | .evict => True
  | .clear => True
  | .wait _ => False

instance (scope : Scope) : DecidablePred (Command.Concerns scope)
  | .ask s _ => inferInstanceAs (Decidable (s = scope))
  | .take s => inferInstanceAs (Decidable (s = scope))
  | .askService _ _ => .isTrue trivial
  | .invalidateService _ => .isTrue trivial
  | .event m _ => inferInstanceAs (Decidable (m = scope.module))
  | .invalidate m => inferInstanceAs (Decidable (m = scope.module))
  | .evict => .isTrue trivial
  | .clear => .isTrue trivial
  | .wait _ => .isFalse id

namespace World

variable {σ : Type} {backend : PermissionBackend σ} {limits : CacheLimits} {scope : Scope}
  {w w' w'' : World σ} {id : ServiceId}

/-! ## What was asked about a scope -/

/-- The question of an occurrence, if it is one about a scope. -/
def askedAbout (scope : Scope) : Occurrence → Option Question
  | .called s q => if s = scope then some q else none
  | .performed _ _ => none

/-- The questions about a scope that were put to the backend; the latest comes first. -/
def callsFor (w : World σ) (scope : Scope) : List Question :=
  w.journal.filterMap (askedAbout scope)

/-- How lookups about a scope ended, whatever the number of the service was; the latest comes
first. -/
def reportsFor (w : World σ) (scope : Scope) : List LookupReport :=
  (w.lookups.filter fun report => report.lookup.scope = scope).map fun report =>
    { report with service := 0 }

theorem callsFor_note_called (w : World σ) (scope : Scope) (q : Question) :
    (w.note (.called scope q)).callsFor scope = q :: w.callsFor scope := by
  simp only [callsFor, note, List.filterMap_cons, askedAbout, if_pos]

theorem callsFor_note_called_ne {s : Scope} (h : s ≠ scope) (q : Question) :
    (w.note (.called s q)).callsFor scope = w.callsFor scope := by
  simp only [callsFor, note, List.filterMap_cons, askedAbout, if_neg h]

theorem callsFor_fetch (w : World σ) (limits : CacheLimits) (s scope : Scope) :
    (w.fetch limits s).2.callsFor scope = w.callsFor scope := by
  rw [fetch_eq]
  rfl

theorem reportsFor_fetch (w : World σ) (limits : CacheLimits) (s scope : Scope) :
    (w.fetch limits s).2.reportsFor scope = w.reportsFor scope := by
  rw [fetch_eq]
  rfl

theorem callsFor_invalidate (w : World σ) (m : ModuleName) (scope : Scope) :
    (w.invalidate m).2.callsFor scope = w.callsFor scope := by
  rw [invalidate_eq]
  rfl

theorem reportsFor_invalidate (w : World σ) (m : ModuleName) (scope : Scope) :
    (w.invalidate m).2.reportsFor scope = w.reportsFor scope := by
  rw [invalidate_eq]
  rfl

theorem reportsFor_report (w : World σ) {report : LookupReport} (h : report.lookup.scope = scope) :
    (w.report report).reportsFor scope = { report with service := 0 } :: w.reportsFor scope := by
  simp [reportsFor, World.report, h]

theorem reportsFor_report_ne {report : LookupReport} (h : report.lookup.scope ≠ scope) :
    (w.report report).reportsFor scope = w.reportsFor scope := by
  simp [reportsFor, World.report, h]

/-! ## The journal -/

/-- What was noted stays noted. -/
theorem Change.journal_suffix (h : Change limits w w') : w.journal <:+ w'.journal := by
  cases h with
  | fetch scope =>
    have hsame : (w.fetch limits scope).2.journal = w.journal := by rw [fetch_eq]
    exact hsame ▸ List.suffix_rfl
  | invalidate m =>
    have hsame : (w.invalidate m).2.journal = w.journal := by rw [invalidate_eq]
    exact hsame ▸ List.suffix_rfl
  | note occurrence => exact List.suffix_cons occurrence w.journal
  | _ => exact List.suffix_rfl

theorem Leads.journal_suffix (h : Leads limits w w') : w.journal <:+ w'.journal := by
  induction h with
  | refl => exact List.suffix_rfl
  | tail _ hstep ih => exact ih.trans hstep.journal_suffix

/-- What is news since a world is news since an earlier one. -/
theorem exists_news_before {news : List Occurrence} (hjournal : w''.journal = news ++ w'.journal)
    (hsuffix : w.journal <:+ w'.journal) :
    ∃ more, w''.journal = more ++ w.journal ∧ news ⊆ more := by
  obtain ⟨older, hsuffix⟩ := hsuffix
  refine ⟨news ++ older, ?_, List.subset_append_left news older⟩
  rw [hjournal, ← hsuffix, List.append_assoc]

/-- It is still among the news later on. -/
theorem exists_news_after {news : List Occurrence} (hjournal : w'.journal = news ++ w.journal)
    (hsuffix : w'.journal <:+ w''.journal) :
    ∃ more, w''.journal = more ++ w.journal ∧ news ⊆ more := by
  obtain ⟨newer, hsuffix⟩ := hsuffix
  refine ⟨newer ++ news, ?_, List.subset_append_right newer news⟩
  rw [← hsuffix, hjournal, List.append_assoc]

/-! ## Nothing is done for a scope -/

/-- Nothing was done for a scope: the store holds the same service for it, all its services are as
they were, and nothing about it was asked of the backend. -/
structure Aside (scope : Scope) (w w' : World σ) : Prop where
  stored : w'.store.get? scope = w.store.get? scope
  services : ∀ id service, w.service? id = some service → service.scope = scope →
    w'.service? id = some service
  calls : w'.callsFor scope = w.callsFor scope
  reports : w'.reportsFor scope = w.reportsFor scope

theorem Aside.refl (scope : Scope) (w : World σ) : Aside scope w w :=
  ⟨rfl, fun _ _ hs _ => hs, rfl, rfl⟩

theorem Aside.trans (h₁ : Aside scope w w') (h₂ : Aside scope w' w'') : Aside scope w w'' where
  stored := h₂.stored.trans h₁.stored
  services id service hs hscope := h₂.services id service (h₁.services id service hs hscope) hscope
  calls := h₂.calls.trans h₁.calls
  reports := h₂.reports.trans h₁.reports

/-- The backend was asked about another scope, and gave a command that concerns this one. -/
def Disturbed (backend : PermissionBackend σ) (scope : Scope) (w w' : World σ) : Prop :=
  ∃ news l state command reply, w'.journal = news ++ w.journal ∧
    Occurrence.performed command reply ∈ news ∧ l.scope ≠ scope ∧
    command ∈ (backend.react l state).1.commands ∧ command.Concerns scope

/-- Nothing was done for a scope unless it was disturbed. -/
structure Spares (backend : PermissionBackend σ) (scope : Scope) (w w' : World σ) : Prop where
  suffix : w.journal <:+ w'.journal
  spared : Aside scope w w' ∨ Disturbed backend scope w w'

theorem Disturbed.before (h : Disturbed backend scope w' w'') (hsuffix : w.journal <:+ w'.journal) :
    Disturbed backend scope w w'' := by
  obtain ⟨news, l, state, command, reply, hjournal, hmem, hgiven⟩ := h
  obtain ⟨more, hmore, hsub⟩ := exists_news_before hjournal hsuffix
  exact ⟨more, l, state, command, reply, hmore, hsub hmem, hgiven⟩

theorem Disturbed.after (h : Disturbed backend scope w w') (hsuffix : w'.journal <:+ w''.journal) :
    Disturbed backend scope w w'' := by
  obtain ⟨news, l, state, command, reply, hjournal, hmem, hgiven⟩ := h
  obtain ⟨more, hmore, hsub⟩ := exists_news_after hjournal hsuffix
  exact ⟨more, l, state, command, reply, hmore, hsub hmem, hgiven⟩

theorem Spares.refl (w : World σ) : Spares backend scope w w :=
  ⟨List.suffix_rfl, .inl (Aside.refl scope w)⟩

theorem Spares.trans (h₁ : Spares backend scope w w') (h₂ : Spares backend scope w' w'') :
    Spares backend scope w w'' := by
  refine ⟨h₁.suffix.trans h₂.suffix, ?_⟩
  rcases h₁.spared with haside₁ | hdisturbed
  · rcases h₂.spared with haside₂ | hdisturbed
    · exact .inl (haside₁.trans haside₂)
    · exact .inr (hdisturbed.before h₁.suffix)
  · exact .inr (hdisturbed.after h₂.suffix)

/-! ## Single operations -/

/-- What only touches the clock, the backend or the numbers that nobody reads. -/
theorem Aside.of_eq (hservices : w'.services = w.services) (hstore : w'.store = w.store)
    (hjournal : w'.journal = w.journal) (hlookups : w'.lookups = w.lookups) :
    Aside scope w w' where
  stored := by rw [hstore]
  services id service hs _ := by rwa [service?, hservices]
  calls := by rw [callsFor, hjournal, callsFor]
  reports := by rw [reportsFor, hlookups, reportsFor]

theorem aside_pass (w : World σ) (nanos : Nat) : Aside scope w (w.pass nanos) :=
  .of_eq rfl rfl rfl rfl

theorem aside_passTo (w : World σ) (instant : Instant) : Aside scope w (w.passTo instant) :=
  .of_eq rfl rfl rfl rfl

theorem aside_backend (w : World σ) (state : σ) : Aside scope w { w with backend := state } :=
  .of_eq rfl rfl rfl rfl

theorem aside_called {s : Scope} (h : s ≠ scope) (w : World σ) (q : Question) :
    Aside scope w (w.note (.called s q)) :=
  ⟨rfl, fun _ _ hs _ => hs, callsFor_note_called_ne h q, rfl⟩

theorem aside_report {report : LookupReport} (h : report.lookup.scope ≠ scope) (w : World σ) :
    Aside scope w (w.report report) :=
  ⟨rfl, fun _ _ hs _ => hs, rfl, reportsFor_report_ne h⟩

theorem aside_performed (w : World σ) (command : Command) (reply : Reply) :
    Aside scope w (w.note (.performed command reply)) :=
  ⟨rfl, fun _ _ hs _ => hs, rfl, rfl⟩

theorem aside_fetch {s : Scope} (h : s ≠ scope) (limits : CacheLimits) (w : World σ) :
    Aside scope w (w.fetch limits s).2 where
  stored := by
    rcases fetch_cases limits s w with ⟨id, -, -, hf⟩ | ⟨-, hf⟩
    · rw [hf]
    · rw [hf]
      exact (Table.get?_put _ _ _ _).trans (if_neg h)
  services id service hs _ := service?_fetch hs limits s
  calls := callsFor_fetch w limits s scope
  reports := reportsFor_fetch w limits s scope

theorem aside_invalidate (hw : w.Coherent) {m : ModuleName} (h : m ≠ scope.module) :
    Aside scope w (w.invalidate m).2 where
  stored := get?_invalidate_ne w h
  services id service hs hscope :=
    (sameFor_invalidate hw h).services id service hs (congrArg Scope.module hscope)
  calls := callsFor_invalidate w m scope
  reports := reportsFor_invalidate w m scope

/-- A single change that does nothing for a scope spares it. -/
theorem Spares.of_change (limits : CacheLimits) (h : Change limits w w')
    (haside : Aside scope w w') : Spares backend scope w w' :=
  ⟨h.journal_suffix, .inl haside⟩

/-! ## On behalf of other scopes -/

/-- A world in which the store is in order, and a service that belongs to another scope. -/
def Elsewhere (scope : Scope) (id : ServiceId) (w : World σ) : Prop :=
  w.Coherent ∧ ∃ service, w.service? id = some service ∧ service.scope ≠ scope

theorem Elsewhere.leads (h : Elsewhere scope id w) (hleads : Leads limits w w') :
    Elsewhere scope id w' := by
  obtain ⟨hcoherent, service, hs, hscope⟩ := h
  obtain ⟨service', hs', hlater⟩ := hleads.later hs
  exact ⟨hleads.coherent hcoherent, service', hs', hlater.scope ▸ hscope⟩

/-- The slots of a service make no difference to its scope. -/
theorem Coherent.setSlot (hw : w.Coherent) (id : ServiceId) (q : Question) (slot : Slot q.Answer) :
    (w.setSlot id q slot).Coherent := by
  intro scope id' hget
  obtain ⟨service, hs, hscope⟩ := hw scope id' hget
  rw [service?_setSlot, hs, Option.map_some]
  refine ⟨_, rfl, ?_⟩
  split <;> exact hscope

theorem Elsewhere.setSlot (h : Elsewhere scope id w) (q : Question) (slot : Slot q.Answer) :
    Elsewhere scope id (w.setSlot id q slot) := by
  obtain ⟨hcoherent, service, hs, hscope⟩ := h
  refine ⟨hcoherent.setSlot id q slot, { service with memo := service.memo.set q slot }, ?_, hscope⟩
  rw [service?_setSlot, hs, Option.map_some, if_pos rfl]

theorem Elsewhere.spares_setSlot (h : Elsewhere scope id w) (q : Question) (slot : Slot q.Answer) :
    Spares backend scope w (w.setSlot id q slot) := by
  obtain ⟨-, service, hs, hother⟩ := h
  refine ⟨List.suffix_rfl, .inl ⟨rfl, fun id' service' hs' hscope => ?_, rfl, rfl⟩⟩
  have hne : id ≠ id' := by
    rintro rfl
    rw [hs] at hs'
    cases hs'
    exact hother hscope
  rw [service?_setSlot, hs', Option.map_some, if_neg hne]

end World

/-! ## Decisions for other scopes -/

namespace Decision

open World

variable {σ : Type} {backend : PermissionBackend σ} {limits : CacheLimits} {scope : Scope}
  {consult : Consult σ}

/-- A way to put questions that spares a scope on behalf of services of others. -/
def Sparing (backend : PermissionBackend σ) (scope : Scope) (consult : Consult σ) : Prop :=
  ∀ id deadline q w, Elsewhere scope id w →
    Spares backend scope w ((consult id deadline q).run w).2

section Sparing

variable (hconsult : Reliable limits consult) (hsparing : Sparing backend scope consult)

include hconsult hsparing

/-- A decision of another scope spares this one from beginning to end. -/
theorem Sparing.invariantAt (id : ServiceId) (deadline : Instant) (w : World σ) :
    InvariantAt consult id deadline
      fun w' => Spares backend scope w w' ∧ Elsewhere scope id w' where
  slot := by
    rintro w₁ q slot ⟨hspares, helsewhere⟩
    exact ⟨hspares.trans (helsewhere.spares_setSlot q slot), helsewhere.setSlot q slot⟩
  ask := by
    rintro w₁ q ⟨hspares, helsewhere⟩
    obtain ⟨service, hs, -⟩ := helsewhere.2
    obtain ⟨hsettles, -⟩ := hconsult id deadline q w₁ service hs
    exact ⟨hspares.trans (hsparing id deadline q w₁ helsewhere),
      helsewhere.leads hsettles.steps.leads⟩
  pass := by
    rintro w₁ nanos ⟨hspares, helsewhere⟩
    exact ⟨hspares.trans (.of_change limits (.pass w₁ nanos) (aside_pass w₁ nanos)), helsewhere⟩

end Sparing

end Decision

/-! ## Commands that do not concern a scope -/

section Commands

open World

variable {σ : Type} {backend : PermissionBackend σ} {limits : CacheLimits} {scope : Scope}
  {consult : Consult σ} {w : World σ}
  (hconsult : Decision.Reliable limits consult)
  (hsparing : Decision.Sparing backend scope consult)

include hconsult hsparing

theorem spares_answerFrom {id : ServiceId} (hw : Elsewhere scope id w) (q : Question) :
    Spares backend scope w ((Decision.answerFrom limits consult id q).run w).2 :=
  ((hsparing.invariantAt hconsult id _ w).answerFrom hconsult q ⟨Spares.refl w, hw⟩).1

theorem spares_fetch_answerFrom (hw : w.Coherent) {s : Scope} (h : s ≠ scope) (q : Question) :
    Spares backend scope w ((Decision.answerFrom limits consult
      (w.fetch limits s).1 q).run (w.fetch limits s).2).2 := by
  refine (Spares.of_change limits (.fetch w s) (aside_fetch h limits w)).trans ?_
  obtain ⟨service, hs, hscope, -⟩ := hw.fetched limits s
  exact spares_answerFrom hconsult hsparing
    ⟨hw.fetch limits s, service, hs, fun hsame => h (hscope.symm.trans hsame)⟩ q

theorem spares_answerWithin (hw : w.Coherent) {s : Scope} (h : s ≠ scope) (retries : Nat)
    (q : Question) :
    Spares backend scope w ((answerWithin limits consult retries s q).run w).2 := by
  refine (answerWithin_keeps (P := fun w' => Spares backend scope w w' ∧ w'.Coherent)
    (fun w₁ hbefore => ?_) retries ⟨Spares.refl w, hw⟩).1
  have hsettles := (settles_fetch limits w₁ s).trans
    (settles_answerFrom hconsult (w₁.fetch limits s).1 q (w₁.fetch limits s).2)
  exact ⟨hbefore.1.trans (spares_fetch_answerFrom hconsult hsparing hbefore.2 h q),
    Leads.coherent hsettles.steps.leads hbefore.2⟩

theorem spares_perform (hw : w.Coherent) {command : Command} (h : ¬command.Concerns scope) :
    Spares backend scope w ((perform limits consult command).run w).2 := by
  cases command with
  | ask s inquiry =>
    exact spares_answerWithin hconsult hsparing hw h invalidationRetries inquiry.question
  | take s => exact .of_change limits (.fetch w s) (aside_fetch h limits w)
  | event m action =>
    cases action with
    | stop => exact .of_change limits (.invalidate w m) (aside_invalidate hw h)
    | securityChanged =>
      exact .of_change limits (.invalidate w m) (aside_invalidate hw h)
    | start => exact Spares.refl w
    | startFailed => exact Spares.refl w
  | invalidate m => exact .of_change limits (.invalidate w m) (aside_invalidate hw h)
  | wait nanos => exact .of_change limits (.pass w nanos) (aside_pass w nanos)
  | askService id inquiry => exact absurd trivial h
  | invalidateService id => exact absurd trivial h
  | evict => exact absurd trivial h
  | clear => exact absurd trivial h

end Commands

section Lookups

open World

variable {σ : Type} {backend : PermissionBackend σ} {limits : CacheLimits} {scope : Scope}
  {obey : Command → StateM (World σ) Reply}
  (hsettles : ∀ command w, Settles limits w ((obey command).run w).2)
  (hobey : ∀ command w, w.Coherent → ¬command.Concerns scope →
    Spares backend scope w ((obey command).run w).2)

include hsettles hobey

/-- The first command that concerns the scope disturbs it; what comes before spares it. -/
theorem spares_performAll {l : Lookup} (hl : l.scope ≠ scope) {state : σ} (commands : List Command)
    (hgiven : ∀ command ∈ commands, command ∈ (backend.react l state).1.commands) {w : World σ}
    (hw : w.Coherent) : Spares backend scope w ((performAll obey commands).run w).2 := by
  induction commands generalizing w with
  | nil => exact Spares.refl w
  | cons command rest ih =>
    obtain ⟨hfirst, hrest⟩ := List.forall_mem_cons.1 hgiven
    have hleads := (hsettles command w).steps.leads
    have hnote := (settles_note limits ((obey command).run w).2
      (.performed command ((obey command).run w).1)).steps.leads
    have hnext := ih hrest (Leads.coherent (hleads.trans hnote) hw)
    refine Spares.trans ?_ hnext
    by_cases hconcerns : command.Concerns scope
    · obtain ⟨news, hnews⟩ := hleads.journal_suffix
      refine ⟨hleads.journal_suffix.trans (List.suffix_cons _ _), .inr ?_⟩
      refine ⟨.performed command ((obey command).run w).1 :: news, l, state, command, _, ?_,
        List.mem_cons_self, hl, hfirst, hconcerns⟩
      rw [note, ← hnews, List.cons_append]
    · exact (hobey command w hw hconcerns).trans
        (.of_change limits (.note _ _) (aside_performed _ command _))

theorem sparing_lookUp : Decision.Sparing backend scope (lookUp limits backend obey) := by
  rintro id deadline q w ⟨hcoherent, service, hs, hscope⟩
  have hother : Decision.scopeOf w id ≠ scope := by rwa [scopeOf_eq hs]
  by_cases hlate : deadline < w.now
  · rw [run_lookUp_of_late backend obey hlate]
    exact .of_change limits (.report w _) (aside_report hother w)
  · obtain ⟨reaction, state, replies, w₁, conclusion, state', hreact, hcommands, -, hrun⟩ :=
      run_lookUp_of_open limits backend obey hlate
    -- before the commands the backend has changed its state, and afterwards it does so again
    have hbefore : Spares backend scope w
        ({ w with backend := state }.note (.called (Decision.scopeOf w id) q)) :=
      (Spares.of_change limits (.backend w state) (aside_backend w state)).trans
        (.of_change limits (.note _ _) (aside_called hother _ q))
    have hmeanwhile := spares_performAll hsettles hobey hother reaction.commands
      (fun command hmem => by rwa [hreact])
      (w := { w with backend := state }.note (.called (Decision.scopeOf w id) q)) hcoherent
    rw [hcommands] at hmeanwhile
    have hafter : Spares backend scope w₁ ({ w₁ with backend := state' }.pass conclusion.elapsed) :=
      (Spares.of_change limits (.backend w₁ state') (aside_backend w₁ state')).trans
        (.of_change limits (.pass _ _) (aside_pass _ _))
    rw [hrun]
    exact ((hbefore.trans hmeanwhile).trans hafter).trans
      (.of_change limits (.report _ _) (aside_report hother _))

end Lookups

section Depth

open World

variable {σ : Type}

/-- Whatever time a lookup is held up, it spares the same scopes. -/
theorem sparing_delayed (limits : CacheLimits) {backend : PermissionBackend σ} {scope : Scope}
    {consult : Consult σ} (hsparing : Decision.Sparing backend scope consult) :
    Decision.Sparing backend scope (delayed backend consult) := by
  intro id deadline q w hw
  rw [run_delayed]
  exact (Spares.of_change limits (.pass w _) (aside_pass w _)).trans (hsparing id deadline q _ hw)

/-- However deep the backend asks back, a lookup for one scope spares all others. -/
theorem sparing_consultAt (limits : CacheLimits) (backend : PermissionBackend σ) (scope : Scope)
    (depth : Nat) : Decision.Sparing backend scope (consultAt limits backend depth) := by
  induction depth with
  | zero => exact fun id deadline q w _ => Spares.refl w
  | succ depth ih =>
    refine sparing_delayed limits (sparing_lookUp ?_ ?_)
    · exact settles_perform (reliable_consultAt backend depth)
    · exact fun command w hw => spares_perform (reliable_consultAt backend depth) ih hw

end Depth

namespace DecisionCache

open World

variable {σ : Type} (cache : DecisionCache σ) {scope : Scope} {w : World σ}

theorem spares_performed_command (hw : w.Coherent) {command : Command}
    (h : ¬command.Concerns scope) :
    Spares cache.backend scope w ((cache.perform command).run w).2 :=
  spares_perform cache.reliable_consult (sparing_consultAt cache.limits cache.backend scope _) hw h

theorem spares_answerScope (hw : w.Coherent) {s : Scope} (h : s ≠ scope) (q : Question) :
    Spares cache.backend scope w ((cache.answerScope s q).run w).2 :=
  spares_answerWithin cache.reliable_consult (sparing_consultAt cache.limits cache.backend scope _)
    hw h invalidationRetries q

end DecisionCache

end Gatehouse
