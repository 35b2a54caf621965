import Gatehouse.Proofs.Access.Course

/-!
# Commands and lookups

Every lookup and every command is a sequence of steps, whatever the backend does meanwhile and
however deep it asks back. The proof goes down with the depth: what a command asks during a lookup
is asked one level further down.

- `LookupReport.failure?`: why a lookup gave no answer; `LookupReport.outcome_eq_error_iff` and
  `LookupReport.outcome_eq_ok_iff` say that this is what the service makes of it.
- `run_lookUp_of_late`, `run_lookUp_of_open`: the two ways in which a lookup goes.
- `run_delayed`: the time before it.
- `settles_answerFrom`, `settles_perform`, `reliable_consultAt`: all computations settle.
- `World.AtRest`: what is true of a world in which no decision is under way.
- `DecisionCache.after`: the world after a number of commands; `settles_after` and `leads_run` say
  that it is reached by steps, and `atRest_after` that it is at rest.
-/

namespace Gatehouse

/-! ## Reports -/

namespace LookupReport

variable {limits : CacheLimits} {report : LookupReport}

/-- Why a lookup gave no answer. If it was too late to ask, or if the answer came too late, this is
a timeout. -/
def failure? (limits : CacheLimits) (report : LookupReport) : Option BackendError :=
  match report.result with
  | none => some (.timeout limits.timeout)
  | some (.error e) => some e
  | some (.ok _) =>
    if report.lookup.deadline < report.ended then some (.timeout limits.timeout) else none

theorem outcome_eq_error_iff {e : AuthzError} :
    report.outcome limits = .error e ↔
      ∃ source, report.failure? limits = some source ∧
        e = .backendUnavailable report.lookup.scope source := by
  unfold outcome failure?
  match report.result with
  | none => simp [eq_comm]
  | some (.error e) => simp [eq_comm]
  | some (.ok answer) =>
    by_cases hlate : report.lookup.deadline < report.ended
    · simp [hlate, eq_comm]
    · simp [hlate]

theorem outcome_eq_ok_iff {answer : report.lookup.question.Answer} :
    report.outcome limits = .ok answer ↔
      report.result = some (.ok answer) ∧ report.ended ≤ report.lookup.deadline := by
  unfold outcome
  match report.result with
  | none => simp
  | some (.error e) => simp
  | some (.ok answer') =>
    by_cases hlate : report.lookup.deadline < report.ended
    · simp [hlate]
    · simp [hlate, Nat.not_lt.1 hlate]

theorem failure?_eq_none_of_outcome {answer : report.lookup.question.Answer}
    (h : report.outcome limits = .ok answer) : report.failure? limits = none := by
  cases hfailure : report.failure? limits with
  | none => rfl
  | some source =>
    rw [outcome_eq_error_iff.2 ⟨source, hfailure, rfl⟩] at h
    cases h

end LookupReport

/-! ## How lookups and repeated decisions go -/

section Runs

open World

variable {σ : Type} {limits : CacheLimits}

/-- A decision for a scope that is not tried again. -/
theorem run_answerWithin_zero (consult : Consult σ) (scope : Scope) (q : Question) (w : World σ) :
    (answerWithin limits consult 0 scope q).run w =
      (Decision.answerFrom limits consult (w.fetch limits scope).1 q).run
        (w.fetch limits scope).2 := rfl

/-- A decision for a scope is tried again if and only if its service was invalidated. -/
theorem run_answerWithin_succ (consult : Consult σ) (n : Nat) (scope : Scope) (q : Question)
    (w : World σ) :
    (answerWithin limits consult (n + 1) scope q).run w =
      match (Decision.answerFrom limits consult (w.fetch limits scope).1 q).run
        (w.fetch limits scope).2 with
      | (.error (.invalidated _), w') => (answerWithin limits consult n scope q).run w'
      | (.error (.backendUnavailable s e), w') => (.error (.backendUnavailable s e), w')
      | (.ok answer, w') => (.ok answer, w') := by
  simp only [answerWithin, ExceptT.run_mk]
  cases (Decision.answerFrom limits consult (w.fetch limits scope).1 q).run
      (w.fetch limits scope).2 with
  | mk outcome w' =>
    cases outcome with
    | ok answer => rfl
    | error e =>
      cases e with
      | invalidated s => rfl
      | backendUnavailable s e => rfl

/-- A decision for a scope keeps what each of its tries keeps, however often it is tried. -/
theorem answerWithin_keeps {consult : Consult σ} {scope : Scope} {q : Question}
    {P : World σ → Prop}
    (htry : ∀ w, P w → P ((Decision.answerFrom limits consult (w.fetch limits scope).1 q).run
      (w.fetch limits scope).2).2) (retries : Nat) {w : World σ} (hw : P w) :
    P ((answerWithin limits consult retries scope q).run w).2 := by
  induction retries generalizing w with
  | zero => exact htry w hw
  | succ n ih =>
    have hfirst := htry w hw
    rw [run_answerWithin_succ]
    cases hrun : (Decision.answerFrom limits consult (w.fetch limits scope).1 q).run
        (w.fetch limits scope).2 with
    | mk outcome w' =>
      rw [hrun] at hfirst
      cases outcome with
      | ok answer => exact hfirst
      | error e =>
        cases e with
        -- the next try starts in the world in which this one ended
        | invalidated s => exact ih hfirst
        | backendUnavailable s source => exact hfirst

/-- What a caller is told is what a decision comes to. -/
theorem run_perform_ask (consult : Consult σ) (scope : Scope) (inquiry : Inquiry) (w : World σ) :
    (perform limits consult (.ask scope inquiry)).run w =
      (.finding (inquiry.conclude
        ((answerScope limits consult scope inquiry.question).run w).1),
        ((answerScope limits consult scope inquiry.question).run w).2) := rfl

/-- A lookup after the deadline does not reach the backend. -/
theorem run_lookUp_of_late (backend : PermissionBackend σ) (obey : Command → StateM (World σ) Reply)
    {id : ServiceId} {deadline : Instant} {q : Question} {w : World σ} (h : deadline < w.now) :
    (lookUp limits backend obey id deadline q).run w =
      (let report : LookupReport := ⟨id, ⟨Decision.scopeOf w id, q, w.now, deadline⟩, w.now, none⟩
      (report.outcome limits, w.report report)) := by
  simp only [lookUp, ExceptT.run_mk, if_pos h]

/-- A lookup in time: the backend reacts, its commands are performed, and it concludes. -/
theorem run_lookUp_of_open (limits : CacheLimits) (backend : PermissionBackend σ)
    (obey : Command → StateM (World σ) Reply) {id : ServiceId} {deadline : Instant} {q : Question}
    {w : World σ} (h : ¬deadline < w.now) :
    ∃ reaction state replies w₁ conclusion state',
      backend.react ⟨Decision.scopeOf w id, q, w.now, deadline⟩ w.backend = (reaction, state) ∧
      (performAll obey reaction.commands).run
        ({ w with backend := state }.note (.called (Decision.scopeOf w id) q)) = (replies, w₁) ∧
      reaction.conclude replies w₁.backend = (conclusion, state') ∧
      (lookUp limits backend obey id deadline q).run w =
        (let w₂ := { w₁ with backend := state' }.pass conclusion.elapsed
        let report : LookupReport :=
          ⟨id, ⟨Decision.scopeOf w id, q, w.now, deadline⟩, w₂.now, some conclusion.result⟩
        (report.outcome limits, w₂.report report)) := by
  refine ⟨_, _, _, _, _, _, rfl, rfl, rfl, ?_⟩
  exact if_neg h

/-- A lookup that is held up goes as one that is due later. -/
theorem run_delayed (backend : PermissionBackend σ) (consult : Consult σ) (id : ServiceId)
    (deadline : Instant) (q : Question) (w : World σ) :
    (delayed backend consult id deadline q).run w = (consult id deadline q).run
      (w.pass (backend.delay ⟨Decision.scopeOf w id, q, w.now, deadline⟩)) := rfl

end Runs

/-! ## Everything settles -/

section Commands

open World

variable {σ : Type} {limits : CacheLimits} {consult : Consult σ}
    (hconsult : Decision.Reliable limits consult)

include hconsult

theorem settles_answerFrom (id : ServiceId) (q : Question) (w : World σ) :
    Settles limits w ((Decision.answerFrom limits consult id q).run w).2 := by
  by_cases hmark : w.isInvalidated id = true
  · rw [Decision.run_answerFrom_of_invalidated hmark]
    exact Settles.refl w
  · rw [Bool.not_eq_true] at hmark
    rw [Decision.world_answerFrom_of_current hmark]
    obtain ⟨service, hs, -⟩ := exists_service_of_current hmark
    obtain ⟨hresolve, -⟩ := Decision.proceeds_resolve hconsult q (w.pass 1) service hs trivial
    exact (settles_pass limits w 1).trans hresolve

theorem settles_answerWithin (retries : Nat) (scope : Scope) (q : Question) (w : World σ) :
    Settles limits w ((answerWithin limits consult retries scope q).run w).2 := by
  refine answerWithin_keeps (fun w₁ hsettles => ?_) retries (Settles.refl w)
  exact (hsettles.trans (settles_fetch limits w₁ scope)).trans (settles_answerFrom hconsult _ q _)

/-- An answer for a scope is the answer of the service that the last try fetches. -/
theorem fetched_of_answered {retries : Nat} {scope : Scope} {q : Question} {answer : q.Answer}
    {w w' : World σ} (h : (answerWithin limits consult retries scope q).run w = (.ok answer, w')) :
    ∃ w₁, Settles limits w w₁ ∧
      (Decision.answerFrom limits consult (w₁.fetch limits scope).1 q).run
        (w₁.fetch limits scope).2 = (.ok answer, w') := by
  induction retries generalizing w with
  | zero => exact ⟨w, Settles.refl w, h⟩
  | succ n ih =>
    have htried := (settles_fetch limits w scope).trans
      (settles_answerFrom hconsult (w.fetch limits scope).1 q _)
    rw [run_answerWithin_succ] at h
    cases htry : (Decision.answerFrom limits consult (w.fetch limits scope).1 q).run
        (w.fetch limits scope).2 with
    | mk outcome w₂ =>
      rw [htry] at h htried
      rcases outcome with (⟨s, e⟩ | s) | found
      · cases h
      · obtain ⟨w₁, hsettles, hrun⟩ := ih h
        exact ⟨w₁, htried.trans hsettles, hrun⟩
      · cases h
        exact ⟨w, Settles.refl w, htry⟩

theorem settles_perform (command : Command) (w : World σ) :
    Settles limits w ((perform limits consult command).run w).2 := by
  cases command with
  | ask scope inquiry =>
    exact settles_answerWithin hconsult invalidationRetries scope inquiry.question w
  | take scope => exact settles_fetch limits w scope
  | askService id inquiry => exact settles_answerFrom hconsult id inquiry.question w
  | invalidateService id => exact settles_markInvalid limits w id
  | event m action =>
    cases action with
    | stop => exact settles_invalidate limits w m
    | securityChanged => exact settles_invalidate limits w m
    | start => exact Settles.refl w
    | startFailed => exact Settles.refl w
  | invalidate m => exact settles_invalidate limits w m
  | evict => exact .of_change (.evict w) (fun _ _ => rfl) rfl
  | clear => exact .of_change (.clear w) (fun _ _ => rfl) rfl
  | wait nanos => exact settles_pass limits w nanos

end Commands

section Lookups

open World

variable {σ : Type} {limits : CacheLimits}

theorem settles_performAll {obey : Command → StateM (World σ) Reply}
    (hobey : ∀ command w, Settles limits w ((obey command).run w).2) (commands : List Command)
    (w : World σ) : Settles limits w ((performAll obey commands).run w).2 := by
  induction commands generalizing w with
  | nil => exact Settles.refl w
  | cons command rest ih =>
    have hnote := settles_note limits ((obey command).run w).2
      (.performed command ((obey command).run w).1)
    exact ((hobey command w).trans hnote).trans (ih _)

/-- A report about a service that exists is a step. -/
theorem settles_report {w : World σ} {report : LookupReport} {service : Service}
    (hs : w.service? report.service = some service) (hscope : service.scope = report.lookup.scope)
    (hstarted : report.lookup.now ≤ w.now) (hended : report.ended = w.now) :
    Settles limits w (w.report report) :=
  ⟨.single (.report w report service hs hscope hstarted hended), fun _ _ => Iff.rfl⟩

theorem scopeOf_eq {w : World σ} {id : ServiceId} {service : Service}
    (hs : w.service? id = some service) : Decision.scopeOf w id = service.scope := by
  rw [Decision.scopeOf, hs, Option.map_some, Option.getD_some]

/-- What a service takes from a lookup is what it has heard. -/
theorem heard_of_outcome {w : World σ} {id : ServiceId} {scope : Scope} {q : Question}
    {now deadline ended : Instant} {result : Option (Except BackendError q.Answer)}
    {answer : q.Answer}
    (h : LookupReport.outcome limits ⟨id, ⟨scope, q, now, deadline⟩, ended, result⟩ = .ok answer) :
    (w.report ⟨id, ⟨scope, q, now, deadline⟩, ended, result⟩).Heard id q answer := by
  obtain ⟨hresult, hintime⟩ := LookupReport.outcome_eq_ok_iff.1 h
  obtain rfl : result = some (.ok answer) := hresult
  exact ⟨scope, now, deadline, ended, hintime, List.mem_cons_self⟩

/-- Lookups are reliable if the commands that the backend gives settle. -/
theorem reliable_lookUp {obey : Command → StateM (World σ) Reply}
    (hobey : ∀ command w, Settles limits w ((obey command).run w).2)
    (backend : PermissionBackend σ) : Decision.Reliable limits (lookUp limits backend obey) := by
  intro id deadline q w service hs
  by_cases hlate : deadline < w.now
  · rw [run_lookUp_of_late backend obey hlate]
    exact ⟨settles_report hs (scopeOf_eq hs).symm (Nat.le_refl _) rfl,
      fun _ h => heard_of_outcome h⟩
  · obtain ⟨reaction, state, replies, w₁, conclusion, state', -, hcommands, -, hrun⟩ :=
      run_lookUp_of_open limits backend obey hlate
    -- the backend changes its state twice, and its commands are performed in between
    have hbefore := (settles_backend limits w state).trans
      (settles_note limits _ (.called (Decision.scopeOf w id) q))
    have hmeanwhile := settles_performAll hobey reaction.commands
      ({ w with backend := state }.note (.called (Decision.scopeOf w id) q))
    rw [hcommands] at hmeanwhile
    have hafter := (settles_backend limits w₁ state').trans
      (settles_pass limits _ conclusion.elapsed)
    have hall := (hbefore.trans hmeanwhile).trans hafter
    -- the service is the same when the lookup ends
    obtain ⟨service', hs', hlater⟩ := hall.later hs
    rw [hrun]
    refine ⟨hall.trans (settles_report hs' ?_ hall.steps.leads.now_le rfl),
      fun _ h => heard_of_outcome h⟩
    exact hlater.scope.trans (scopeOf_eq hs).symm

theorem reliable_delayed {consult : Consult σ} (hconsult : Decision.Reliable limits consult)
    (backend : PermissionBackend σ) : Decision.Reliable limits (delayed backend consult) := by
  intro id deadline q w service hs
  rw [run_delayed]
  obtain ⟨hsettles, hheard⟩ := hconsult id deadline q (w.pass _) service hs
  exact ⟨(settles_pass limits w _).trans hsettles, hheard⟩

/-- However deep the backend asks back, its lookups are reliable. -/
theorem reliable_consultAt (backend : PermissionBackend σ) (depth : Nat) :
    Decision.Reliable limits (consultAt limits backend depth) := by
  induction depth with
  | zero => exact fun id deadline q w _ _ => ⟨Settles.refl w, nofun⟩
  | succ depth ih =>
    -- what a command asks is asked one level further down
    exact reliable_delayed (reliable_lookUp (settles_perform ih) backend) backend

end Lookups

/-! ## Worlds at rest -/

namespace World

variable {σ : Type} {limits : CacheLimits} {w w' : World σ}

/-- A world in which no decision is under way, and that was reached by steps. -/
structure AtRest (w : World σ) : Prop where
  grounded : w.Grounded
  recorded : w.Recorded
  coherent : w.Coherent
  idle : ∀ id q, w.slot id q ≠ .loading

theorem atRest_initial (start : σ) (now : Instant) : AtRest (initial start now) where
  grounded := grounded_initial start now
  recorded := recorded_initial start now
  coherent := coherent_initial start now
  idle _ _ h := nomatch h

/-- What settles leaves a world at rest, for it closes the slots that it opens. -/
theorem AtRest.settles (hw : AtRest w) (h : Settles limits w w') : AtRest w' where
  grounded := Steps.grounded h.steps hw.grounded
  recorded := Steps.recorded h.steps hw.recorded
  coherent := Leads.coherent h.steps.leads hw.coherent
  idle id q hopen := hw.idle id q ((h.loading id q).1 hopen)

end World

namespace DecisionCache

open World

variable {σ : Type} (cache : DecisionCache σ) {id : ServiceId} {q : Question} {w w' : World σ}

theorem reliable_consult : Decision.Reliable cache.limits cache.consult :=
  reliable_consultAt cache.backend _

/-- The world after a number of commands. -/
def after (commands : List Command) (w : World σ) : World σ :=
  ((cache.run commands).run w).2

theorem after_cons (command : Command) (rest : List Command) (w : World σ) :
    cache.after (command :: rest) w = cache.after rest ((cache.perform command).run w).2 := by
  rw [after, run, List.mapM_cons]
  rfl

theorem settles_after (commands : List Command) (w : World σ) :
    Settles cache.limits w (cache.after commands w) := by
  induction commands generalizing w with
  | nil => exact Settles.refl w
  | cons command rest ih =>
    rw [after_cons]
    exact (settles_perform cache.reliable_consult command w).trans (ih _)

theorem atRest_after (start : σ) (now : Instant) (commands : List Command) :
    AtRest (cache.after commands (.initial start now)) :=
  (atRest_initial start now).settles (cache.settles_after commands _)

theorem leads_run (commands : List Command) (w : World σ) :
    Leads cache.limits w ((cache.run commands).run w).2 :=
  (cache.settles_after commands w).steps.leads

/-- One decision of a service, somewhere down in the lookups of other decisions. -/
def answerAt (depth : Nat) (id : ServiceId) (q : Question) :
    Decision σ q.Answer :=
  Decision.answerFrom cache.limits (consultAt cache.limits cache.backend depth) id q

theorem slot_of_run_answerAt {depth : Nat} {answer : q.Answer}
    (h : (cache.answerAt depth id q).run w = (.ok answer, w')) : w'.slot id q = .filled answer :=
  Decision.slot_of_run_answerFrom (reliable_consultAt cache.backend depth) h

theorem settles_answerAt (depth : Nat) (id : ServiceId) (q : Question) (w : World σ) :
    Settles cache.limits w ((cache.answerAt depth id q).run w).2 :=
  settles_answerFrom (reliable_consultAt cache.backend depth) id q w

end DecisionCache

end Gatehouse
