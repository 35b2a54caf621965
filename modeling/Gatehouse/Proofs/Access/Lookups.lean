import Gatehouse.Proofs.Access.Run

/-!
# The lookups of a decision

Every lookup is reported, so the reports between two worlds tell what became of a decision. While a
decision waits for the backend, others may be made, also by the same service; their lookups are
reported as well. They can be told apart by their deadlines: whoever starts later has to wait
longer, since the clock moves on with every decision.

- `World.newReports`, `World.lookupsOf`: what was reported between two worlds, and which part of it
  belongs to one decision of a service.
- `World.Extends`: reports are only added, and none of a deadline before a certain instant.
- `extends_answerFrom`, `extends_perform`, `timely_consultAt`: a decision that starts at some
  instant, and whatever happens on its behalf, adds reports of later deadlines only.
- `LookupReport.Punctual`: the backend was asked unless it was too late by then. All reports are so.
- `Decision.Accounts`: a lookup adds one report of its own, and its outcome is told by the report.
- `Decision.Account` and `account_answerFrom`: how a decision comes out, in terms of its lookups.
- `first_lookup`: an answer that is not remembered is first of all looked up.
-/

namespace Gatehouse

/-- Whether a lookup was made by a service for a decision with a certain deadline. -/
def LookupReport.isOf (id : ServiceId) (deadline : Instant) (report : LookupReport) : Bool :=
  report.service = id && report.lookup.deadline = deadline

/-- The backend was asked if and only if the deadline was not over when the lookup was put to it. -/
def LookupReport.Punctual (report : LookupReport) : Prop :=
  report.result.isSome = true ↔ report.lookup.now ≤ report.lookup.deadline

theorem LookupReport.Punctual.result_eq_none_iff {report : LookupReport} (h : report.Punctual) :
    report.result = none ↔ report.lookup.deadline < report.lookup.now := by
  rw [LookupReport.Punctual] at h
  rw [← Nat.not_le, ← h, Option.not_isSome_iff_eq_none]

/-- A report has the result that the backend came to when it was asked, if it was asked at all. -/
def PermissionBackend.Says {σ : Type} (backend : PermissionBackend σ) (report : LookupReport) :
    Prop :=
  ∀ result, report.result = some result → ∃ state replies state',
    ((backend.react report.lookup state).1.conclude replies state').1.result = result

/-- A lookup that is due, as it is put to the backend after its delay. -/
def PermissionBackend.put {σ : Type} (backend : PermissionBackend σ) (due : Lookup) : Lookup :=
  { due with now := due.now + backend.delay due }

/-- No lookup is held up, and there is time for the first one. -/
def PermissionBackend.Prompt {σ : Type} (backend : PermissionBackend σ) (limits : CacheLimits) :
    Prop :=
  0 < limits.timeout ∧ ∀ l, backend.delay l = 0

namespace World

variable {σ : Type} {backend : PermissionBackend σ} {limits : CacheLimits} {w w' w'' : World σ}
  {id : ServiceId} {deadline earliest earliest' : Instant}

/-! ## New reports -/

/-- What was reported between two worlds. -/
def newReports (w w' : World σ) : List LookupReport :=
  w'.lookups.take (w'.lookups.length - w.lookups.length)

/-- The lookups that a service made between two worlds for a decision with a certain deadline; the
latest comes first. -/
def lookupsOf (w w' : World σ) (id : ServiceId) (deadline : Instant) : List LookupReport :=
  (w.newReports w').filter fun report => report.isOf id deadline

theorem newReports_of_eq (news : List LookupReport) (h : w'.lookups = news ++ w.lookups) :
    w.newReports w' = news := by
  rw [newReports, h, List.length_append, Nat.add_sub_cancel, List.take_left]

theorem newReports_trans (h₁ : w.lookups <:+ w'.lookups) (h₂ : w'.lookups <:+ w''.lookups) :
    w.newReports w'' = w'.newReports w'' ++ w.newReports w' := by
  obtain ⟨news₁, h₁⟩ := h₁
  obtain ⟨news₂, h₂⟩ := h₂
  rw [newReports_of_eq news₁ h₁.symm, newReports_of_eq news₂ h₂.symm]
  exact newReports_of_eq _ (by rw [← h₂, ← h₁, List.append_assoc])

theorem lookupsOf_trans (h₁ : w.lookups <:+ w'.lookups) (h₂ : w'.lookups <:+ w''.lookups)
    (id : ServiceId) (deadline : Instant) :
    w.lookupsOf w'' id deadline = w'.lookupsOf w'' id deadline ++ w.lookupsOf w' id deadline := by
  rw [lookupsOf, newReports_trans h₁ h₂, List.filter_append]
  rfl

theorem lookupsOf_of_eq (h : w'.lookups = w.lookups) (id : ServiceId) (deadline : Instant) :
    w.lookupsOf w' id deadline = [] := by
  rw [lookupsOf, newReports_of_eq [] h, List.filter_nil]

theorem mem_lookups_of_mem_lookupsOf {report : LookupReport}
    (h : report ∈ w.lookupsOf w' id deadline) : report ∈ w'.lookups :=
  List.mem_of_mem_take (List.mem_filter.1 h).1

theorem deadline_of_mem_lookupsOf {report : LookupReport}
    (h : report ∈ w.lookupsOf w' id deadline) : report.lookup.deadline = deadline := by
  have hown := (List.mem_filter.1 h).2
  rw [LookupReport.isOf, Bool.and_eq_true, decide_eq_true_eq, decide_eq_true_eq] at hown
  exact hown.2

/-- Time goes on between two worlds and reports are added. All of them are about lookups that may
last at least until a certain instant, and have results that the backend came to, unless it was too
late to ask. -/
structure Extends (backend : PermissionBackend σ) (earliest : Instant) (w w' : World σ) : Prop where
  now_le : w.now ≤ w'.now
  suffix : w.lookups <:+ w'.lookups
  reports : ∀ report ∈ w.newReports w',
    earliest ≤ report.lookup.deadline ∧ report.Punctual ∧ backend.Says report

theorem Extends.of_lookups_eq (hnow : w.now ≤ w'.now) (h : w'.lookups = w.lookups) :
    Extends backend earliest w w' where
  now_le := hnow
  suffix := h ▸ List.suffix_rfl
  reports report hmem := by
    rw [newReports_of_eq [] h] at hmem
    cases hmem

theorem Extends.refl (w : World σ) : Extends backend earliest w w :=
  .of_lookups_eq (Nat.le_refl _) rfl

theorem Extends.trans (h₁ : Extends backend earliest w w') (h₂ : Extends backend earliest w' w'') :
    Extends backend earliest w w'' where
  now_le := Nat.le_trans h₁.now_le h₂.now_le
  suffix := h₁.suffix.trans h₂.suffix
  reports report hmem := by
    rw [newReports_trans h₁.suffix h₂.suffix, List.mem_append] at hmem
    exact hmem.elim (h₂.reports report) (h₁.reports report)

theorem Extends.mono (hle : earliest' ≤ earliest) (h : Extends backend earliest w w') :
    Extends backend earliest' w w' :=
  ⟨h.now_le, h.suffix, fun report hmem =>
    (h.reports report hmem).imp_left (Nat.le_trans hle)⟩

/-- A decision that started before still started before, as time only goes on. -/
theorem Extends.started (h : Extends backend earliest w w')
    (hlt : deadline < w.now + limits.timeout) : deadline < w'.now + limits.timeout :=
  Nat.lt_of_lt_of_le hlt (Nat.add_le_add_right h.now_le _)

theorem Extends.report {report : LookupReport} (h : earliest ≤ report.lookup.deadline)
    (hpunctual : report.Punctual) (hreported : backend.Says report) :
    Extends backend earliest w (w.report report) where
  now_le := Nat.le_refl _
  suffix := List.suffix_cons _ _
  reports report' hmem := by
    rw [newReports_of_eq [report] rfl, List.mem_singleton] at hmem
    rw [hmem]
    exact ⟨h, hpunctual, hreported⟩

/-- In a world that has gone on from the beginning, every report is one of the backend. -/
theorem Extends.reported {start : σ} {now : Instant}
    (h : Extends backend earliest (initial start now) w) :
    ∀ report ∈ w.lookups, backend.Says report := by
  intro report hmem
  refine (h.reports report ?_).2.2
  rw [newReports_of_eq w.lookups (List.append_nil _).symm]
  exact hmem

theorem Extends.punctual (h : Extends backend earliest w w') {report : LookupReport}
    (hmem : report ∈ w.lookupsOf w' id deadline) : report.Punctual :=
  (h.reports report (List.mem_filter.1 hmem).1).2.1

/-- Lookups that may last longer belong to other decisions. -/
theorem Extends.lookupsOf (h : Extends backend earliest w w') (hlt : deadline < earliest)
    (id : ServiceId) : w.lookupsOf w' id deadline = [] := by
  refine List.eq_nil_iff_forall_not_mem.2 fun report hmem => ?_
  obtain ⟨hlater, -⟩ := h.reports report (List.mem_filter.1 hmem).1
  rw [deadline_of_mem_lookupsOf hmem] at hlater
  exact Nat.lt_irrefl _ (Nat.lt_of_lt_of_le hlt hlater)

end World

/-! ## Whoever starts later has to wait longer -/

namespace Decision

open World

variable {σ α : Type} {backend : PermissionBackend σ} {limits : CacheLimits} {consult : Consult σ}
  {id : ServiceId} {deadline earliest : Instant} {rank : Nat} {w w' : World σ}

/-- The lookups that are made on behalf of a lookup last at least until its deadline, or until the
deadline of a decision that starts in the meantime. -/
def Timely (backend : PermissionBackend σ) (limits : CacheLimits) (consult : Consult σ) : Prop :=
  ∀ id deadline q w,
    Extends backend (min deadline (w.now + limits.timeout)) w ((consult id deadline q).run w).2

theorem lookups_of_slotChanges (h : Relation.ReflTransGen (SlotChange id) w w') :
    w'.now = w.now ∧ w'.lookups = w.lookups := by
  induction h with
  | refl => exact ⟨rfl, rfl⟩
  | tail _ hstep ih =>
    obtain ⟨q, slot, rfl⟩ := hstep
    exact ih

theorem SlotChange.extends (h : Relation.ReflTransGen (SlotChange id) w w') :
    Extends backend earliest w w' :=
  .of_lookups_eq (Nat.le_of_eq (lookups_of_slotChanges h).1.symm) (lookups_of_slotChanges h).2

section Timely

variable (htimely : Timely backend limits consult)

include htimely

theorem Timely.ask (hdeadline : earliest ≤ deadline) (hnow : earliest ≤ w.now + limits.timeout)
    (id : ServiceId) (q : Question) :
    Extends backend earliest w ((consult id deadline q).run w).2 :=
  (htimely id deadline q w).mono (Nat.le_min.2 ⟨hdeadline, hnow⟩)

/-- All reports that a decision adds are about lookups that last at least until its deadline. -/
theorem Timely.invariantAt (hdeadline : earliest ≤ deadline)
    (hnow : earliest ≤ w.now + limits.timeout) :
    InvariantAt consult id deadline (Extends backend earliest w) where
  slot w₁ q slot h := h.trans (SlotChange.extends (.single ⟨q, slot, rfl⟩))
  ask w₁ q h := by
    have hlater : earliest ≤ w₁.now + limits.timeout :=
      Nat.le_trans hnow (Nat.add_le_add_right h.now_le _)
    exact h.trans (htimely.ask hdeadline hlater id q)
  pass w₁ nanos h := h.trans (.of_lookups_eq (Nat.le_add_right _ _) rfl)

theorem Timely.moves (hdeadline : earliest ≤ deadline) (hnow : earliest ≤ w.now + limits.timeout)
    (h : Moves consult id deadline w w') : Extends backend earliest w w' :=
  (htimely.invariantAt hdeadline hnow).moves h (Extends.refl w)

end Timely

end Decision

section Commands

open World

variable {σ : Type} {backend : PermissionBackend σ} {limits : CacheLimits} {consult : Consult σ}
    (hconsult : Decision.Reliable limits consult) (htimely : Decision.Timely backend limits consult)

include hconsult htimely

/-- The lookups of a decision, and those of all that it leads to, last until its deadline at
least. -/
theorem extends_answerFrom (id : ServiceId) (q : Question) (w : World σ) :
    Extends backend (w.now + limits.timeout) w
      ((Decision.answerFrom limits consult id q).run w).2 :=
  (htimely.invariantAt (Nat.le_refl _) (Nat.le_refl _)).answerFrom hconsult q (Extends.refl w)

theorem extends_fetch_answerFrom (scope : Scope) (q : Question) (w : World σ) :
    Extends backend (w.now + limits.timeout) w ((Decision.answerFrom limits consult
      (w.fetch limits scope).1 q).run (w.fetch limits scope).2).2 := by
  have hnow : (w.fetch limits scope).2.now = w.now := by rw [fetch_eq]
  have hfetch : Extends backend (w.now + limits.timeout) w (w.fetch limits scope).2 :=
    .of_lookups_eq (Nat.le_of_eq hnow.symm) (by rw [fetch_eq])
  refine hfetch.trans ?_
  rw [← hnow]
  exact extends_answerFrom hconsult htimely _ q _

theorem extends_answerWithin (retries : Nat) (scope : Scope) (q : Question) (w : World σ) :
    Extends backend (w.now + limits.timeout) w
      ((answerWithin limits consult retries scope q).run w).2 := by
  refine answerWithin_keeps (fun w₁ hbefore => ?_) retries (Extends.refl w)
  -- no try starts earlier than the first one
  have htry := extends_fetch_answerFrom hconsult htimely scope q w₁
  exact hbefore.trans (htry.mono (Nat.add_le_add_right hbefore.now_le _))

theorem extends_perform (command : Command) (w : World σ) :
    Extends backend (w.now + limits.timeout) w ((perform limits consult command).run w).2 := by
  have hinvalidate : ∀ m, Extends backend (w.now + limits.timeout) w (w.invalidate m).2 := fun m =>
    .of_lookups_eq (Nat.le_of_eq (by rw [invalidate_eq])) (by rw [invalidate_eq])
  cases command with
  | ask scope inquiry =>
    exact extends_answerWithin hconsult htimely invalidationRetries scope inquiry.question w
  | take scope =>
    have hlookups : (w.fetch limits scope).2.lookups = w.lookups := by rw [fetch_eq]
    exact .of_lookups_eq (settles_fetch limits w scope).steps.leads.now_le hlookups
  | askService id inquiry => exact extends_answerFrom hconsult htimely id inquiry.question w
  | invalidateService id => exact .of_lookups_eq (Nat.le_refl _) rfl
  | event m action =>
    cases action with
    | stop => exact hinvalidate m
    | securityChanged => exact hinvalidate m
    | start => exact Extends.refl w
    | startFailed => exact Extends.refl w
  | invalidate m => exact hinvalidate m
  | evict => exact .of_lookups_eq (Nat.le_refl _) rfl
  | clear => exact .of_lookups_eq (Nat.le_refl _) rfl
  | wait nanos => exact .of_lookups_eq (Nat.le_add_right _ _) rfl

end Commands

section Lookups

open World

variable {σ : Type} {backend : PermissionBackend σ} {limits : CacheLimits}
  {obey : Command → StateM (World σ) Reply}

theorem extends_performAll
    (hobey : ∀ command w, Extends backend (w.now + limits.timeout) w ((obey command).run w).2)
    (commands : List Command) (w : World σ) :
    Extends backend (w.now + limits.timeout) w ((performAll obey commands).run w).2 := by
  induction commands generalizing w with
  | nil => exact Extends.refl w
  | cons command rest ih =>
    have hfirst := hobey command w
    have hnote : Extends backend (w.now + limits.timeout) ((obey command).run w).2
        (((obey command).run w).2.note (.performed command ((obey command).run w).1)) :=
      .of_lookups_eq (Nat.le_refl _) rfl
    have hbefore := hfirst.trans hnote
    exact hbefore.trans ((ih _).mono (Nat.add_le_add_right hbefore.now_le _))

/-- A lookup is put to the backend in time, or reported as too late. In the first case the backend's
commands come before the report, and they lead to lookups of later deadlines only. -/
theorem run_lookUp_cases
    (hobey : ∀ command w, Extends backend (w.now + limits.timeout) w ((obey command).run w).2)
    (id : ServiceId) (deadline : Instant) (q : Question) (w : World σ) :
    ∃ w₁ result,
      Extends backend (w.now + limits.timeout) w w₁ ∧
      (result.isSome = true ↔ w.now ≤ deadline) ∧
      backend.Says ⟨id, ⟨Decision.scopeOf w id, q, w.now, deadline⟩, w₁.now, result⟩ ∧
      (lookUp limits backend obey id deadline q).run w =
        (let report : LookupReport :=
          ⟨id, ⟨Decision.scopeOf w id, q, w.now, deadline⟩, w₁.now, result⟩
        (report.outcome limits, w₁.report report)) := by
  by_cases hlate : deadline < w.now
  · exact ⟨w, none, Extends.refl w, iff_of_false nofun (Nat.not_le.2 hlate), nofun,
      run_lookUp_of_late backend obey hlate⟩
  · obtain ⟨reaction, state, replies, w₁, conclusion, state', hreact, hcommands, hconclude, hrun⟩ :=
      run_lookUp_of_open limits backend obey hlate
    have hmeanwhile := extends_performAll hobey reaction.commands
      ({ w with backend := state }.note (.called (Decision.scopeOf w id) q))
    rw [hcommands] at hmeanwhile
    have hbefore : Extends backend (w.now + limits.timeout) w w₁ :=
      ⟨hmeanwhile.now_le, hmeanwhile.suffix, hmeanwhile.reports⟩
    refine ⟨{ w₁ with backend := state' }.pass conclusion.elapsed, some conclusion.result,
      hbefore.trans (.of_lookups_eq (Nat.le_add_right _ _) rfl),
      iff_of_true rfl (Nat.not_lt.1 hlate), ?_, hrun⟩
    rintro _ ⟨⟩
    refine ⟨w.backend, replies, w₁.backend, ?_⟩
    rw [hreact, hconclude]

theorem timely_lookUp
    (hobey : ∀ command w, Extends backend (w.now + limits.timeout) w ((obey command).run w).2) :
    Decision.Timely backend limits (lookUp limits backend obey) := by
  intro id deadline q w
  obtain ⟨w₁, result, hbefore, hpunctual, hreported, hrun⟩ :=
    run_lookUp_cases hobey id deadline q w
  rw [hrun]
  exact (hbefore.mono (Nat.min_le_right _ _)).trans
    (.report (Nat.min_le_left _ _) hpunctual hreported)

theorem timely_delayed {consult : Consult σ} (hconsult : Decision.Timely backend limits consult) :
    Decision.Timely backend limits (delayed backend consult) := by
  intro id deadline q w
  have hlater : w.now ≤ (w.pass (backend.delay ⟨Decision.scopeOf w id, q, w.now, deadline⟩)).now :=
    Nat.le_add_right _ _
  have hwait : Extends backend (min deadline (w.now + limits.timeout)) w
      (w.pass (backend.delay ⟨Decision.scopeOf w id, q, w.now, deadline⟩)) :=
    .of_lookups_eq hlater rfl
  rw [run_delayed]
  have hstart : min deadline (w.now + limits.timeout) ≤ min deadline
      ((w.pass (backend.delay ⟨Decision.scopeOf w id, q, w.now, deadline⟩)).now + limits.timeout) :=
    Nat.le_min.2 ⟨Nat.min_le_left _ _,
      Nat.le_trans (Nat.min_le_right _ _) (Nat.add_le_add_right hlater _)⟩
  exact hwait.trans ((hconsult id deadline q _).mono hstart)

theorem timely_consultAt (backend : PermissionBackend σ) (depth : Nat) :
    Decision.Timely backend limits (consultAt limits backend depth) := by
  induction depth with
  | zero => exact fun _ _ _ w => Extends.refl w
  | succ depth ih =>
    exact timely_delayed (timely_lookUp (extends_perform (reliable_consultAt backend depth) ih))

end Lookups

/-! ## One report for each lookup -/

namespace Decision

open World

variable {σ α : Type} {backend : PermissionBackend σ} {limits : CacheLimits} {consult : Consult σ}
  {id : ServiceId} {deadline : Instant} {q : Question} {rank : Nat} {w w' : World σ}
  {service : Service}

/-- A report tells how a lookup went that was due in a certain world: it is the only one of its
decision, it tells the question and when it was put, it has a result if it was not too late by then,
and the outcome is the failure that it tells. An answer comes in time. -/
structure ToldBy (backend : PermissionBackend σ) (limits : CacheLimits) (id : ServiceId)
    (deadline : Instant) (q : Question) (w : World σ)
    (run : Except AuthzError q.Answer × World σ) (report : LookupReport) : Prop where
  only : w.lookupsOf run.2 id deadline = [report]
  lookup : report.lookup = backend.put ⟨scopeOf w id, q, w.now, deadline⟩
  punctual : report.Punctual
  failure : ∀ e, run.1 = .error e ↔
    ∃ source, report.failure? limits = some source ∧
      e = .backendUnavailable (scopeOf w id) source
  intime : ∀ answer, run.1 = .ok answer → run.2.now ≤ deadline

theorem ToldBy.question {run : Except AuthzError q.Answer × World σ} {report : LookupReport}
    (h : ToldBy backend limits id deadline q w run report) : report.lookup.question = q :=
  congrArg Lookup.question h.lookup

/-- If nothing is held up, the backend is asked when it is time to ask. -/
theorem ToldBy.asked {run : Except AuthzError q.Answer × World σ} {report : LookupReport}
    (h : ToldBy backend limits id deadline q w run report) (hprompt : backend.Prompt limits)
    (hintime : w.now ≤ deadline) : report.result.isSome = true := by
  refine h.punctual.2 ?_
  rw [h.lookup, PermissionBackend.put, hprompt.2]
  exact hintime

/-- Every lookup of a decision that has started before is reported. -/
def Accounts (backend : PermissionBackend σ) (limits : CacheLimits) (consult : Consult σ) : Prop :=
  ∀ id deadline q w, deadline < w.now + limits.timeout →
    ∃ report, ToldBy backend limits id deadline q w ((consult id deadline q).run w) report

theorem accounts_consultAt (backend : PermissionBackend σ) (depth : Nat) :
    Accounts backend limits (consultAt limits backend (depth + 1)) := by
  intro id deadline q w hstarted
  have hconsult : Reliable limits (consultAt limits backend depth) :=
    reliable_consultAt backend depth
  have hobey := extends_perform hconsult (timely_consultAt backend depth)
  let put := w.pass (backend.delay ⟨scopeOf w id, q, w.now, deadline⟩)
  have hstarted' : deadline < put.now + limits.timeout :=
    Nat.lt_of_lt_of_le hstarted (Nat.add_le_add_right (Nat.le_add_right _ _) _)
  obtain ⟨w₁, result, hbefore, hpunctual, -, hrun⟩ := run_lookUp_cases hobey id deadline q put
  refine ⟨⟨id, ⟨scopeOf w id, q, put.now, deadline⟩, w₁.now, result⟩, ?_⟩
  rw [consultAt, run_delayed, hrun]
  exact
    { only := by
        -- what was reported before belongs to decisions that started later
        show put.lookupsOf _ id deadline = _
        rw [lookupsOf_trans hbefore.suffix (List.suffix_cons _ _), hbefore.lookupsOf hstarted',
          List.append_nil, lookupsOf, newReports_of_eq [_] rfl]
        simp only [LookupReport.isOf, List.filter_cons, List.filter_nil, decide_true, Bool.and_self,
          if_true]
        rfl
      lookup := rfl
      punctual := hpunctual
      failure := fun e => Iff.trans LookupReport.outcome_eq_error_iff Iff.rfl
      intime := fun answer hok => (LookupReport.outcome_eq_ok_iff.1 hok).2 }

/-! ## How a decision comes out -/

/-- All these lookups were answered. -/
def Answered (limits : CacheLimits) (reports : List LookupReport) : Prop :=
  ∀ report ∈ reports, report.failure? limits = none

/-- How a decision comes out, given the worlds in which it starts and ends, and its lookups. -/
inductive Account (backend : PermissionBackend σ) (limits : CacheLimits) (w w' : World σ)
    (id : ServiceId) : List LookupReport → Except AuthzError α → Prop where
  | answered {reports : List LookupReport} (answer : α) (h : Answered limits reports) :
    Account backend limits w w' id reports (.ok answer)
  /-- The latest lookup failed, and the decision with it. -/
  | refused {report : LookupReport} {rest : List LookupReport} {source : BackendError}
    (hrest : Answered limits rest) (h : report.failure? limits = some source)
    (hasked : backend.Prompt limits → report.result.isSome = true) :
    Account backend limits w w' id (report :: rest)
      (.error (.backendUnavailable (scopeOf w id) source))
  /-- Someone else was still looking for an answer that was needed. -/
  | blocked {reports : List LookupReport} (q : Question) (hopen : w.slot id q = .loading)
    (h : Answered limits reports) :
    Account backend limits w w' id reports
      (.error (.backendUnavailable (scopeOf w id) (.timeout limits.timeout)))
  | invalidated {reports : List LookupReport} (scope : Scope) (h : Answered limits reports)
    (hmark : w'.isInvalidated id = true) :
    Account backend limits w w' id reports (.error (.invalidated scope))

/-- It does not matter for the outcome that the clock moves on when a decision starts. -/
theorem Account.of_pass {reports : List LookupReport} {outcome : Except AuthzError α} {nanos : Nat}
    (h : Account backend limits (w.pass nanos) w' id reports outcome) :
    Account backend limits w w' id reports outcome := by
  cases h with
  | answered answer h => exact .answered answer h
  | refused hrest h hasked => exact .refused hrest h hasked
  | blocked q hopen h => exact .blocked q hopen h
  | invalidated scope h hmark => exact .invalidated scope h hmark

theorem Account.answered_of_ok {reports : List LookupReport} {answer : α}
    (h : Account backend limits w w' id reports (.ok answer)) : Answered limits reports := by
  cases h with
  | answered _ h => exact h

theorem Account.answered_of_invalidated {reports : List LookupReport} {scope : Scope}
    (h : Account (α := α) backend limits w w' id reports (.error (.invalidated scope))) :
    Answered limits reports := by
  cases h with
  | invalidated _ h _ => exact h

/-- A lookup that failed was the last one, and its error is the outcome. -/
theorem Account.of_failure {reports : List LookupReport} {outcome : Except AuthzError α}
    (h : Account backend limits w w' id reports outcome) {report : LookupReport}
    (hmem : report ∈ reports) {source : BackendError}
    (hfailure : report.failure? limits = some source) :
    reports.head? = some report ∧ outcome = .error (.backendUnavailable (scopeOf w id) source) := by
  have hnone : ∀ {answered : List LookupReport}, Answered limits answered → report ∉ answered := by
    intro answered hanswered hin
    rw [hanswered report hin] at hfailure
    cases hfailure
  cases h with
  | answered answer h => exact absurd hmem (hnone h)
  | blocked q hopen h => exact absurd hmem (hnone h)
  | invalidated scope h _ => exact absurd hmem (hnone h)
  | @refused last rest source' hrest h _ =>
    rcases List.mem_cons.1 hmem with rfl | hin
    · rw [h] at hfailure
      cases hfailure
      exact ⟨rfl, rfl⟩
    · exact absurd hin (hnone hrest)

/-- A decision is left without an answer by its last lookup, or by someone else. -/
theorem Account.of_unavailable {reports : List LookupReport} {scope : Scope}
    {source : BackendError} (h : Account (α := α) backend limits w w' id reports
      (.error (.backendUnavailable scope source))) :
    (∃ report, reports.head? = some report ∧ report.failure? limits = some source ∧
      (backend.Prompt limits → report.result.isSome = true)) ∨ ∃ q, w.slot id q = .loading := by
  cases h with
  | @refused report rest _ _ h hasked => exact .inl ⟨report, rfl, h, hasked⟩
  | blocked q hopen _ => exact .inr ⟨q, hopen⟩

theorem Account.of_invalidated {reports : List LookupReport} {scope : Scope}
    (h : Account (α := α) backend limits w w' id reports (.error (.invalidated scope))) :
    w'.isInvalidated id = true := by
  cases h with
  | invalidated _ _ hmark => exact hmark

theorem answered_nil : Answered limits [] :=
  fun _ hmem => nomatch hmem

theorem Answered.append {reports reports' : List LookupReport} (h : Answered limits reports)
    (h' : Answered limits reports') : Answered limits (reports ++ reports') :=
  fun report hmem => (List.mem_append.1 hmem).elim (h report) (h' report)

theorem lookupsOf_of_slotChanges (h : Relation.ReflTransGen (SlotChange id) w w') :
    w.lookupsOf w' id deadline = [] :=
  lookupsOf_of_eq (lookups_of_slotChanges h).2 id deadline

section Accounts

variable (hconsult : Reliable limits consult) (htimely : Timely backend limits consult)
  (haccounts : Accounts backend limits consult)

include hconsult in
/-- A service outlives the moves of its decision. -/
theorem service_of_moves (h : Moves consult id deadline w w') (hs : w.service? id = some service) :
    ∃ service', w'.service? id = some service' ∧ service'.scope = service.scope := by
  let stays (w' : World σ) : Prop :=
    ∃ service', w'.service? id = some service' ∧ service'.scope = service.scope
  have hstays : InvariantAt consult id deadline stays := by
    refine ⟨?slot, ?ask, fun _ _ h => h⟩
    case slot =>
      rintro w₁ q slot ⟨service₁, hs₁, hscope₁⟩
      refine ⟨{ service₁ with memo := service₁.memo.set q slot }, ?_, hscope₁⟩
      rw [service?_setSlot, hs₁, Option.map_some, if_pos rfl]
    case ask =>
      rintro w₁ q ⟨service₁, hs₁, hscope₁⟩
      obtain ⟨service₂, hs₂, hlater⟩ := (hconsult id deadline q w₁ service₁ hs₁).1.later hs₁
      exact ⟨service₂, hs₂, hlater.scope.trans hscope₁⟩
  exact hstays.moves h ⟨service, hs, rfl⟩

include htimely haccounts in
/-- While all goes well, all lookups are answered. -/
theorem answered_of_moves (hstarted : deadline < w.now + limits.timeout)
    (h : Moves consult id deadline w w') : Answered limits (w.lookupsOf w' id deadline) := by
  induction h with
  | refl =>
    rw [lookupsOf_of_eq rfl]
    exact answered_nil
  | @tail w₁ w₂ hmoves hmove ih =>
    have hbefore := htimely.moves (Nat.le_refl _) (Nat.le_of_lt hstarted) hmoves
    have hlater : deadline < w₁.now + limits.timeout := hbefore.started hstarted
    have hlast := htimely.moves (Nat.le_refl _) (Nat.le_of_lt hlater) (.single hmove)
    rw [lookupsOf_trans hbefore.suffix hlast.suffix]
    refine Answered.append ?_ ih
    cases hmove with
    | slot hchange =>
      rw [lookupsOf_of_slotChanges (.single hchange)]
      exact answered_nil
    | ask q answer hask =>
      obtain ⟨report, htold⟩ := haccounts id deadline q w₁ hlater
      rw [hask] at htold
      rw [htold.only]
      intro report' hmem
      rw [List.mem_singleton.1 hmem]
      cases hfailure : report.failure? limits with
      | none => rfl
      | some source => exact nomatch (htold.failure _).2 ⟨source, hfailure, rfl⟩

include htimely haccounts in
/-- While all goes well, the deadline is not over. -/
theorem intime_of_moves (hstarted : deadline < w.now + limits.timeout) (hintime : w.now ≤ deadline)
    (h : Moves consult id deadline w w') : w'.now ≤ deadline := by
  induction h with
  | refl => exact hintime
  | @tail w₁ w₂ hmoves hmove ih =>
    cases hmove with
    | slot hchange =>
      obtain ⟨q, slot, rfl⟩ := hchange
      exact ih
    | ask q answer hask =>
      have hbefore := htimely.moves (Nat.le_refl _) (Nat.le_of_lt hstarted) hmoves
      obtain ⟨report, htold⟩ := haccounts id deadline q w₁ (hbefore.started hstarted)
      rw [hask] at htold
      exact htold.intime answer rfl

include hconsult htimely haccounts in
/-- The course of a decision tells how it comes out. -/
theorem account_of_course {outcome : Except AuthzError α}
    (hstarted : deadline < w.now + limits.timeout)
    (hintime : backend.Prompt limits → w.now ≤ deadline) (hs : w.service? id = some service)
    (h : Course limits consult id deadline rank w outcome w') :
    Account backend limits w w' id (w.lookupsOf w' id deadline) outcome := by
  cases h with
  | answered hmoves => exact .answered _ (answered_of_moves htimely haccounts hstarted hmoves)
  | @refused e w₁ w₂ _ hmoves q hask hclose =>
    have hbefore := htimely.moves (Nat.le_refl _) (Nat.le_of_lt hstarted) hmoves
    have hlater : deadline < w₁.now + limits.timeout := hbefore.started hstarted
    have hlast := htimely.ask (Nat.le_refl _) (Nat.le_of_lt hlater) id q
    have hafter : Extends backend deadline w₂ w' := SlotChange.extends hclose
    obtain ⟨report, htold⟩ := haccounts id deadline q w₁ hlater
    rw [hask] at htold hlast
    obtain ⟨service₁, hs₁, hscope₁⟩ := service_of_moves hconsult hmoves hs
    obtain ⟨source, hfailure, rfl⟩ := (htold.failure e).1 rfl
    have hreports : w.lookupsOf w' id deadline = report :: w.lookupsOf w₁ id deadline := by
      rw [lookupsOf_trans hbefore.suffix (hlast.trans hafter).suffix,
        lookupsOf_trans hlast.suffix hafter.suffix, lookupsOf_of_slotChanges hclose, htold.only]
      rfl
    rw [hreports, scopeOf_eq hs₁, hscope₁, ← scopeOf_eq hs]
    refine .refused (answered_of_moves htimely haccounts hstarted hmoves) hfailure fun hprompt => ?_
    exact htold.asked hprompt
      (intime_of_moves htimely haccounts hstarted (hintime hprompt) hmoves)
  | @blocked w₁ _ hmoves q hrank hopen hclose =>
    have hbefore := htimely.moves (Nat.le_refl _) (Nat.le_of_lt hstarted) hmoves
    have hwait : Extends backend (deadline + 1) w₁ (w₁.passTo (deadline + 1)) :=
      .of_lookups_eq (Nat.le_max_left _ _) rfl
    have hafter := hwait.trans (SlotChange.extends hclose)
    obtain ⟨service₁, hs₁, hscope₁⟩ := service_of_moves hconsult hmoves hs
    have hreports : w.lookupsOf w' id deadline = w.lookupsOf w₁ id deadline := by
      rw [lookupsOf_trans hbefore.suffix hafter.suffix, hafter.lookupsOf (Nat.lt_succ_self _)]
      rfl
    rw [hreports, timedOut, scopeOf_eq hs₁, hscope₁, ← scopeOf_eq hs]
    exact .blocked q hopen (answered_of_moves htimely haccounts hstarted hmoves)

include hconsult htimely haccounts in
/-- How a decision of a service comes out, given its lookups. -/
theorem account_answerFrom (id : ServiceId) (q : Question) (w : World σ) :
    Account backend limits w ((answerFrom limits consult id q).run w).2 id
      (w.lookupsOf ((answerFrom limits consult id q).run w).2 id (w.now + limits.timeout))
      ((answerFrom limits consult id q).run w).1 := by
  by_cases hmark : w.isInvalidated id = true
  · rw [run_answerFrom_of_invalidated hmark, lookupsOf_of_eq rfl]
    exact .invalidated _ answered_nil hmark
  · rw [Bool.not_eq_true] at hmark
    obtain ⟨service, hs, -⟩ := exists_service_of_current hmark
    obtain ⟨hsettles, hcourse, -⟩ := proceeds_resolve hconsult q (w.pass 1) service hs trivial
    -- the clock has moved on since the deadline was set
    have hstarted : w.now + limits.timeout < (w.pass 1).now + limits.timeout :=
      Nat.add_lt_add_right (Nat.lt_succ_self _) _
    have haccount := (account_of_course hconsult htimely haccounts hstarted
      (fun hprompt => Nat.add_le_add_left hprompt.1 w.now) hs hcourse).of_pass
    rw [run_answerFrom_of_current hmark]
    cases hrun : (resolve limits consult id (w.now + limits.timeout) q).run (w.pass 1) with
    | mk outcome w' =>
      rw [hrun] at haccount
      change Account backend limits w w' id (w.lookupsOf w' id (w.now + limits.timeout)) outcome
        at haccount
      cases outcome with
      | error e => exact haccount
      | ok answer =>
        by_cases hend : w'.isInvalidated id = true
        · simp only [hend, if_true]
          exact .invalidated _ haccount.answered_of_ok hend
        · simp only [hend]
          exact haccount

/-! ## What a decision asks first -/

/-- The first of some lookups is a given one, and it reaches the backend unless it is too late. -/
def BeginsWith (lookup : Lookup) (reports : List LookupReport) : Prop :=
  ∃ report rest, reports = rest ++ [report] ∧ report.lookup = lookup ∧ report.Punctual

/-- The lookup with which a decision begins that starts in a world and does not remember the
answer. -/
def firstLookup (backend : PermissionBackend σ) (limits : CacheLimits) (w : World σ)
    (id : ServiceId) (q : Question) : Lookup :=
  backend.put ⟨scopeOf w id, q, w.now + 1, w.now + limits.timeout⟩

include hconsult htimely haccounts in
theorem first_lookup_resolve (hstarted : deadline < w.now + limits.timeout)
    (hs : w.service? id = some service) (hempty : w.slot id q = .empty) :
    BeginsWith (backend.put ⟨scopeOf w id, q, w.now, deadline⟩)
      (w.lookupsOf ((resolve limits consult id deadline q).run w).2 id deadline) := by
  have hstarted' : deadline < (w.setSlot id q .loading).now + limits.timeout := hstarted
  obtain ⟨report, htold⟩ := haccounts id deadline q (w.setSlot id q .loading) hstarted'
  have hfirst := (htimely.ask (Nat.le_refl deadline) (Nat.le_of_lt hstarted') id q).suffix
  have hs' : (w.setSlot id q .loading).service? id =
      some { service with memo := service.memo.set q .loading } := by
    rw [service?_setSlot, hs, Option.map_some, if_pos rfl]
  have hscope : scopeOf (w.setSlot id q .loading) id = scopeOf w id := by
    rw [scopeOf_eq hs', scopeOf_eq hs]
  obtain ⟨hsettles, -⟩ := hconsult id deadline q _ _ hs'
  have hheard := (hconsult id deadline q _ _ hs').2
  obtain ⟨service', hs'', -⟩ := hsettles.later hs'
  -- whatever follows the first lookup only adds reports
  have hrest : ∃ outcome w', (consult id deadline q >>=
        followUp limits consult id deadline q).run (w.setSlot id q .loading) = (outcome, w') ∧
      ((consult id deadline q).run (w.setSlot id q .loading)).2.lookups <:+ w'.lookups := by
    rw [run_bind]
    cases hrun : (consult id deadline q).run (w.setSlot id q .loading) with
    | mk outcome w' =>
      rw [hrun] at hs'' hheard
      cases outcome with
      | error e => exact ⟨_, _, rfl, List.suffix_rfl⟩
      | ok answer =>
        have hfollow : Settles limits w'
            ((followUp limits consult id deadline q answer).run w').2 :=
          (proceeds_followUp hconsult q answer w' service' hs'' (hheard answer rfl)).1
        exact ⟨_, _, rfl, hfollow.steps.lookups_suffix⟩
  obtain ⟨outcome, w', hload, hadded⟩ := hrest
  have hreports := lookupsOf_trans hfirst hadded id deadline
  rw [htold.only] at hreports
  rw [resolve_eq, run_remember_of_empty deadline _ hempty hload]
  exact ⟨report, _, hreports, hscope ▸ htold.lookup, htold.punctual⟩

include hconsult htimely haccounts in
/-- An answer that a current service does not remember is first of all looked up. -/
theorem first_lookup (hcurrent : w.isInvalidated id = false) (hempty : w.slot id q = .empty) :
    BeginsWith (firstLookup backend limits w id q)
      (w.lookupsOf ((answerFrom limits consult id q).run w).2 id (w.now + limits.timeout)) := by
  obtain ⟨service, hs, -⟩ := exists_service_of_current hcurrent
  have hstarted : w.now + limits.timeout < (w.pass 1).now + limits.timeout :=
    Nat.add_lt_add_right (Nat.lt_succ_self _) _
  rw [world_answerFrom_of_current hcurrent]
  exact first_lookup_resolve (w := w.pass 1) hconsult htimely haccounts hstarted hs hempty

end Accounts

end Decision

namespace DecisionCache

open World Decision

variable {σ : Type} (cache : DecisionCache σ)

/-- Whatever is reported while a command is performed is what the backend came to. -/
theorem extends_performed (command : Command) (w : World σ) :
    Extends cache.backend (w.now + cache.limits.timeout) w ((cache.perform command).run w).2 :=
  extends_perform cache.reliable_consult (timely_consultAt cache.backend _) command w

theorem extends_after (commands : List Command) (w : World σ) :
    Extends cache.backend 0 w (cache.after commands w) := by
  induction commands generalizing w with
  | nil => exact Extends.refl w
  | cons command rest ih =>
    rw [after_cons]
    exact ((cache.extends_performed command w).mono (Nat.zero_le _)).trans (ih _)

theorem extends_answerAt (depth : Nat) (id : ServiceId) (q : Question) (w : World σ) :
    Extends cache.backend (w.now + cache.limits.timeout) w ((cache.answerAt depth id q).run w).2 :=
  extends_answerFrom (reliable_consultAt cache.backend depth)
    (timely_consultAt cache.backend depth) id q w

theorem account_answerAt (depth : Nat) (id : ServiceId) (q : Question) (w : World σ) :
    Account cache.backend cache.limits w ((cache.answerAt (depth + 1) id q).run w).2 id
      (w.lookupsOf ((cache.answerAt (depth + 1) id q).run w).2 id (w.now + cache.limits.timeout))
      ((cache.answerAt (depth + 1) id q).run w).1 :=
  account_answerFrom (reliable_consultAt cache.backend (depth + 1))
    (timely_consultAt cache.backend (depth + 1)) (accounts_consultAt cache.backend depth) id q w

theorem first_lookup_answerAt (depth : Nat) {id : ServiceId} {q : Question} {w : World σ}
    (hcurrent : w.isInvalidated id = false) (hempty : w.slot id q = .empty) :
    BeginsWith (firstLookup cache.backend cache.limits w id q)
      (w.lookupsOf ((cache.answerAt (depth + 1) id q).run w).2 id
        (w.now + cache.limits.timeout)) :=
  first_lookup (reliable_consultAt cache.backend (depth + 1))
    (timely_consultAt cache.backend (depth + 1)) (accounts_consultAt cache.backend depth)
    hcurrent hempty

end DecisionCache

end Gatehouse
