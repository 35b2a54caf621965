import Gatehouse.Proofs.Access.Invariant
import Gatehouse.Proofs.Access.Lookups

/-!
# Calls of the backend

The journal notes each call of the backend when it is made, and a lookup is reported when it has
ended. So the two lists tell of the same calls, in another order if the backend asks back: a lookup
that was too late to be put to the backend is reported as well, but no call is noted for it.

- `Occurrence.call?`, `LookupReport.call?`: the call that an occurrence or a report tells of.
- `World.newCalls`: the calls that were noted between two worlds.
- `World.Tallies`: what was noted and what was reported between two worlds tells of the same calls.
- `commandInvariant_tallies`, `tallies_lookUp`: commands keep the two lists in step if lookups do, and
  a lookup does if the backend's commands do.
- `tallies_consultAt`: by induction on the depth, all do.
-/

namespace Gatehouse

/-- The call of the backend that an occurrence is, if it is one. -/
def Occurrence.call? : Occurrence → Option (Scope × Question)
  | .called scope q => some (scope, q)
  | .performed _ _ => none

/-- The call of the backend that a lookup has made, unless it was too late for one. -/
def LookupReport.call? (report : LookupReport) : Option (Scope × Question) :=
  report.result.map fun _ => (report.lookup.scope, report.lookup.question)

namespace World

variable {σ : Type} {limits : CacheLimits} {w w' w'' : World σ}

/-- The calls of the backend between two worlds; the latest comes first. -/
def newCalls (w w' : World σ) : List (Scope × Question) :=
  (w'.journal.take (w'.journal.length - w.journal.length)).filterMap Occurrence.call?

/-- What was noted between two worlds, and what was reported, tells of the same calls. -/
def Tallies (w w' : World σ) : Prop :=
  ∃ noted reports, w'.journal = noted ++ w.journal ∧ w'.lookups = reports ++ w.lookups ∧
    (noted.filterMap Occurrence.call?).Perm (reports.filterMap LookupReport.call?)

theorem Tallies.newCalls_perm (h : Tallies w w') :
    (w.newCalls w').Perm ((w.newReports w').filterMap LookupReport.call?) := by
  obtain ⟨noted, reports, hjournal, hlookups, hcalls⟩ := h
  rw [newReports_of_eq reports hlookups, newCalls, hjournal, List.length_append,
    Nat.add_sub_cancel, List.take_left]
  exact hcalls

theorem Tallies.of_eq (hjournal : w'.journal = w.journal) (hlookups : w'.lookups = w.lookups) :
    Tallies w w' :=
  ⟨[], [], hjournal, hlookups, .refl _⟩

theorem Tallies.refl (w : World σ) : Tallies w w :=
  .of_eq rfl rfl

theorem Tallies.trans (h : Tallies w w') (h' : Tallies w' w'') : Tallies w w'' := by
  obtain ⟨noted, reports, hjournal, hlookups, hcalls⟩ := h
  obtain ⟨noted', reports', hjournal', hlookups', hcalls'⟩ := h'
  refine ⟨noted' ++ noted, reports' ++ reports, ?_, ?_, ?_⟩
  · rw [hjournal', hjournal, List.append_assoc]
  · rw [hlookups', hlookups, List.append_assoc]
  · rw [List.filterMap_append, List.filterMap_append]
    exact hcalls'.append hcalls

/-- What the backend does on its own is no call. -/
theorem tallies_note_performed (w : World σ) (command : Command) (reply : Reply) :
    Tallies w (w.note (.performed command reply)) :=
  ⟨[.performed command reply], [], rfl, rfl, .refl _⟩

/-- A report about a lookup that was too late tells of no call. -/
theorem tallies_report_late (w : World σ) {report : LookupReport} (h : report.result = none) :
    Tallies w (w.report report) := by
  refine ⟨[], [report], rfl, rfl, ?_⟩
  rw [List.filterMap_cons, LookupReport.call?, h]
  exact .refl _

/-- The report about a call comes after all that happens during the call. -/
theorem Tallies.report {scope : Scope} {q : Question} {report : LookupReport}
    (h : Tallies (w.note (.called scope q)) w') (hcall : report.call? = some (scope, q)) :
    Tallies w (w'.report report) := by
  obtain ⟨noted, reports, hjournal, hlookups, hcalls⟩ := h
  refine ⟨noted ++ [.called scope q], report :: reports, ?_, ?_, ?_⟩
  · rw [List.append_assoc]
    exact hjournal
  · rw [World.report, hlookups]
    rfl
  · rw [List.filterMap_append, List.filterMap_cons_some hcall]
    exact (List.perm_append_singleton _ _).trans (hcalls.cons _)

end World

section Calls

open World

variable {σ : Type} {limits : CacheLimits} {consult : Consult σ}

/-- If lookups note and report the same calls, all else does, since it makes no calls itself. -/
theorem commandInvariant_tallies (limits : CacheLimits)
    (hcalls : ∀ id deadline q w, Tallies w ((consult id deadline q).run w).2) (w : World σ) :
    CommandInvariant limits consult (Tallies w) where
  slot _ _ _ _ h := h.trans (.of_eq rfl rfl)
  ask w' id deadline q h := h.trans (hcalls id deadline q w')
  pass _ _ h := h.trans (.of_eq rfl rfl)
  fetch _ _ h := h.trans (.of_eq (by rw [fetch_eq]) (by rw [fetch_eq]))
  mark _ _ h := h.trans (.of_eq rfl rfl)
  invalidate _ _ h := h.trans (.of_eq (by rw [invalidate_eq]) (by rw [invalidate_eq]))
  store _ _ h := h.trans (.of_eq rfl rfl)

variable {backend : PermissionBackend σ} {obey : Command → StateM (World σ) Reply}

theorem tallies_performAll (hobey : ∀ command w, Tallies w ((obey command).run w).2)
    (commands : List Command) (w : World σ) :
    Tallies w ((performAll obey commands).run w).2 := by
  induction commands generalizing w with
  | nil => exact Tallies.refl w
  | cons command rest ih =>
    have hnote := tallies_note_performed ((obey command).run w).2 command ((obey command).run w).1
    exact ((hobey command w).trans hnote).trans (ih _)

/-- A lookup notes its call if it is in time, and none otherwise. -/
theorem tallies_lookUp (hobey : ∀ command w, Tallies w ((obey command).run w).2) (id : ServiceId)
    (deadline : Instant) (q : Question) (w : World σ) :
    Tallies w ((lookUp limits backend obey id deadline q).run w).2 := by
  by_cases hlate : deadline < w.now
  · rw [run_lookUp_of_late backend obey hlate]
    exact tallies_report_late w rfl
  · obtain ⟨reaction, state, replies, w₁, conclusion, state', -, hcommands, -, hrun⟩ :=
      run_lookUp_of_open limits backend obey hlate
    have hmeanwhile := tallies_performAll hobey reaction.commands
      ({ w with backend := state }.note (.called (Decision.scopeOf w id) q))
    rw [hcommands] at hmeanwhile
    have hafter : Tallies w₁ ({ w₁ with backend := state' }.pass conclusion.elapsed) :=
      .of_eq rfl rfl
    have hbefore : Tallies w { w with backend := state } := .of_eq rfl rfl
    rw [hrun]
    exact hbefore.trans ((hmeanwhile.trans hafter).report rfl)

/-- However deep the backend asks back, what is noted and what is reported tells of the same
calls. -/
theorem tallies_consultAt (backend : PermissionBackend σ) (depth : Nat) (id : ServiceId)
    (deadline : Instant) (q : Question) (w : World σ) :
    Tallies w ((consultAt limits backend depth id deadline q).run w).2 := by
  induction depth generalizing id deadline q w with
  | zero => exact Tallies.refl w
  | succ depth ih =>
    have hobey : ∀ command w, Tallies w
        ((perform limits (consultAt limits backend depth) command).run w).2 := fun command w =>
      (commandInvariant_tallies limits ih w).perform (reliable_consultAt backend depth) command
        (Tallies.refl w)
    have hwait : Tallies w
        (w.pass (backend.delay ⟨Decision.scopeOf w id, q, w.now, deadline⟩)) := .of_eq rfl rfl
    rw [consultAt, run_delayed]
    exact hwait.trans (tallies_lookUp hobey id deadline q _)

theorem DecisionCache.tallies_answerAt (cache : DecisionCache σ) (depth : Nat) (id : ServiceId)
    (q : Question) (w : World σ) : Tallies w ((cache.answerAt depth id q).run w).2 :=
  (commandInvariant_tallies cache.limits (tallies_consultAt cache.backend depth) w).answerFrom
    (reliable_consultAt cache.backend depth) id q (Tallies.refl w)

end Calls

end Gatehouse
