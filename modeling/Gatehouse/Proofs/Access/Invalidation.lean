import Gatehouse.Access.Entitlements
import Gatehouse.Proofs.Access.Run

/-!
# What an invalidation reaches

When a module is invalidated, its services are marked and dropped from the store, so that whoever
still holds one of them gets no more answers from it, not even to a question that was asked
before. The marking goes through the store. A service that has left the store before, because it
had grown too old or because everything was dropped, is not marked any more: it goes on answering
what it remembers.

- `SilentFrom`: no decision of a service that starts or ends after a certain world is answered.
- `silentFrom_of_marked`: the mark is what silences a service.
- `event_silences_stored_services`: an event silences the services that are stored or marked
  already, and leaves all others as they are.
-/

namespace Gatehouse

/-- The commands that invalidate a module. -/
def Command.Invalidates (m : ModuleName) : Command → Prop
  | .invalidate m' => m' = m
  | .event m' action => m' = m ∧ action.invalidatesSecurity = true
  | _ => False

namespace DecisionCache

open World

variable {σ : Type} {cache : DecisionCache σ} {id : ServiceId} {w : World σ}

/-- From a certain world on, a service gives no answers: each of its decisions that starts or ends
after that world ends in an error. It does not matter how deep in the lookups of other decisions
it is made. -/
def SilentFrom (cache : DecisionCache σ) (id : ServiceId) (w : World σ) : Prop :=
  ∀ depth q w₁ w₂ outcome,
    (Decision.answerFrom cache.limits (consultAt cache.limits cache.backend depth) id q).run w₁ =
      (outcome, w₂) →
    Leads cache.limits w w₁ ∨ Leads cache.limits w w₂ →
    ∃ e, outcome = .error e

/-- A mark is never taken back, and no decision that meets it is answered. -/
theorem silentFrom_of_marked {service : Service} (hs : w.service? id = some service)
    (hmark : service.invalidated = true) : cache.SilentFrom id w := by
  intro depth q w₁ w₂ outcome hrun hafter
  cases outcome with
  | error e => exact ⟨e, rfl⟩
  | ok answer =>
    obtain ⟨hstart, -, hend⟩ := Decision.run_answerFrom_ok_iff.1 hrun
    rcases hafter with hlater | hlater
    · rw [Leads.isInvalidated hlater hs hmark] at hstart
      cases hstart
    · rw [Leads.isInvalidated hlater hs hmark] at hend
      cases hend

/-- An event does to the world what the invalidation of its module does. -/
theorem run_perform_of_invalidates {command : Command} {m : ModuleName}
    (h : command.Invalidates m) (w : World σ) :
    ((cache.perform command).run w).2 = (w.invalidate m).2 := by
  cases command with
  | invalidate m' =>
    cases h
    rfl
  | event m' action =>
    obtain ⟨rfl, haction⟩ := h
    cases action with
    | stop => rfl
    | securityChanged => rfl
    | start => cases haction
    | startFailed => cases haction
  | _ => cases h

/-- Under coherence, the services of a module that are in the store are found under their own
scopes. -/
theorem mem_stored_of_coherent (hw : w.Coherent) {service : Service}
    (hs : w.service? id = some service) :
    id ∈ w.stored service.scope.module ↔ w.store.get? service.scope = some id := by
  rw [mem_stored_iff]
  constructor
  · rintro ⟨scope, -, hget⟩
    obtain ⟨service', hs', hscope⟩ := hw scope id hget
    rw [hs] at hs'
    cases hs'
    rw [hscope]
    exact hget
  · intro hget
    exact ⟨service.scope, rfl, hget⟩

/-- There are three ways for a service to leave the store without a mark: it is replaced or swept
out because it has grown too old, or everything is dropped. -/
theorem expired_or_cleared_of_leaves_store {limits : CacheLimits} {w' : World σ}
    (hw : w.Coherent) (h : Change limits w w') {service : Service}
    (hs : w.service? id = some service) (hin : w.store.get? service.scope = some id)
    (hout : w'.store.get? service.scope ≠ some id) (hmark : w'.isInvalidated id = false) :
    w.isExpired limits id = true ∨ w' = w.clear := by
  cases h with
  | fetch scope =>
    rcases fetch_cases limits scope w with ⟨id', -, -, hf⟩ | ⟨hdead, hf⟩
    · rw [hf] at hout
      exact absurd hin hout
    · by_cases hscope : scope = service.scope
      · -- a service that is replaced is not live, and this one is not marked
        have hlive := hdead id (hscope ▸ hin)
        have hcurrent : w.isInvalidated id = false := by
          rw [isInvalidated, service?_fetch hs] at hmark
          rw [isInvalidated, hs]
          exact hmark
        rw [isLive, hcurrent, Bool.not_false, Bool.and_true, Bool.not_eq_false'] at hlive
        exact .inl hlive
      · rw [hf] at hout
        simp only [Table.get?_put, hscope, if_false] at hout
        exact absurd hin hout
  | invalidate m =>
    have hafter := service?_invalidate m w id
    by_cases hm : service.scope.module = m
    · subst hm
      rw [hs, Option.map_some, if_pos ((mem_stored_of_coherent hw hs).2 hin)] at hafter
      rw [isInvalidated, hafter] at hmark
      cases hmark
    · refine absurd ?_ hout
      show (w.store.keepOnly _).2.get? service.scope = some id
      rw [Store.keepOnly, Table.get?_retain, hin]
      simp [hm]
  | evict =>
    cases hold : w.isExpired limits id with
    | true => exact .inl rfl
    | false =>
      refine absurd ?_ hout
      show (w.store.keepOnly _).2.get? service.scope = some id
      rw [Store.keepOnly, Table.get?_retain, hin]
      simp [hold]
  | clear => exact .inr rfl
  | mark id' => exact absurd hin hout
  | load id' q hslot => exact absurd hin hout
  | fill id' q answer hslot => exact absurd hin hout
  | unload id' q hslot => exact absurd hin hout
  | pass nanos => exact absurd hin hout
  | backend state => exact absurd hin hout
  | note occurrence => exact absurd hin hout
  | report report => exact absurd hin hout

/-- After the invalidation of its module, a service of any reachable world is silent if it was in
the store, or marked already. Any other service is left as it is, without a mark, and it goes on
giving the answers that it remembers. -/
theorem event_silences_stored_services {start : σ} {now : Instant}
    (hw : Leads cache.limits (World.initial start now) w) {service : Service}
    (hs : w.service? id = some service) {command : Command}
    (hc : command.Invalidates service.scope.module) :
    (w.store.get? service.scope = some id ∨ service.invalidated = true →
      cache.SilentFrom id ((cache.perform command).run w).2) ∧
    (¬(w.store.get? service.scope = some id ∨ service.invalidated = true) →
      ((cache.perform command).run w).2.service? id = some service ∧
      ∀ q answer, service.memo.get q = .filled answer →
        (cache.answerFrom id q).run ((cache.perform command).run w).2 =
          (.ok answer, ((cache.perform command).run w).2.pass 1)) := by
  have hcoherent := Leads.coherent hw (coherent_initial start now)
  have hafter := service?_invalidate service.scope.module w id
  have hmem := mem_stored_of_coherent hcoherent hs
  rw [hs, Option.map_some] at hafter
  rw [run_perform_of_invalidates hc]
  constructor
  · rintro (hstored | hmark)
    · rw [if_pos (hmem.2 hstored)] at hafter
      exact silentFrom_of_marked hafter rfl
    · -- a mark that was there before stays, stored or not
      have hchange : Change cache.limits w _ := .invalidate w service.scope.module
      obtain ⟨service', hs', hlater⟩ := hchange.later hs
      exact silentFrom_of_marked hs' (hlater.invalidated hmark)
  · intro hout
    rw [if_neg fun hin => hout (.inl (hmem.1 hin))] at hafter
    refine ⟨hafter, fun q answer hfilled => ?_⟩
    have hcurrent : (w.invalidate service.scope.module).2.isInvalidated id = false := by
      rw [isInvalidated, hafter]
      exact Bool.eq_false_iff.2 fun hmark => hout (.inr hmark)
    refine Decision.run_answerFrom_of_filled hcurrent ?_
    rw [slot_eq_of_service hafter]
    exact hfilled

/-! ## An event that comes too late -/

/-- A cache whose services may not grow old at all, over a backend that grants everything. -/
def shortLived : DecisionCache Unit where
  limits := ⟨0, 5⟩
  backend := .ofFunction (Entitlements.start true).answer
  depth := 0

/-- A consumer of a module. -/
def anyScope : Scope :=
  ⟨⟨"wiki"⟩, ⟨"ada"⟩⟩

/-- The replies and the world when a service is taken and asked, and the commands follow. -/
def askedThen (commands : List Command) : List Reply × World Unit :=
  (shortLived.run ([.take anyScope, .askService 0 (.action "read")] ++ commands)).run
    (.initial () 0)

/-- The module of the service stops. -/
def moduleStops : Command :=
  .event anyScope.module .stop

/-- A service in the store falls silent when its module stops; a service that was swept out
before goes on. -/
theorem stop_silences_stored_only :
    shortLived.SilentFrom 0 ((shortLived.perform moduleStops).run (askedThen []).2).2 ∧
    (shortLived.answerFrom 0 (.action "read")).run
        ((shortLived.perform moduleStops).run (askedThen [.wait 1, .evict]).2).2 =
      (.ok true,
        ((shortLived.perform moduleStops).run (askedThen [.wait 1, .evict]).2).2.pass 1) := by
  have hstop : moduleStops.Invalidates anyScope.module := ⟨rfl, rfl⟩
  constructor
  · have hreached := shortLived.leads_run [.take anyScope, .askService 0 (.action "read")]
      (.initial () 0)
    exact (event_silences_stored_services hreached rfl hstop).1 (.inl rfl)
  · have hreached := shortLived.leads_run
      [.take anyScope, .askService 0 (.action "read"), .wait 1, .evict] (.initial () 0)
    refine ((event_silences_stored_services hreached rfl hstop).2 ?_).2 _ _ rfl
    rintro (hstored | hmark)
    · cases hstored
    · cases hmark

/-- A service that was replaced, swept out or dropped before its module stops says afterwards what
it said before. One that is in the store when the module stops does not. -/
theorem answers_after_stop :
    (∀ commands ∈ [[.wait 1, .take anyScope], [.wait 1, .evict], [.clear]],
      (askedThen (commands ++ [moduleStops, .askService 0 (.action "read")])).1.getLast? =
        some (.finding (.ok (.truth true)))) ∧
    (askedThen [moduleStops, .askService 0 (.action "read")]).1.getLast? =
      some (.finding (.error (.invalidated anyScope))) := by
  simp only [List.forall_mem_cons]
  refine ⟨⟨?replaced, ?evicted, ?cleared, nofun⟩, ?stored⟩
  case replaced => rfl
  case evicted => rfl
  case cleared => rfl
  case stored => rfl

end DecisionCache

end Gatehouse
