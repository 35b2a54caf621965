import Gatehouse.Proofs.Access.Twins

/-!
# Tenants are kept apart

Those who ask about a scope cannot tell whether anybody asks about others, or whether anything
happens to other modules. Of a run one can take away all that does not concern a scope, so that only
the time remains that it took: whoever asks about the scope is told the same, and the backend is
asked the same about it, in the same order.

- `DecisionCache.thinned`: what remains of the commands of a run.
- `DecisionCache.answersFor`: what was answered to the questions about a scope.
- `World.Drops`: the services of a module leave the store, and nothing else changes.
- `twins_run`: the run and what remains of it lead from twins to twins.
- `tenants_are_isolated`: nothing of a run that does not concern a scope makes a difference to it,
  and an event drops the services of its own module only.
-/

namespace Gatehouse

/-- The commands for a service that was fetched before. Its number depends on what others do. -/
def Command.NamesService : Command → Prop
  | .askService _ _ => True
  | .invalidateService _ => True
  | _ => False

theorem Command.keepsTo_of_concerns {scope : Scope} {command : Command}
    (hconcerns : command.Concerns scope) (hunnamed : ¬command.NamesService) :
    command.KeepsTo scope := by
  cases command with
  | ask s inquiry => exact hconcerns
  | askService id inquiry => exact absurd trivial hunnamed
  | invalidateService id => exact absurd trivial hunnamed
  | take s => trivial
  | event m action => trivial
  | invalidate m => trivial
  | evict => trivial
  | clear => trivial
  | wait nanos => trivial

/-- A backend that keeps a scope apart does not disturb it. -/
theorem PermissionBackend.Separates.not_disturbed {σ : Type} {backend : PermissionBackend σ}
    {scope : Scope} (hbackend : backend.Separates scope) {w w' : World σ} :
    ¬World.Disturbed backend scope w w' := by
  rintro ⟨-, l, state, command, -, -, -, hother, hgiven, hconcerns⟩
  exact hbackend.others l state hother command hgiven hconcerns

namespace World

variable {σ : Type} {w w' : World σ}

/-- The services of a module leave the store. All other services are as they were: what they
remember, when they were created, whether they are marked, and that they are in the store. -/
structure Drops (m : ModuleName) (w w' : World σ) : Prop where
  now : w'.now = w.now
  stored : ∀ scope : Scope,
    w'.store.get? scope = if scope.module = m then none else w.store.get? scope
  services : ∀ id service, w.service? id = some service →
    service.scope.module ≠ m ∨ w.store.get? service.scope ≠ some id →
    w'.service? id = some service

theorem drops_invalidate (hw : w.Coherent) (m : ModuleName) : Drops m w (w.invalidate m).2 where
  now := by rw [invalidate_eq]
  stored scope := by
    by_cases hm : scope.module = m
    · subst hm
      rw [get?_invalidate_self, if_pos rfl]
    · rw [get?_invalidate_ne w (Ne.symm hm), if_neg hm]
  services id service hs hother := by
    by_cases hm : service.scope.module = m
    · subst hm
      rcases hother with hother | hother
      · exact absurd rfl hother
      · rw [service?_invalidate, hs, Option.map_some,
          if_neg fun hmem => hother ((DecisionCache.mem_stored_of_coherent hw hs).1 hmem)]
    · exact (sameFor_invalidate hw (Ne.symm hm)).services id service hs rfl

end World

namespace DecisionCache

open World

variable {σ : Type} (cache : DecisionCache σ)

/-- The commands of a run without those that do not concern a scope. Only the time that these took
passes in their place. -/
def thinned (scope : Scope) : List Command → World σ → List Command
  | [], _ => []
  | command :: rest, w =>
    let w' := ((cache.perform command).run w).2
    (if command.Concerns scope then command else .wait (w'.now - w.now)) ::
      thinned scope rest w'

/-- The reply to a command, if it is a question about a scope. -/
def answerFor (scope : Scope) : Command × Reply → Option Reply
  | (.ask s _, reply) => if s = scope then some reply else none
  | _ => none

/-- What was answered to the questions about a scope. -/
def answersFor (scope : Scope) (commands : List Command) (replies : List Reply) : List Reply :=
  (commands.zip replies).filterMap (answerFor scope)

variable {cache} {scope : Scope} {same : ServiceId → ServiceId → Prop} {w v : World σ}

theorem run_cons (command : Command) (rest : List Command) (w : World σ) :
    (cache.run (command :: rest)).run w =
      (((cache.perform command).run w).1 ::
          ((cache.run rest).run ((cache.perform command).run w).2).1,
        ((cache.run rest).run ((cache.perform command).run w).2).2) := by
  rw [run, List.mapM_cons]
  rfl

theorem answersFor_cons (scope : Scope) (command : Command) (commands : List Command)
    (reply : Reply) (replies : List Reply) :
    answersFor scope (command :: commands) (reply :: replies) =
      (answerFor scope (command, reply)).toList ++ answersFor scope commands replies := by
  rw [answersFor, List.zip_cons_cons, List.filterMap_cons]
  cases answerFor scope (command, reply) with
  | none => rfl
  | some answer => rfl

theorem answerFor_of_not_concerns {command : Command} (h : ¬command.Concerns scope)
    (reply : Reply) : answerFor scope (command, reply) = none := by
  cases command with
  | ask s inquiry => exact if_neg h
  | _ => rfl

section Separated

variable (hbackend : cache.backend.Separates scope)

include hbackend

/-- A command that concerns the scope has the same reply in twins, if it is a question, and leads
to twins again. -/
theorem step_of_concerns (h : Twins scope same w v) {command : Command}
    (hconcerns : command.Concerns scope) (hunnamed : ¬command.NamesService) :
    answerFor scope (command, ((cache.perform command).run v).1) =
        answerFor scope (command, ((cache.perform command).run w).1) ∧
      Grown scope same ((cache.perform command).run w).2 ((cache.perform command).run v).2 := by
  have hkeeps := keeps_consultAt hbackend cache.limits (cache.depth + 1)
  refine ⟨?_, twins_perform cache.limits hkeeps h (Command.keepsTo_of_concerns hconcerns hunnamed)⟩
  cases command with
  | ask s inquiry =>
    obtain rfl : s = scope := hconcerns
    exact congrArg (fun reply => if s = s then some reply else none)
      (agree_ask cache.limits hkeeps h inquiry).outcome
  | _ => rfl

/-- Of any other command only the time makes a difference that it takes. -/
theorem step_of_not_concerns (h : Twins scope same w v) {command : Command}
    (hconcerns : ¬command.Concerns scope) :
    Twins scope same ((cache.perform command).run w).2
      (v.pass (((cache.perform command).run w).2.now - w.now)) := by
  have hleads := (settles_perform cache.reliable_consult command w).steps.leads
  rcases (cache.spares_performed_command h.left hconcerns).spared with haside | hdisturbed
  · refine h.of_aside haside (aside_pass v _) (Leads.coherent hleads h.left) h.right ?_
    show v.now + _ = _
    rw [h.now]
    exact Nat.add_sub_cancel' (Leads.now_le hleads)
  · exact absurd hdisturbed hbackend.not_disturbed

theorem twins_run {commands : List Command}
    (hcommands : ∀ command ∈ commands, ¬command.NamesService) (h : Twins scope same w v) :
    answersFor scope (cache.thinned scope commands w)
        ((cache.run (cache.thinned scope commands w)).run v).1 =
      answersFor scope commands ((cache.run commands).run w).1 ∧
    Grown scope same ((cache.run commands).run w).2
      ((cache.run (cache.thinned scope commands w)).run v).2 := by
  induction commands generalizing same w v with
  | nil => exact ⟨rfl, h.grown⟩
  | cons command rest ih =>
    obtain ⟨hfirst, hrest⟩ := List.forall_mem_cons.1 hcommands
    rw [thinned]
    by_cases hconcerns : command.Concerns scope
    · obtain ⟨hreply, same', hle, htwins⟩ := step_of_concerns hbackend h hconcerns hfirst
      obtain ⟨hanswers, hgrown⟩ := ih hrest htwins
      rw [if_pos hconcerns, run_cons, run_cons, answersFor_cons, answersFor_cons, hreply, hanswers]
      exact ⟨rfl, hgrown.trans hle⟩
    · have htwins := step_of_not_concerns hbackend h hconcerns
      obtain ⟨hanswers, hgrown⟩ := ih hrest htwins
      rw [if_neg hconcerns, run_cons, run_cons, answersFor_cons, answersFor_cons,
        answerFor_of_not_concerns hconcerns]
      exact ⟨hanswers, hgrown⟩

end Separated

/-- If the backend keeps a scope apart, nothing of a run that does not concern the scope makes a
difference to it: without all that, the questions about the scope are answered the same, the
backend is asked the same about it, in the same order and at the same times, and its lookups end
the same. An event that invalidates a module drops the services of this module, and leaves all
others as they were. -/
theorem tenants_are_isolated (cache : DecisionCache σ) {scope : Scope}
    (hbackend : cache.backend.Separates scope) (start : σ) (now : Instant)
    {commands : List Command} (hcommands : ∀ command ∈ commands, ¬command.NamesService) :
    (let all := (cache.run commands).run (.initial start now)
      let kept := cache.thinned scope commands (.initial start now)
      let alone := (cache.run kept).run (.initial start now)
      answersFor scope kept alone.1 = answersFor scope commands all.1 ∧
      alone.2.callsFor scope = all.2.callsFor scope ∧
      alone.2.reportsFor scope = all.2.reportsFor scope) ∧
    ∀ m command, command.Invalidates m →
      let w := cache.after commands (.initial start now)
      Drops m w ((cache.perform command).run w).2 := by
  constructor
  · obtain ⟨hanswers, same, -, htwins⟩ :=
      twins_run hbackend hcommands (twins_initial scope start start now)
    exact ⟨hanswers, htwins.calls, htwins.reports⟩
  · intro m command hinvalidates
    have hreached := cache.leads_run commands (.initial start now)
    show Drops m _ ((cache.perform command).run _).2
    rw [run_perform_of_invalidates hinvalidates]
    exact drops_invalidate (Leads.coherent hreached (coherent_initial start now)) m

/-! ## A tenant and a neighbour -/

/-- A reader of a wiki. -/
def reader : Scope :=
  ⟨⟨"wiki"⟩, ⟨"ada"⟩⟩

/-- A customer of a shop. -/
def customer : Scope :=
  ⟨⟨"shop"⟩, ⟨"bob"⟩⟩

/-- The answer yes or no, where it can be given. -/
def yesOrNo (yes : Bool) : (q : Question) → q.Answer
  | .action _ => yes
  | .group _ => yes
  | .resource _ => yes
  | q => q.nothing

/-- A cache over a backend that lets the reader read by day. It serves all others every other time,
and each time it stops the shop. -/
def sharedCache : DecisionCache Nat where
  limits := ⟨1000, 10⟩
  backend :=
    { react := fun l count =>
        let yes := if l.scope = reader then l.now < 600 else count % 2 = 0
        (⟨if l.scope = reader then [] else [.event customer.module .stop],
          fun _ later => (⟨3, .ok (yesOrNo yes l.question)⟩, later)⟩, count + 1) }
  depth := 1

theorem separates_reader : sharedCache.backend.Separates reader where
  own := by
    intro l hl
    refine ⟨[], ⟨3, .ok (yesOrNo (l.now < 600) l.question)⟩, nofun, fun count => ⟨if_pos hl, ?_⟩⟩
    intro replies later
    simp only [sharedCache, hl, if_true]
  others := by
    intro l count hl command hmem
    rw [show (sharedCache.backend.react l count).1.commands = [.event customer.module .stop] from
      if_neg hl, List.mem_singleton] at hmem
    subst hmem
    exact of_decide_eq_true rfl

/-- What the two do by turns. -/
def turns : List Command :=
  [.ask customer (.action "buy"), .ask reader (.action "read"), .wait 700, .evict,
    .ask customer (.action "buy"), .event customer.module .stop, .ask reader (.action "read"),
    .event reader.module .securityChanged, .ask reader (.action "read")]

/-- What a reply says, if it says yes or no. -/
def saysYes : Reply → Option Bool
  | .finding (.ok (.truth yes)) => some yes
  | _ => none

/-- The reader is told the same if the customer stays away: that reading is allowed, which is
remembered, and by night that it is not. -/
theorem reader_alone :
    (∀ command ∈ turns, ¬command.NamesService) ∧
    (answersFor reader (sharedCache.thinned reader turns (.initial 0 0))
      ((sharedCache.run (sharedCache.thinned reader turns (.initial 0 0))).run
        (.initial 0 0)).1).map saysYes = [some true, some true, some false] := by
  have hunnamed : ∀ command ∈ turns, ¬command.NamesService := by
    simp [turns, Command.NamesService]
  obtain ⟨⟨hanswers, -⟩, -⟩ := tenants_are_isolated sharedCache separates_reader 0 0 hunnamed
  refine ⟨hunnamed, ?_⟩
  rw [hanswers]
  decide +kernel

end DecisionCache

end Gatehouse
