import Gatehouse.Proofs.Access.Frame
import Gatehouse.Proofs.Gateway.Evidence

/-!
# Who may change what

A request changes what the gateway remembers only as far as its sender is entitled to. Whoever is
turned away changes nothing; a caller who asks for a check may have things looked up about the
caller's own scope; and only an administrator can have the decisions of others dropped, those of one
module, by telling that it stopped or that its rules changed.

- `Gateway.Refused`: the answers that turn a request away, and the one that tells of good health.
- `Gateway.Checks`, `Gateway.Orders`: what entitles a request to touch a scope.
- `Gateway.Deed` and `deed_handle`: everything that a request can come to.
- `Gateway.touches_with_authority`: whatever a request touches, it is entitled to.

A permission backend may give commands of its own while it is asked. These are told apart from what
the request does: they are noted in the journal (`World.Disturbed`).
-/

namespace Gatehouse

namespace Gateway

open World

variable {σ τ : Type} (g : Gateway σ τ) (r : Request) (now : Moment) (s : GatewayState σ τ)

/-- Who sent a request. -/
def caller : Except AuthError Principal :=
  ((Authentication.authenticate g.settings g.identities r now).run s.auth).1

/-- A request is not served, or it only asks for the health of the gateway. A check that is denied
is served. -/
inductive Refused (route : Route) (response : Response) : Prop where
  | health (hroute : route = .health)
  | notFound (hstatus : response.status = 404)
  | unauthorized (hstatus : response.status = 401)
  | invalid (hstatus : response.status = 400)
  | forbidden (m action : String) (hroute : route = .event m action)
    (hstatus : response.status = 403)

/-- A request is a check, and the scope is the one that its sender asks about. -/
def Checks (scope : Scope) : Prop :=
  ∃ m query principal, Route.of r.method r.uri.path = .check m query ∧
    g.caller r now s = .ok principal ∧ ModuleName.ofString m = .ok scope.module ∧
    principal.consumerKey = scope.consumer

/-- A request tells that a module stopped or that its rules changed, and an administrator sent
it. -/
def Orders (module : ModuleName) : Prop :=
  ∃ m text action principal, Route.of r.method r.uri.path = .event m text ∧
    g.caller r now s = .ok principal ∧ principal.hasAuthority adminAuthority = true ∧
    ModuleName.ofString m = .ok module ∧ ModuleAction.ofText text = .ok action ∧
    (action = .stop ∨ action = .securityChanged)

/-- Everything that a request can come to: it is refused, it is a check that is decided, or it is an
event that is delivered. -/
inductive Deed : Response → World τ → Prop where
  | refused (response : Response)
    (hrefused : Refused (Route.of r.method r.uri.path) response) :
    Deed response (s.world.passTo now.tick)
  | decided (m : String) (query : AccessQuery) (principal : Principal) (module : ModuleName)
    (outcome : Except AuthzError query.question.Answer) (w : World τ)
    (hroute : Route.of r.method r.uri.path = .check m query)
    (hcaller : g.caller r now s = .ok principal) (hmodule : ModuleName.ofString m = .ok module)
    (hrun : (g.decisions.answerScope ⟨module, principal.consumerKey⟩ query.question).run
      (s.world.passTo now.tick) = (outcome, w)) :
    Deed (checked ⟨module, principal.consumerKey⟩ (query.decision outcome)) w
  | delivered (m text : String) (principal : Principal) (module : ModuleName)
    (action : ModuleAction) (hroute : Route.of r.method r.uri.path = .event m text)
    (hcaller : g.caller r now s = .ok principal)
    (hadmin : principal.hasAuthority adminAuthority = true)
    (hmodule : ModuleName.ofString m = .ok module)
    (haction : ModuleAction.ofText text = .ok action) :
    Deed (.json 200 [("module", .string module.text), ("action", .string action.text)])
      ((g.decisions.perform (.event module action)).run (s.world.passTo now.tick)).2

variable {g r now s}

theorem deed_answerCheck {m : String} {query : AccessQuery} {principal : Principal}
    (hroute : Route.of r.method r.uri.path = .check m query)
    (hcaller : g.caller r now s = .ok principal) (auth : AuthState σ) :
    let run := (g.answerCheck principal m query).run ⟨auth, s.world.passTo now.tick⟩
    Deed g r now s run.1 run.2.world := by
  cases hmodule : ModuleName.ofString m with
  | error e =>
    rw [g.run_answerCheck_of_invalid principal hmodule]
    exact .refused _ (.invalid rfl)
  | ok module =>
    rw [g.run_answerCheck principal hmodule]
    exact .decided m query principal module _ _ hroute hcaller hmodule rfl

theorem deed_answerEvent {m text : String} {principal : Principal}
    (hroute : Route.of r.method r.uri.path = .event m text)
    (hcaller : g.caller r now s = .ok principal) (auth : AuthState σ) :
    let run := (g.answerEvent principal m text).run ⟨auth, s.world.passTo now.tick⟩
    Deed g r now s run.1 run.2.world := by
  unfold answerEvent
  by_cases hadmin : principal.hasAuthority adminAuthority = true
  · rw [if_pos hadmin]
    cases hmodule : ModuleName.ofString m with
    | error e => exact .refused _ (.invalid rfl)
    | ok module =>
      cases haction : ModuleAction.ofText text with
      | error e => exact .refused _ (.invalid rfl)
      | ok action =>
        exact .delivered m text principal module action hroute hcaller hadmin hmodule haction
  · rw [if_neg hadmin]
    exact .refused _ (.forbidden m text hroute rfl)

/-- A request that has to be authenticated is refused if it is not. -/
theorem deed_answerCaller {answer : Principal → StateM (GatewayState σ τ) Response}
    (hanswer : ∀ principal, g.caller r now s = .ok principal → ∀ auth,
      Deed g r now s ((answer principal).run ⟨auth, s.world.passTo now.tick⟩).1
        ((answer principal).run ⟨auth, s.world.passTo now.tick⟩).2.world) :
    let run := (g.answerCaller r now answer).run { s with world := s.world.passTo now.tick }
    Deed g r now s run.1 run.2.world := by
  rw [run_answerCaller]
  cases hrun : (Authentication.authenticate g.settings g.identities r now).run s.auth with
  | mk outcome auth =>
    have hcaller : g.caller r now s = outcome := by rw [caller, hrun]
    cases outcome with
    | error e => exact .refused _ (.unauthorized rfl)
    | ok principal => exact hanswer principal hcaller auth

theorem deed_handle (g : Gateway σ τ) (r : Request) (now : Moment) (s : GatewayState σ τ) :
    Deed g r now s ((g.handle r now).run s).1 ((g.handle r now).run s).2.world := by
  rw [run_handle]
  cases hroute : Route.of r.method r.uri.path with
  | health => exact .refused _ (.health hroute)
  | notFound => exact .refused _ (.notFound rfl)
  | check m query =>
    exact deed_answerCaller fun principal hcaller auth => deed_answerCheck hroute hcaller auth
  | event m text =>
    exact deed_answerCaller fun principal hcaller auth => deed_answerEvent hroute hcaller auth

/-- A check that is refused is not answered in the way of one that is decided. -/
theorem Refused.status_check {m : String} {query : AccessQuery} {response : Response}
    (h : Refused (.check m query) response) : response.status ∉ [200, 403] := by
  cases h with
  | health hroute => cases hroute
  | notFound hstatus => exact hstatus ▸ by decide
  | unauthorized hstatus => exact hstatus ▸ by decide
  | invalid hstatus => exact hstatus ▸ by decide
  | forbidden m action hroute hstatus => cases hroute

/-- An event that is refused is not answered in the way of one that is delivered. -/
theorem Refused.status_event {m action : String} {response : Response}
    (h : Refused (.event m action) response) : response.status ≠ 200 := by
  cases h with
  | health hroute => cases hroute
  | notFound hstatus => exact hstatus ▸ by decide
  | unauthorized hstatus => exact hstatus ▸ by decide
  | invalid hstatus => exact hstatus ▸ by decide
  | forbidden m action hroute hstatus => exact hstatus ▸ by decide

/-- A request that is refused changes nothing. -/
theorem Deed.of_refused {response : Response} {w : World τ} (h : Deed g r now s response w)
    (hrefused : Refused (Route.of r.method r.uri.path) response) :
    w = s.world.passTo now.tick := by
  cases h with
  | refused _ _ => rfl
  | decided m query principal module outcome w hroute hcaller hmodule hrun =>
    rw [hroute] at hrefused
    refine absurd ?_ hrefused.status_check
    rcases status_checked ⟨module, principal.consumerKey⟩ outcome with ⟨-, h⟩ | ⟨-, h⟩
    · exact List.mem_cons.2 (.inl h)
    · exact List.mem_cons_of_mem 200 (List.mem_singleton.2 h)
  | delivered m text principal module action hroute hcaller hadmin hmodule haction =>
    rw [hroute] at hrefused
    exact absurd rfl hrefused.status_event

/-- An event only touches the scopes of its module, and only if it invalidates. -/
theorem aside_event (cache : DecisionCache τ) {w : World τ} (hw : w.Coherent) {scope : Scope}
    {module : ModuleName} {action : ModuleAction}
    (h : ¬(module = scope.module ∧ (action = .stop ∨ action = .securityChanged))) :
    Aside scope w ((cache.perform (.event module action)).run w).2 := by
  cases action with
  | start => exact Aside.refl scope w
  | startFailed => exact Aside.refl scope w
  | stop => exact aside_invalidate hw fun hmodule => h ⟨hmodule, .inl rfl⟩
  | securityChanged => exact aside_invalidate hw fun hmodule => h ⟨hmodule, .inr rfl⟩

/-- The backend of a policy gives no commands, so it disturbs nobody. -/
theorem not_disturbed_ofConfig (c : Config) (scope : Scope) (w w' : World Entitlements) :
    ¬Disturbed (ofConfig c).decisions.backend scope w w' := by
  rintro ⟨-, l, entitlements, command, -, -, -, -, hgiven, -⟩
  exact absurd hgiven (List.not_mem_nil (a := command))

/-- Whatever a request touches, it is entitled to, unless the backend gave the command. -/
theorem Deed.touches {response : Response} {w : World τ} (h : Deed g r now s response w)
    (hs : s.world.Coherent) (scope : Scope) :
    Aside scope s.world w ∨ g.Checks r now s scope ∨ g.Orders r now s scope.module ∨
      Disturbed g.decisions.backend scope s.world w := by
  have harrival : Aside scope s.world (s.world.passTo now.tick) := aside_passTo s.world now.tick
  cases h with
  | refused _ _ => exact .inl harrival
  | decided m query principal module outcome w hroute hcaller hmodule hrun =>
    by_cases hown : (⟨module, principal.consumerKey⟩ : Scope) = scope
    · subst hown
      exact .inr (.inl ⟨m, query, principal, hroute, hcaller, hmodule, rfl⟩)
    · have hspares := g.decisions.spares_answerScope (w := s.world.passTo now.tick) hs hown
        query.question
      rw [hrun] at hspares
      rcases hspares.spared with haside | hdisturbed
      · exact .inl (harrival.trans haside)
      · exact .inr (.inr (.inr hdisturbed))
  | delivered m text principal module action hroute hcaller hadmin hmodule haction =>
    by_cases htouched : module = scope.module ∧ (action = .stop ∨ action = .securityChanged)
    · obtain ⟨rfl, hinvalidates⟩ := htouched
      exact .inr (.inr (.inl ⟨m, text, action, principal, hroute, hcaller, hadmin, hmodule, haction,
        hinvalidates⟩))
    · exact .inl (harrival.trans
        (aside_event g.decisions (w := s.world.passTo now.tick) hs htouched))

/-- A request that is refused leaves everything that is remembered about decisions as it was, and
nothing is asked of the permission backend. A check only touches the scope that its sender asks
about, and decisions of others are only dropped at the order of an administrator, those of one
module. What the permission backend does while it is asked is its own affair. -/
theorem touches_with_authority (g : Gateway σ τ) (auth : AuthState σ) (start : τ) (tick : Instant)
    (happenings : List Happening) (r : Request) (now : Moment) :
    let s := g.after happenings ⟨auth, .initial start tick⟩
    let run := (g.handle r now).run s
    (Refused (Route.of r.method r.uri.path) run.1 →
      run.2.world = s.world.passTo now.tick) ∧
    ∀ scope, Aside scope s.world run.2.world ∨ g.Checks r now s scope ∨
      g.Orders r now s scope.module ∨
      Disturbed g.decisions.backend scope s.world run.2.world := by
  intro s run
  have hdeed := deed_handle g r now s
  have hreached := (g.evolves_after happenings ⟨auth, .initial start tick⟩).settles.steps.leads
  exact ⟨hdeed.of_refused, hdeed.touches (Leads.coherent hreached (coherent_initial start tick))⟩

end Gateway

end Gatehouse
