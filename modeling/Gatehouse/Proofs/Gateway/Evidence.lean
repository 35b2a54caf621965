import Gatehouse.Gateway.Basic
import Gatehouse.Proofs.Access.Lookups
import Gatehouse.Proofs.Auth.SignedAddress

/-!
# Access is allowed on evidence only

The gateway allows access only if the permission backend has said something that speaks for it, to
the very service that gives the answer: that the access is granted, or that there are rules which
grant it. It may have said so many requests before.

- `World.Received`: a service was told an answer by the backend, in its own time.
- `World.Evidence`: what speaks for an access.
- `World.AtRest.evidence`: a service that remembers a yes has evidence for it, since everything that
  is remembered has grounds.
- `Gateway.Happening`, `Gateway.after`: whatever happens at a gateway, and the state after it.
- `answered_by_service`: an answer for a scope is one of a service of that scope.
- `Gateway.allows_on_evidence`: a check is answered with 200 only if the caller is authenticated and
  there is evidence. An authenticated check of a module that exists is answered with 403 whenever
  it has no answer, and when the answer is no.
-/

namespace Gatehouse

namespace World

variable {σ : Type} {backend : PermissionBackend σ} {w : World σ} {id : ServiceId}
  {service : Service}

/-! ## Evidence -/

/-- A service was told an answer by the backend, in a lookup for its scope that ended after the
service was created and before the deadline. -/
def Received (w : World σ) (backend : PermissionBackend σ) (id : ServiceId) (service : Service)
    (q : Question) (answer : q.Answer) : Prop :=
  ∃ now deadline ended,
    (⟨id, ⟨service.scope, q, now, deadline⟩, ended, some (.ok answer)⟩ : LookupReport) ∈ w.lookups ∧
    (∃ state replies state', ((backend.react ⟨service.scope, q, now, deadline⟩ state).1.conclude
      replies state').1.result = .ok answer) ∧
    service.createdAt ≤ ended ∧ ended ≤ deadline

/-- A service was told that something may be done to a resource, or rules that permit it. -/
def GrantsResource (w : World σ) (backend : PermissionBackend σ) (id : ServiceId)
    (service : Service) (p : ResourcePermission) : Prop :=
  w.Received backend id service (.resource p) true ∨
    ∃ rules : GroupRules, w.Received backend id service .rules rules ∧ rules.grant p = true

/-- What speaks for an access: the backend grants it directly, or it grants an action everywhere, or
there are rules that permit it. -/
def Evidence (w : World σ) (backend : PermissionBackend σ) (id : ServiceId) (service : Service) :
    AccessQuery → Prop
  | .action name =>
    w.Received backend id service (.action name) true ∨
      w.GrantsResource backend id service (.everywhere name)
  | .group name =>
    w.Received backend id service (.group name) true ∨
      ∃ rules : GroupRules, w.Received backend id service .rules rules ∧ rules.hasGroup name = true
  | .resource p =>
    w.GrantsResource backend id service (.of p.resourceClass p.resourceId p.action)

theorem Recorded.received (hw : w.Recorded) (hreported : ∀ report ∈ w.lookups, backend.Says report)
    (hs : w.service? id = some service) {q : Question} {answer : q.Answer}
    (h : w.Heard id q answer) : w.Received backend id service q answer := by
  obtain ⟨scope, now, deadline, ended, hintime, hmem⟩ := h
  obtain ⟨service', hs', hscope, hcreated, -⟩ := hw.reports _ hmem
  rw [hs] at hs'
  cases hs'
  obtain ⟨state, replies, state', hresult⟩ := hreported _ hmem _ rfl
  cases hscope
  exact ⟨now, deadline, ended, hmem, ⟨state, replies, state', hresult⟩, hcreated, hintime⟩

/-- A service that remembers a yes has evidence for it. -/
theorem AtRest.evidence (hw : w.AtRest) (hreported : ∀ report ∈ w.lookups, backend.Says report)
    (hs : w.service? id = some service) {query : AccessQuery} {answer : query.question.Answer}
    (hslot : w.slot id query.question = .filled answer) (hyes : query.holds answer = true) :
    w.Evidence backend id service query := by
  have hreceived : ∀ {q : Question} {answer : q.Answer}, w.Heard id q answer →
      w.Received backend id service q answer := hw.recorded.received hreported hs
  have hrules : ∀ {rules}, w.slot id .rules = .filled rules →
      w.Received backend id service .rules rules :=
    fun hfilled => hreceived (hw.grounded _ _ _ hfilled)
  have hresource : ∀ {p : ResourcePermission}, w.slot id (.resource p) = .filled true →
      w.GrantsResource backend id service p := by
    intro p hfilled
    rcases hw.grounded.resource hfilled with ⟨hheard, -⟩ | ⟨-, rules, hfound, hgrant⟩
    · exact .inl (hreceived hheard)
    · exact .inr ⟨rules, hrules hfound, hgrant.symm⟩
  cases query with
  | action name =>
    obtain rfl : answer = true := hyes
    rcases hw.grounded _ _ _ hslot with ⟨hheard, -⟩ | ⟨-, heverywhere⟩
    · exact .inl (hreceived hheard)
    · exact .inr (hresource heverywhere)
  | group name =>
    obtain rfl : answer = true := hyes
    rcases hw.grounded _ _ _ hslot with ⟨hheard, -⟩ | ⟨-, rules, hfound, hmember⟩
    · exact .inl (hreceived hheard)
    · exact .inr ⟨rules, hrules hfound, hmember.symm⟩
  | resource p =>
    obtain rfl : answer = true := hyes
    exact hresource hslot

end World

/-! ## Who answers -/

/-- The answer is there, and it is yes. -/
def AccessQuery.Granted (query : AccessQuery)
    (outcome : Except AuthzError query.question.Answer) : Prop :=
  ∃ answer, outcome = .ok answer ∧ query.holds answer = true

section Answers

open World

variable {σ : Type} {limits : CacheLimits} {consult : Consult σ}

/-- An answer for a scope is the answer of one service of that scope. -/
theorem answered_by_service (hconsult : Decision.Reliable limits consult) (retries : Nat)
    {scope : Scope} {q : Question} {answer : q.Answer} {w w' : World σ} (hw : w.Coherent)
    (h : (answerWithin limits consult retries scope q).run w = (.ok answer, w')) :
    ∃ id service w₁, w₁.service? id = some service ∧ service.scope = scope ∧
      (Decision.answerFrom limits consult id q).run w₁ = (.ok answer, w') := by
  obtain ⟨w₁, hsettles, hrun⟩ := fetched_of_answered hconsult h
  obtain ⟨service, hs, hscope, -⟩ :=
    (Leads.coherent hsettles.steps.leads hw).fetched limits scope
  exact ⟨_, service, _, hs, hscope, hrun⟩

end Answers

/-! ## Whatever happens at a gateway -/

/-- Something that happens at a gateway: a request arrives, or the decision cache is given a
command, such as to let time pass. -/
inductive Happening where
  | request (r : Request) (readable : Bool) (now : Moment)
  | command (c : Command)

namespace Gateway

open World

variable {σ τ : Type} (g : Gateway σ τ)

/-- The state after something has happened. -/
def happen (s : GatewayState σ τ) : Happening → GatewayState σ τ
  | .request r readable now => ((g.serve r readable now).run s).2
  | .command c => ((onWorld (g.decisions.perform c)).run s).2

/-- The state after a number of things have happened. -/
def after (happenings : List Happening) (s : GatewayState σ τ) : GatewayState σ τ :=
  happenings.foldl g.happen s

/-- The world goes on by commands and lookups of a decision cache. -/
structure Evolves (cache : DecisionCache τ) (w w' : World τ) : Prop where
  settles : Settles cache.limits w w'
  reports : Extends cache.backend 0 w w'

section Evolution

variable {cache : DecisionCache τ} {w w' w'' : World τ}

theorem Evolves.refl (w : World τ) : Evolves cache w w :=
  ⟨Settles.refl w, Extends.refl w⟩

theorem Evolves.trans (h₁ : Evolves cache w w') (h₂ : Evolves cache w' w'') :
    Evolves cache w w'' :=
  ⟨h₁.settles.trans h₂.settles, h₁.reports.trans h₂.reports⟩

theorem evolves_perform (cache : DecisionCache τ) (c : Command) (w : World τ) :
    Evolves cache w ((cache.perform c).run w).2 :=
  ⟨settles_perform cache.reliable_consult c w, (cache.extends_performed c w).mono (Nat.zero_le _)⟩

theorem evolves_passTo (cache : DecisionCache τ) (w : World τ) (instant : Instant) :
    Evolves cache w (w.passTo instant) := by
  rw [passTo_eq_pass]
  exact ⟨settles_pass cache.limits w _, .of_lookups_eq (Nat.le_add_right _ _) rfl⟩

theorem evolves_answerScope (cache : DecisionCache τ) (scope : Scope) (q : Question) (w : World τ) :
    Evolves cache w ((cache.answerScope scope q).run w).2 where
  settles := settles_answerWithin cache.reliable_consult invalidationRetries scope q w
  reports := (extends_answerWithin cache.reliable_consult (timely_consultAt cache.backend _)
    invalidationRetries scope q w).mono (Nat.zero_le _)

/-- Whenever the answer to a query is yes, some service of the scope has given it, and has evidence
for it. -/
theorem evidence_of_answer {start : τ} {tick : Instant}
    (hbefore : Evolves cache (.initial start tick) w) {scope : Scope} {query : AccessQuery}
    {answer : query.question.Answer}
    (hdecided : (cache.answerScope scope query.question).run w = (.ok answer, w'))
    (hyes : query.holds answer = true) :
    ∃ id service w₁, (cache.answerFrom id query.question).run w₁ = (.ok answer, w') ∧
      w'.service? id = some service ∧ service.scope = scope ∧
      w'.Evidence cache.backend id service query := by
  have hdecision := evolves_answerScope cache scope query.question w
  rw [hdecided] at hdecision
  have hall : Evolves cache (.initial start tick) w' := hbefore.trans hdecision
  have hcoherent : w.Coherent :=
    Leads.coherent hbefore.settles.steps.leads (coherent_initial start tick)
  obtain ⟨id, service₁, w₁, hs₁, hscope₁, hfrom⟩ := answered_by_service
    cache.reliable_consult invalidationRetries hcoherent hdecided
  -- the service is the same when the decision ends, and it remembers the answer then
  have hsettles := settles_answerFrom cache.reliable_consult id query.question w₁
  rw [hfrom] at hsettles
  obtain ⟨service, hs, hlater⟩ := hsettles.later hs₁
  have hslot := Decision.slot_of_run_answerFrom cache.reliable_consult hfrom
  have hrest : AtRest w' := (atRest_initial start tick).settles hall.settles
  exact ⟨id, service, w₁, hfrom, hs, hlater.scope.trans hscope₁,
    hrest.evidence hall.reports.reported hs hslot hyes⟩

end Evolution

theorem evolves_answerCheck (principal : Principal) (m : String) (query : AccessQuery)
    (s : GatewayState σ τ) :
    Evolves g.decisions s.world ((g.answerCheck principal m query).run s).2.world := by
  unfold answerCheck
  cases ModuleName.ofString m with
  | error e => exact Evolves.refl s.world
  | ok m => exact evolves_answerScope g.decisions ⟨m, principal.consumerKey⟩ query.question s.world

theorem evolves_answerEvent (principal : Principal) (m action : String) (s : GatewayState σ τ) :
    Evolves g.decisions s.world ((g.answerEvent principal m action).run s).2.world := by
  unfold answerEvent
  by_cases hadmin : principal.hasAuthority adminAuthority = true
  · rw [if_pos hadmin]
    cases ModuleName.ofString m with
    | error e => exact Evolves.refl s.world
    | ok m =>
      cases ModuleAction.ofText action with
      | error e => exact Evolves.refl s.world
      | ok action => exact evolves_perform g.decisions (.event m action) s.world
  · rw [if_neg hadmin]
    exact Evolves.refl s.world

/-- What a request that has to be authenticated comes to: a refusal, or the answer to the caller. -/
theorem run_answerCaller (r : Request) (now : Moment)
    (answer : Principal → StateM (GatewayState σ τ) Response) (s : GatewayState σ τ) :
    (g.answerCaller r now answer).run s =
      match (Authentication.authenticate g.settings g.identities r now).run s.auth with
      | (.error e, auth) => (unauthorized g.settings now.epochMs e, { s with auth })
      | (.ok principal, auth) => (answer principal).run { s with auth } := by
  have honAuth : (onAuth (Authentication.authenticate g.settings g.identities r now).run :
      StateM (GatewayState σ τ) _).run s =
      let authenticated := (Authentication.authenticate g.settings g.identities r now).run s.auth
      (authenticated.1, { s with auth := authenticated.2 }) :=
    rfl
  rw [answerCaller, StateT.run_bind, honAuth]
  cases (Authentication.authenticate g.settings g.identities r now).run s.auth with
  | mk outcome auth =>
    cases outcome with
    | error e => rfl
    | ok principal => rfl

theorem run_handle (r : Request) (now : Moment) (s : GatewayState σ τ) :
    (g.handle r now).run s =
      (match Route.of r.method r.uri.path with
      | .health => (return .json 200 [("status", .string "running")])
      | .notFound => (return .problem 404 "not found")
      | .check m query => g.answerCaller r now fun principal => g.answerCheck principal m query
      | .event m action => g.answerCaller r now fun principal => g.answerEvent principal m action :
        StateM (GatewayState σ τ) Response).run { s with world := s.world.passTo now.tick } := by
  rfl

theorem evolves_answerCaller (r : Request) (now : Moment)
    {answer : Principal → StateM (GatewayState σ τ) Response}
    (hanswer : ∀ principal s, Evolves g.decisions s.world ((answer principal).run s).2.world)
    (s : GatewayState σ τ) :
    Evolves g.decisions s.world ((g.answerCaller r now answer).run s).2.world := by
  rw [run_answerCaller]
  cases (Authentication.authenticate g.settings g.identities r now).run s.auth with
  | mk outcome auth =>
    cases outcome with
    | error e => exact Evolves.refl s.world
    | ok principal => exact hanswer principal { s with auth }

theorem evolves_handle (r : Request) (now : Moment) (s : GatewayState σ τ) :
    Evolves g.decisions s.world ((g.handle r now).run s).2.world := by
  refine (evolves_passTo g.decisions s.world now.tick).trans ?_
  rw [run_handle]
  cases Route.of r.method r.uri.path with
  | health => exact Evolves.refl _
  | notFound => exact Evolves.refl _
  | check m query =>
    exact g.evolves_answerCaller r now (fun principal => g.evolves_answerCheck principal m query)
      { s with world := s.world.passTo now.tick }
  | event m action =>
    exact g.evolves_answerCaller r now (fun principal => g.evolves_answerEvent principal m action)
      { s with world := s.world.passTo now.tick }

theorem evolves_after (happenings : List Happening) (s : GatewayState σ τ) :
    Evolves g.decisions s.world (g.after happenings s).world := by
  induction happenings generalizing s with
  | nil => exact Evolves.refl s.world
  | cons happening rest ih =>
    refine Evolves.trans ?_ (ih (g.happen s happening))
    cases happening with
    | command c => exact evolves_perform g.decisions c s.world
    | request r readable now =>
      cases readable with
      | true => exact g.evolves_handle r now s
      | false => exact Evolves.refl s.world

/-! ## Access is allowed on evidence only -/

/-- What comes of a check is 200 for a yes, and 403 for anything else. -/
theorem status_checked (scope : Scope) {query : AccessQuery}
    (outcome : Except AuthzError query.question.Answer) :
    query.Granted outcome ∧ (checked scope (query.decision outcome)).status = 200 ∨
      ¬query.Granted outcome ∧ (checked scope (query.decision outcome)).status = 403 := by
  cases outcome with
  | error e =>
    refine .inr ⟨?_, rfl⟩
    rintro ⟨answer, hanswer, -⟩
    cases hanswer
  | ok answer =>
    cases hyes : query.holds answer with
    | true =>
      refine .inl ⟨⟨answer, rfl, hyes⟩, ?_⟩
      rw [AccessQuery.decision, hyes]
      rfl
    | false =>
      refine .inr ⟨?_, ?_⟩
      · rintro ⟨answer', hanswer, hyes'⟩
        cases hanswer
        rw [hyes] at hyes'
        cases hyes'
      · rw [AccessQuery.decision, hyes]
        rfl

theorem run_answerCheck_of_invalid (principal : Principal) {m : String} {e : InvalidModuleName}
    (hmodule : ModuleName.ofString m = .error e) (query : AccessQuery) (s : GatewayState σ τ) :
    (g.answerCheck principal m query).run s = (.problem 400 e.message, s) := by
  rw [answerCheck, hmodule]
  rfl

/-- A check of a module by an authenticated caller comes to what the decision comes to. -/
theorem run_answerCheck (principal : Principal) {m : String} {module : ModuleName}
    (hmodule : ModuleName.ofString m = .ok module) (query : AccessQuery) (s : GatewayState σ τ) :
    (g.answerCheck principal m query).run s =
      let scope : Scope := ⟨module, principal.consumerKey⟩
      let decided := (g.decisions.answerScope scope query.question).run s.world
      (checked scope (query.decision decided.1), { s with world := decided.2 }) := by
  rw [answerCheck, hmodule]
  rfl

/-- A check is answered with 200 only if the caller is authenticated, and a service of the caller's
scope gives an answer for which it has evidence. An authenticated check of a module that exists is
answered with 403 in all other cases: if the answer is no, and if there is none because the backend
has failed or was late, or because the module was invalidated over and over. -/
theorem allows_on_evidence (auth : AuthState σ) (start : τ) (tick : Instant)
    (happenings : List Happening) (r : Request) (now : Moment) {m : String} {query : AccessQuery}
    (hroute : Route.of r.method r.uri.path = .check m query) :
    let s := g.after happenings ⟨auth, .initial start tick⟩
    let run := (g.handle r now).run s
    let caller := (Authentication.authenticate g.settings g.identities r now).run s.auth
    (run.1.status = 200 → ∃ principal module id service w answer,
      caller.1 = .ok principal ∧ ModuleName.ofString m = .ok module ∧
      (g.decisions.answerFrom id query.question).run w = (.ok answer, run.2.world) ∧
      query.holds answer = true ∧ run.2.world.service? id = some service ∧
      service.scope = ⟨module, principal.consumerKey⟩ ∧
      run.2.world.Evidence g.decisions.backend id service query) ∧
    (∀ principal module, caller.1 = .ok principal → ModuleName.ofString m = .ok module →
      let outcome := ((g.decisions.answerScope ⟨module, principal.consumerKey⟩ query.question).run
        (s.world.passTo now.tick)).1
      query.Granted outcome ∧ run.1.status = 200 ∨
        ¬query.Granted outcome ∧ run.1.status = 403) := by
  intro s run caller
  have hbefore : Evolves g.decisions (.initial start tick) s.world :=
    g.evolves_after happenings ⟨auth, .initial start tick⟩
  have hrun : run = match caller with
      | (.error e, auth) => (unauthorized g.settings now.epochMs e,
          { s with auth, world := s.world.passTo now.tick })
      | (.ok principal, auth) => (g.answerCheck principal m query).run
          { s with auth, world := s.world.passTo now.tick } := by
    show (g.handle r now).run s = _
    rw [run_handle, hroute]
    exact g.run_answerCaller r now _ _
  rcases hcaller : caller with ⟨e | principal, auth'⟩
  · rw [hcaller] at hrun
    rw [hrun]
    exact ⟨fun hstatus => absurd hstatus (show ¬401 = 200 by decide), nofun⟩
  rw [hcaller] at hrun
  change run = (g.answerCheck principal m query).run
    { s with auth := auth', world := s.world.passTo now.tick } at hrun
  rcases hmodule : ModuleName.ofString m with e | module
  · rw [g.run_answerCheck_of_invalid principal hmodule] at hrun
    rw [hrun]
    exact ⟨fun hstatus => absurd hstatus (show ¬400 = 200 by decide), nofun⟩
  -- the caller is authenticated and the module exists: everything depends on the decision
  rw [g.run_answerCheck principal hmodule] at hrun
  rcases hdecided : (g.decisions.answerScope ⟨module, principal.consumerKey⟩ query.question).run
    (s.world.passTo now.tick) with ⟨outcome, w'⟩
  have hresponse : run.1 = checked ⟨module, principal.consumerKey⟩ (query.decision outcome) := by
    rw [hrun]
    show checked _ (query.decision ((g.decisions.answerScope _ query.question).run _).1) = _
    rw [hdecided]
  have hworld : run.2.world = w' := by
    rw [hrun]
    show ((g.decisions.answerScope _ query.question).run _).2 = _
    rw [hdecided]
  have hstatus := status_checked ⟨module, principal.consumerKey⟩ outcome
  rw [← hresponse] at hstatus
  refine ⟨?allowed, ?decided⟩
  case decided =>
    rintro _ _ ⟨⟩ ⟨⟩
    show query.Granted ((g.decisions.answerScope _ query.question).run _).1 ∧ _ ∨
      ¬query.Granted ((g.decisions.answerScope _ query.question).run _).1 ∧ _
    rw [hdecided]
    exact hstatus
  case allowed =>
    intro h200
    rcases hstatus with ⟨⟨answer, rfl, hyes⟩, -⟩ | ⟨-, h403⟩
    · have hmeanwhile := hbefore.trans (evolves_passTo g.decisions s.world now.tick)
      obtain ⟨id, service, w, hfrom, hs, hscope, hevidence⟩ :=
        evidence_of_answer hmeanwhile hdecided hyes
      rw [hworld]
      exact ⟨principal, module, id, service, w, answer, rfl, rfl, hfrom, hyes, hs, hscope,
        hevidence⟩
    · rw [h200] at h403
      cases h403

/-! ## A grant that is remembered -/

namespace Sample

/-- A backend that grants the first action it is asked about, and nothing later on. -/
def fickleBackend : PermissionBackend Bool where
  react l first :=
    (.immediate (.ok (match l.question with
      | .action _ => first
      | q => q.nothing)), false)

/-- A gateway in front of it, with one consumer. -/
def fickleGateway : Gateway Registry Bool :=
  ⟨OAuth.Sample.settings, Registry.backend, ⟨⟨100, 10⟩, fickleBackend, 0⟩⟩

/-- The consumer asks whether it may read the wiki. -/
def mayRead : Request where
  method := "GET"
  uri := ⟨none, none, "/modules/wiki/actions/read",
    some ("oauth_consumer_key=c&oauth_signature_method=PLAINTEXT&oauth_timestamp=1000" ++
      "&oauth_nonce=n&oauth_signature=s%26")⟩
  headers := [("host", Utf8.ofString "h")]
  body := []

/-- What happens before: the same is asked on behalf of the consumer. -/
def askedBefore : List Happening :=
  [.command (.ask ⟨⟨"wiki"⟩, ⟨"c"⟩⟩ (.action "read"))]

/-- The state in which the request arrives. -/
def asked : GatewayState Registry Bool :=
  fickleGateway.after askedBefore ⟨OAuth.Sample.start, .initial true 0⟩

/-- What comes of the request. -/
def reading : Response × GatewayState Registry Bool :=
  (fickleGateway.handle mayRead Authentication.Sample.moment).run asked

end Sample

open Sample in
/-- Reading is allowed, though the backend grants nothing any more, as there is evidence for it. -/
theorem reading_allowed_on_evidence :
    reading.1.status = 200 ∧ asked.world.backend = false ∧
      ∃ id service, reading.2.world.service? id = some service ∧
        reading.2.world.Evidence fickleBackend id service (.action "read") := by
  have hroute : Route.of mayRead.method mayRead.uri.path = .check "wiki" (.action "read") := by
    decide +kernel
  have hstatus : reading.1.status = 200 := by decide +kernel
  have hforgotten : asked.world.backend = false := by decide +kernel
  refine ⟨hstatus, hforgotten, ?_⟩
  rw [reading, asked] at hstatus ⊢
  obtain ⟨-, -, id, service, -, -, -, -, -, -, hs, -, hevidence⟩ :=
    (allows_on_evidence fickleGateway OAuth.Sample.start true 0 askedBefore mayRead
      Authentication.Sample.moment hroute).1 hstatus
  exact ⟨id, service, hs, hevidence⟩

end Gateway

end Gatehouse
