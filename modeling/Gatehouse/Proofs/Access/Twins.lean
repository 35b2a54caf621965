import Gatehouse.Proofs.Access.Frame
import Gatehouse.Proofs.Access.Simulation

/-!
# Two worlds that are the same for a scope

Two worlds may differ in everything that was done for other scopes, and in the numbers that
services got: a service is created with the next number that is free, so the numbers depend on
what others do. A relation between the numbers says which services are the same. It is one to one,
it covers the service that is stored, and it only grows: when both worlds create a service, the two
new ones are the same, and nobody named their numbers before.

- `World.Twins`: two worlds that are the same for a scope, up to the numbers of services.
- `Twins.fetch`, `Twins.setSlot`, `Twins.invalidate`, `Twins.evict`: twins stay twins when the same
  is done to both, and `Twins.of_aside` when nothing is done for the scope in either.
- `Decision.Follows`: two computations that come to the same in twins, and lead to twins again.
- `simulation_twins`: decisions for the scope cannot tell twins apart.
- `PermissionBackend.Separates`: backends whose answers about a scope depend on the lookup only.
- `twins_perform`, `agree_ask`, `keeps_consultAt`: such backends keep twins together, however deep
  they ask back.
-/

namespace Gatehouse

/-- What a service makes of a lookup does not depend on its number. -/
theorem LookupReport.outcome_service (limits : CacheLimits) (a b : ServiceId) (lookup : Lookup)
    (ended : Instant) (result : Option (Except BackendError lookup.question.Answer)) :
    LookupReport.outcome limits ⟨a, lookup, ended, result⟩ =
      LookupReport.outcome limits ⟨b, lookup, ended, result⟩ := by
  rcases result with _ | _ | _
  · rfl
  · rfl
  · rfl

namespace World

variable {σ : Type} {limits : CacheLimits} {scope : Scope}
  {same same' : ServiceId → ServiceId → Prop} {w w' v v' : World σ} {a b : ServiceId}

/-- Two worlds that are the same for a scope. Its services may have different numbers in the two. -/
structure Twins (scope : Scope) (same : ServiceId → ServiceId → Prop) (w v : World σ) : Prop where
  now : v.now = w.now
  left : w.Coherent
  right : v.Coherent
  services : ∀ a b, same a b →
    ∃ service, w.service? a = some service ∧ v.service? b = some service ∧ service.scope = scope
  single : ∀ a b a' b', same a b → same a' b' → (a = a' ↔ b = b')
  stored : Option.Rel same (w.store.get? scope) (v.store.get? scope)
  calls : v.callsFor scope = w.callsFor scope
  reports : v.reportsFor scope = w.reportsFor scope

/-- Worlds in which nothing has been asked yet are twins, whatever the backends are like. -/
theorem twins_initial (scope : Scope) (start start' : σ) (now : Instant) :
    Twins scope (fun _ _ => False) (initial start now) (initial start' now) where
  now := rfl
  left := coherent_initial start now
  right := coherent_initial start' now
  services _ _ h := h.elim
  single _ _ _ _ h := h.elim
  stored := .none
  calls := rfl
  reports := rfl

/-! ## What twins have in common -/

theorem Twins.slot (h : Twins scope same w v) (hsame : same a b) (q : Question) :
    v.slot b q = w.slot a q := by
  obtain ⟨service, hs, hs', -⟩ := h.services a b hsame
  rw [slot_eq_of_service hs, slot_eq_of_service hs']

theorem Twins.isInvalidated (h : Twins scope same w v) (hsame : same a b) :
    v.isInvalidated b = w.isInvalidated a := by
  obtain ⟨service, hs, hs', -⟩ := h.services a b hsame
  rw [isInvalidated_eq_of_service hs, isInvalidated_eq_of_service hs']

theorem Twins.isExpired (h : Twins scope same w v) (hsame : same a b) :
    v.isExpired limits b = w.isExpired limits a := by
  obtain ⟨service, hs, hs', -⟩ := h.services a b hsame
  rw [World.isExpired, World.isExpired, hs, hs', h.now]

theorem Twins.isLive (h : Twins scope same w v) (hsame : same a b) :
    v.isLive limits b = w.isLive limits a := by
  rw [World.isLive, World.isLive, h.isExpired hsame, h.isInvalidated hsame]

/-- Only services that exist are named. -/
theorem Twins.old (h : Twins scope same w v) (hsame : same a b) :
    a < w.services.length ∧ b < v.services.length := by
  obtain ⟨service, hs, hs', -⟩ := h.services a b hsame
  exact ⟨(List.getElem?_eq_some_iff.1 hs).1, (List.getElem?_eq_some_iff.1 hs').1⟩

theorem Twins.scopeOf_left (h : Twins scope same w v) (hsame : same a b) :
    Decision.scopeOf w a = scope := by
  obtain ⟨service, hs, -, hscope⟩ := h.services a b hsame
  rw [scopeOf_eq hs, hscope]

theorem Twins.scopeOf_right (h : Twins scope same w v) (hsame : same a b) :
    Decision.scopeOf v b = scope := by
  obtain ⟨service, -, hs, hscope⟩ := h.services a b hsame
  rw [scopeOf_eq hs, hscope]

/-- If one of the two worlds stores a service for the scope, so does the other. -/
theorem Twins.stored_left (h : Twins scope same w v) (hget : w.store.get? scope = some a) :
    ∃ b, v.store.get? scope = some b ∧ same a b := by
  have hstored := h.stored
  rw [hget] at hstored
  generalize v.store.get? scope = stored at hstored ⊢
  cases hstored with
  | some hsame => exact ⟨_, rfl, hsame⟩

theorem Twins.stored_right (h : Twins scope same w v) (hget : v.store.get? scope = some b) :
    ∃ a, w.store.get? scope = some a ∧ same a b := by
  have hstored := h.stored
  rw [hget] at hstored
  generalize w.store.get? scope = stored at hstored ⊢
  cases hstored with
  | some hsame => exact ⟨_, rfl, hsame⟩

/-- Services that are the same are both stored, or neither is. -/
theorem Twins.stored_iff (h : Twins scope same w v) (hsame : same a b) :
    v.store.get? scope = some b ↔ w.store.get? scope = some a := by
  constructor
  · intro hget
    obtain ⟨a', hget', hsame'⟩ := h.stored_right hget
    rw [hget', (h.single a' b a b hsame' hsame).2 rfl]
  · intro hget
    obtain ⟨b', hget', hsame'⟩ := h.stored_left hget
    rw [hget', (h.single a b' a b hsame' hsame).1 rfl]

/-- An invalidation marks both of two services that are the same, or neither. -/
theorem Twins.mem_stored (h : Twins scope same w v) (hsame : same a b) :
    b ∈ v.stored scope.module ↔ a ∈ w.stored scope.module := by
  obtain ⟨service, hs, hs', hscope⟩ := h.services a b hsame
  have hleft := DecisionCache.mem_stored_of_coherent h.left hs
  have hright := DecisionCache.mem_stored_of_coherent h.right hs'
  rw [hscope] at hleft hright
  rw [hleft, hright, h.stored_iff hsame]

theorem rel_filter {α : Type} {r : α → α → Prop} {x y : Option α} {p p' : α → Bool}
    (h : Option.Rel r x y) (hp : ∀ a b, r a b → p a = p' b) :
    Option.Rel r (x.filter p) (y.filter p') := by
  cases h with
  | none => exact .none
  | @some a b hr =>
    rw [Option.filter_some, Option.filter_some, hp a b hr]
    split
    · exact .some hr
    · exact .none

/-! ## What keeps twins together -/

/-- Nothing is done for the scope, whatever else is done. -/
theorem Twins.of_aside (h : Twins scope same w v) (hw : Aside scope w w') (hv : Aside scope v v')
    (hleft : w'.Coherent) (hright : v'.Coherent) (hnow : v'.now = w'.now) :
    Twins scope same w' v' where
  now := hnow
  left := hleft
  right := hright
  services a b hsame := by
    obtain ⟨service, hs, hs', hscope⟩ := h.services a b hsame
    exact ⟨service, hw.services a service hs hscope, hv.services b service hs' hscope, hscope⟩
  single := h.single
  stored := by
    rw [hw.stored, hv.stored]
    exact h.stored
  calls := by rw [hv.calls, hw.calls, h.calls]
  reports := by rw [hv.reports, hw.reports, h.reports]

theorem Twins.pass (h : Twins scope same w v) (nanos : Nat) :
    Twins scope same (w.pass nanos) (v.pass nanos) :=
  h.of_aside (aside_pass w nanos) (aside_pass v nanos) h.left h.right
    (congrArg (· + nanos) h.now)

theorem Twins.backend (h : Twins scope same w v) (state state' : σ) :
    Twins scope same { w with backend := state } { v with backend := state' } :=
  h.of_aside (aside_backend w state) (aside_backend v state') h.left h.right h.now

theorem Twins.performed (h : Twins scope same w v) (command : Command) (reply reply' : Reply) :
    Twins scope same (w.note (.performed command reply)) (v.note (.performed command reply')) :=
  h.of_aside (aside_performed w command reply) (aside_performed v command reply') h.left h.right
    h.now

theorem Twins.called (h : Twins scope same w v) (q : Question) :
    Twins scope same (w.note (.called scope q)) (v.note (.called scope q)) :=
  { h with calls := by rw [callsFor_note_called, callsFor_note_called, h.calls] }

theorem Twins.report (h : Twins scope same w v) (a b : ServiceId) {lookup : Lookup}
    (hlookup : lookup.scope = scope) (ended : Instant)
    (result : Option (Except BackendError lookup.question.Answer)) :
    Twins scope same (w.report ⟨a, lookup, ended, result⟩)
      (v.report ⟨b, lookup, ended, result⟩) :=
  { h with reports := by rw [reportsFor_report _ hlookup, reportsFor_report _ hlookup, h.reports] }

theorem Twins.setSlot (h : Twins scope same w v) (hsame : same a b) (q : Question)
    (slot : Slot q.Answer) : Twins scope same (w.setSlot a q slot) (v.setSlot b q slot) :=
  { h with
    left := h.left.setSlot a q slot
    right := h.right.setSlot b q slot
    services := by
      intro a' b' hsame'
      obtain ⟨service, hs, hs', hscope⟩ := h.services a' b' hsame'
      rw [service?_setSlot, service?_setSlot, hs, hs', Option.map_some, Option.map_some]
      by_cases ha : a = a'
      · rw [if_pos ha, if_pos ((h.single a b a' b' hsame hsame').1 ha)]
        exact ⟨_, rfl, rfl, hscope⟩
      · rw [if_neg ha, if_neg fun hb => ha ((h.single a b a' b' hsame hsame').2 hb)]
        exact ⟨service, rfl, rfl, hscope⟩ }

theorem Twins.invalidate (h : Twins scope same w v) :
    Twins scope same (w.invalidate scope.module).2 (v.invalidate scope.module).2 where
  now := by
    rw [invalidate_eq _ v, invalidate_eq _ w]
    exact h.now
  left := (show Change .standard w _ from .invalidate w scope.module).coherent h.left
  right := (show Change .standard v _ from .invalidate v scope.module).coherent h.right
  services a b hsame := by
    obtain ⟨service, hs, hs', hscope⟩ := h.services a b hsame
    rw [service?_invalidate, service?_invalidate, hs, hs', Option.map_some, Option.map_some]
    by_cases hmem : a ∈ w.stored scope.module
    · rw [if_pos hmem, if_pos ((h.mem_stored hsame).2 hmem)]
      exact ⟨_, rfl, rfl, hscope⟩
    · rw [if_neg hmem, if_neg fun hmem' => hmem ((h.mem_stored hsame).1 hmem')]
      exact ⟨service, rfl, rfl, hscope⟩
  single := h.single
  stored := by
    rw [get?_invalidate_self, get?_invalidate_self]
    exact .none
  calls := by rw [callsFor_invalidate, callsFor_invalidate, h.calls]
  reports := by rw [reportsFor_invalidate, reportsFor_invalidate, h.reports]

/-- A sweep takes both of two services that are the same, or neither. -/
theorem Twins.evict (h : Twins scope same w v) (limits : CacheLimits) :
    Twins scope same (w.evict limits).2 (v.evict limits).2 :=
  { h with
    left := (show Change limits w _ from .evict w).coherent h.left
    right := (show Change limits v _ from .evict v).coherent h.right
    stored := by
      show Option.Rel same ((w.store.keepOnly _).2.get? scope) ((v.store.keepOnly _).2.get? scope)
      rw [Store.keepOnly, Store.keepOnly, Table.get?_retain, Table.get?_retain]
      refine rel_filter h.stored fun a b hsame => ?_
      rw [h.isExpired hsame] }

theorem Twins.clear (h : Twins scope same w v) : Twins scope same w.clear v.clear :=
  { h with
    left := (show Change .standard w _ from .clear w).coherent h.left
    right := (show Change .standard v _ from .clear v).coherent h.right
    stored := .none }

/-- The world after a service was created for a scope. -/
def withNew (w : World σ) (scope : Scope) : World σ :=
  { w with
    services := w.services ++ [⟨scope, w.now, false, .empty⟩]
    store := w.store.put scope w.services.length }

/-- The number of a new service is none that was named before. -/
theorem Twins.create (h : Twins scope same w v) (hleft : (w.withNew scope).Coherent)
    (hright : (v.withNew scope).Coherent) :
    Twins scope (fun a b => same a b ∨ a = w.services.length ∧ b = v.services.length)
      (w.withNew scope) (v.withNew scope) where
  now := h.now
  left := hleft
  right := hright
  services := by
    rintro a b (hsame | ⟨rfl, rfl⟩)
    · obtain ⟨service, hs, hs', hscope⟩ := h.services a b hsame
      refine ⟨service, ?_, ?_, hscope⟩
      · show (w.services ++ _)[a]? = some service
        rw [List.getElem?_append_left (List.getElem?_eq_some_iff.1 hs).1]
        exact hs
      · show (v.services ++ _)[b]? = some service
        rw [List.getElem?_append_left (List.getElem?_eq_some_iff.1 hs').1]
        exact hs'
    · refine ⟨⟨scope, w.now, false, .empty⟩, ?_, ?_, rfl⟩
      · show (w.services ++ _)[w.services.length]? = _
        rw [List.getElem?_concat_length]
      · show (v.services ++ _)[v.services.length]? = _
        rw [List.getElem?_concat_length, h.now]
  single := by
    rintro a b a' b' (hsame | ⟨rfl, rfl⟩) (hsame' | ⟨rfl, rfl⟩)
    · exact h.single a b a' b' hsame hsame'
    · obtain ⟨ha, hb⟩ := h.old hsame
      exact iff_of_false (Nat.ne_of_lt ha) (Nat.ne_of_lt hb)
    · obtain ⟨ha, hb⟩ := h.old hsame'
      exact iff_of_false (Nat.ne_of_gt ha) (Nat.ne_of_gt hb)
    · exact iff_of_true rfl rfl
  stored := by
    show Option.Rel _ ((w.store.put scope _).get? scope) ((v.store.put scope _).get? scope)
    rw [Table.get?_put, Table.get?_put, if_pos rfl, if_pos rfl]
    exact .some (.inr ⟨rfl, rfl⟩)
  calls := h.calls
  reports := h.reports

/-- What is fetched in both worlds is the same from now on: the service that both have, or the one
that each creates. -/
theorem Twins.fetch (h : Twins scope same w v) (limits : CacheLimits) :
    ∃ same', same ≤ same' ∧ same' (w.fetch limits scope).1 (v.fetch limits scope).1 ∧
      Twins scope same' (w.fetch limits scope).2 (v.fetch limits scope).2 := by
  rcases fetch_cases limits scope w with ⟨a, hget, hlive, hf⟩ | ⟨hdead, hf⟩
  · obtain ⟨b, hget', hsame⟩ := h.stored_left hget
    rw [hf, fetch_of_live hget' ((h.isLive hsame).trans hlive)]
    exact ⟨same, le_rfl, hsame, h⟩
  · rcases fetch_cases limits scope v with ⟨b, hget', hlive', -⟩ | ⟨-, hf'⟩
    · -- it would be live in the first world, too
      obtain ⟨a, hget, hsame⟩ := h.stored_right hget'
      rw [h.isLive hsame, hdead a hget] at hlive'
      cases hlive'
    · have hleft := h.left.fetch limits scope
      have hright := h.right.fetch limits scope
      rw [hf] at hleft ⊢
      rw [hf'] at hright ⊢
      exact ⟨_, fun a b hsame => .inl hsame, .inr ⟨rfl, rfl⟩, h.create hleft hright⟩

/-- Twins respect what decisions for the scope read and write. -/
theorem simulation_twins (scope : Scope) : Simulation (Twins scope : Likeness σ) where
  now h := h.now
  scopeOf h hsame := (h.scopeOf_right hsame).trans (h.scopeOf_left hsame).symm
  isInvalidated h hsame := h.isInvalidated hsame
  slot h hsame q := h.slot hsame q
  setSlot h hsame q slot := h.setSlot hsame q slot
  pass h nanos := h.pass nanos

theorem fetchesAlike_twins (limits : CacheLimits) (scope : Scope) :
    FetchesAlike (Twins scope : Likeness σ) limits scope :=
  fun _ _ _ h => h.fetch limits

/-- Twins after more services have become the same. -/
def Grown (scope : Scope) (same : ServiceId → ServiceId → Prop) (w v : World σ) : Prop :=
  ∃ same', same ≤ same' ∧ Twins scope same' w v

theorem Twins.grown (h : Twins scope same w v) : Grown scope same w v :=
  ⟨same, le_rfl, h⟩

theorem Grown.trans (hle : same ≤ same') (h : Grown scope same' w v) : Grown scope same w v := by
  obtain ⟨same'', hle', htwins⟩ := h
  exact ⟨same'', hle.trans hle', htwins⟩

/-- The same outcome in both worlds, which are twins again. -/
structure Agree {α : Type} (scope : Scope) (same : ServiceId → ServiceId → Prop)
    (r r' : α × World σ) : Prop where
  outcome : r'.1 = r.1
  grown : Grown scope same r.2 r'.2

theorem Agree.trans {α : Type} {r r' : α × World σ} (hle : same ≤ same')
    (h : Agree scope same' r r') : Agree scope same r r' :=
  ⟨h.outcome, h.grown.trans hle⟩

theorem Twins.agree_report (h : Twins scope same w v) (limits : CacheLimits) (a b : ServiceId)
    {lookup : Lookup} (hlookup : lookup.scope = scope) (ended : Instant)
    (result : Option (Except BackendError lookup.question.Answer)) :
    Agree scope same
      (LookupReport.outcome limits ⟨a, lookup, ended, result⟩, w.report ⟨a, lookup, ended, result⟩)
      (LookupReport.outcome limits ⟨b, lookup, ended, result⟩,
        v.report ⟨b, lookup, ended, result⟩) :=
  ⟨LookupReport.outcome_service limits b a lookup ended result,
    (h.report a b hlookup ended result).grown⟩

end World

/-! ## Decisions for the scope -/

namespace Decision

open World

variable {σ α : Type} {scope : Scope} {consult : Consult σ}

/-- Two computations that come to the same in twins, each on behalf of its own one of two services
that are the same. -/
def Follows (scope : Scope) (a b : ServiceId) (x y : Decision σ α) : Prop :=
  ∀ same w v, Twins scope same w v → same a b → Agree scope same (x.run w) (y.run v)

/-- A way to put questions that comes to the same in twins. -/
def Keeps (scope : Scope) (consult : Consult σ) : Prop :=
  ∀ a b deadline q, Follows scope a b (consult a deadline q) (consult b deadline q)

theorem Keeps.respects (h : Keeps scope consult) : Respects (Twins scope) consult := by
  intro a b deadline q same w v htwins hsame
  obtain ⟨houtcome, hgrown⟩ := h a b deadline q same w v htwins hsame
  exact ⟨houtcome, hgrown⟩

theorem Keeps.delayed (h : Keeps scope consult) (backend : PermissionBackend σ) :
    Keeps scope (delayed backend consult) := by
  intro a b deadline q same w v htwins hsame
  obtain ⟨houtcome, hgrown⟩ := h.respects.delayed (simulation_twins scope) backend a b deadline q
    same w v htwins hsame
  exact ⟨houtcome, hgrown⟩

end Decision

/-! ## Commands -/

/-- The commands that do the same for a scope in twins: those that ask about no other scope, which
may take any time, and that name no service by its number. -/
def Command.KeepsTo (scope : Scope) : Command → Prop
  | .ask s _ => s = scope
  | .askService _ _ => False
  | .invalidateService _ => False
  | _ => True

section Commands

open World

variable {σ : Type} {scope : Scope} {consult : Consult σ} {same : ServiceId → ServiceId → Prop}
  {w v : World σ} (limits : CacheLimits) (hconsult : Decision.Keeps scope consult)

include hconsult

/-- Who asks about the scope is told the same. -/
theorem agree_ask (h : Twins scope same w v) (inquiry : Inquiry) :
    Agree scope same ((perform limits consult (.ask scope inquiry)).run w)
      ((perform limits consult (.ask scope inquiry)).run v) := by
  obtain ⟨houtcome, hgrown⟩ := matches_ask (simulation_twins scope) hconsult.respects
    (fetchesAlike_twins limits scope) h inquiry
  exact ⟨houtcome, hgrown⟩

theorem twins_perform (h : Twins scope same w v) {command : Command}
    (hcommand : command.KeepsTo scope) :
    Grown scope same ((perform limits consult command).run w).2
      ((perform limits consult command).run v).2 := by
  have hinvalidate : ∀ m, Twins scope same (w.invalidate m).2 (v.invalidate m).2 := by
    intro m
    by_cases hm : m = scope.module
    · subst hm
      exact h.invalidate
    · refine h.of_aside (aside_invalidate h.left hm) (aside_invalidate h.right hm) ?_ ?_ ?_
      · exact (show Change limits w _ from .invalidate w m).coherent h.left
      · exact (show Change limits v _ from .invalidate v m).coherent h.right
      · rw [invalidate_eq _ v, invalidate_eq _ w]
        exact h.now
  cases command with
  | ask s inquiry =>
    obtain rfl : s = scope := hcommand
    exact (agree_ask limits hconsult h inquiry).grown
  | take s =>
    by_cases hs : s = scope
    · subst hs
      obtain ⟨same', hle, -, htwins⟩ := h.fetch limits
      exact ⟨same', hle, htwins⟩
    · refine (h.of_aside (aside_fetch hs limits w) (aside_fetch hs limits v)
        (h.left.fetch limits s) (h.right.fetch limits s) ?_).grown
      rw [fetch_eq _ _ v, fetch_eq _ _ w]
      exact h.now
  | askService id inquiry => exact hcommand.elim
  | invalidateService id => exact hcommand.elim
  | event m action =>
    cases action with
    | stop => exact (hinvalidate m).grown
    | securityChanged => exact (hinvalidate m).grown
    | start => exact h.grown
    | startFailed => exact h.grown
  | invalidate m => exact (hinvalidate m).grown
  | evict => exact (h.evict limits).grown
  | clear => exact h.clear.grown
  | wait nanos => exact (h.pass nanos).grown

end Commands

/-! ## Lookups -/

/-- A backend that keeps a scope apart. What it does when it is asked about the scope depends on
the lookup only, and not on what it was asked before; and it does nothing for the scope when it is
asked about others. What it does when it is asked about others may depend on anything. -/
structure PermissionBackend.Separates {σ : Type} (backend : PermissionBackend σ) (scope : Scope) :
    Prop where
  own : ∀ l : Lookup, l.scope = scope → ∃ commands conclusion,
    (∀ command ∈ commands, command.KeepsTo scope) ∧ ∀ state,
      (backend.react l state).1.commands = commands ∧
      ∀ replies later, ((backend.react l state).1.conclude replies later).1 = conclusion
  others : ∀ (l : Lookup) state, l.scope ≠ scope →
    ∀ command ∈ (backend.react l state).1.commands, ¬command.Concerns scope

section Lookups

open World

variable {σ : Type} {limits : CacheLimits} {scope : Scope} {backend : PermissionBackend σ}
  {obey : Command → StateM (World σ) Reply}
  (hobey : ∀ command same w v, command.KeepsTo scope → Twins scope same w v →
    Grown scope same ((obey command).run w).2 ((obey command).run v).2)

include hobey

theorem twins_performAll (commands : List Command)
    (hcommands : ∀ command ∈ commands, command.KeepsTo scope)
    {same : ServiceId → ServiceId → Prop} {w v : World σ} (h : Twins scope same w v) :
    Grown scope same ((performAll obey commands).run w).2 ((performAll obey commands).run v).2 := by
  induction commands generalizing same w v with
  | nil => exact h.grown
  | cons command rest ih =>
    obtain ⟨hfirst, hrest⟩ := List.forall_mem_cons.1 hcommands
    obtain ⟨same', hle, htwins⟩ := hobey command same w v hfirst h
    exact (ih hrest (htwins.performed command _ _)).trans hle

theorem keeps_lookUp (hbackend : backend.Separates scope) :
    Decision.Keeps scope (lookUp limits backend obey) := by
  intro a b deadline q same w v htwins hsame
  by_cases hlate : deadline < w.now
  · have hlate' : deadline < v.now := by rwa [htwins.now]
    rw [run_lookUp_of_late backend obey hlate, run_lookUp_of_late backend obey hlate',
      htwins.scopeOf_left hsame, htwins.scopeOf_right hsame, htwins.now]
    exact htwins.agree_report limits a b rfl w.now none
  · have hlate' : ¬deadline < v.now := by rwa [htwins.now]
    obtain ⟨reaction, state, replies, w₁, conclusion, next, hreact, hobeyed, hconclude, hrun⟩ :=
      run_lookUp_of_open limits backend obey hlate
    obtain ⟨reaction', state', replies', v₁, conclusion', next', hreact', hobeyed', hconclude',
      hrun'⟩ := run_lookUp_of_open limits backend obey hlate'
    rw [htwins.scopeOf_left hsame] at hreact hobeyed hrun
    rw [htwins.scopeOf_right hsame] at hreact' hobeyed' hrun'
    rw [htwins.now] at hreact' hrun'
    -- the backend gives the same commands and concludes the same in both
    obtain ⟨commands, result, hkeep, hsteady⟩ :=
      hbackend.own ⟨scope, q, w.now, deadline⟩ rfl
    obtain ⟨hcommands, hresult⟩ := hsteady w.backend
    obtain ⟨hcommands', hresult'⟩ := hsteady v.backend
    rw [hreact] at hcommands hresult
    rw [hreact'] at hcommands' hresult'
    obtain rfl : conclusion = result := by rw [← hresult replies w₁.backend, hconclude]
    obtain rfl : conclusion' = conclusion := by rw [← hresult' replies' v₁.backend, hconclude']
    have hmeanwhile := twins_performAll hobey commands hkeep
      ((htwins.backend state state').called q)
    rw [hcommands] at hobeyed
    rw [hcommands'] at hobeyed'
    rw [hobeyed, hobeyed'] at hmeanwhile
    obtain ⟨same', hle, htwins₁⟩ := hmeanwhile
    have hend := (htwins₁.backend next next').pass conclusion'.elapsed
    have hended := hend.now
    rw [hrun, hrun']
    dsimp only
    rw [hended]
    exact (hend.agree_report limits a b rfl _ _).trans hle

end Lookups

/-- However deep the backend asks back, twins stay together. -/
theorem keeps_consultAt {σ : Type} {backend : PermissionBackend σ} {scope : Scope}
    (hbackend : backend.Separates scope) (limits : CacheLimits) (depth : Nat) :
    Decision.Keeps scope (consultAt limits backend depth) := by
  induction depth with
  | zero =>
    intro a b deadline q same w v htwins hsame
    refine ⟨?_, htwins.grown⟩
    show Except.error _ = Except.error _
    rw [Decision.timedOut, Decision.timedOut, htwins.scopeOf_left hsame,
      htwins.scopeOf_right hsame]
  | succ depth ih =>
    refine Decision.Keeps.delayed (keeps_lookUp ?_ hbackend) backend
    exact fun command same w v hcommand htwins => twins_perform limits ih htwins hcommand

end Gatehouse
