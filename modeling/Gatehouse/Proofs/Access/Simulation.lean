import Mathlib.Order.Basic
import Gatehouse.Proofs.Access.Run

/-!
# Two worlds side by side

Where two worlds are alike, the same decision comes to the same in both. What "alike" means depends
on what the worlds are compared for. It may be that a service has one number here and another one
there; therefore a likeness goes with a relation between numbers, which only grows while the worlds
go on: a service that stands for another one does so for good.

Decisions look at the time, at the scope, the mark and the slots of their own service, and nowhere
else. They set slots of their own service, and let time pass. A likeness that respects all this is
respected by decisions, if it is by the lookups that they make.

- `World.Simulation`: what a likeness has to respect.
- `World.Matches`: two results that are the same, in worlds that are alike again.
- `Decision.Simulates`: two computations with matching results, with a rule for each way to compose
  them.
- `Decision.Respects.delayed`: a likeness that lookups respect is respected when they are held up.
- `Decision.simulates_answerFrom`: decisions respect a likeness that lookups respect.
- `matches_answerWithin`: so do decisions for a scope, if fetching its service does.
-/

namespace Gatehouse

namespace World

variable {σ α : Type}

/-- A likeness of two worlds. It is given which services of the first one have their counterpart in
which services of the second one. -/
abbrev Likeness (σ : Type) :=
  (ServiceId → ServiceId → Prop) → World σ → World σ → Prop

/-- A likeness that respects what decisions read and write. -/
structure Simulation (alike : Likeness σ) : Prop where
  now : ∀ {same w v}, alike same w v → v.now = w.now
  scopeOf : ∀ {same w v a b}, alike same w v → same a b →
    Decision.scopeOf v b = Decision.scopeOf w a
  isInvalidated : ∀ {same w v a b}, alike same w v → same a b →
    v.isInvalidated b = w.isInvalidated a
  slot : ∀ {same w v a b}, alike same w v → same a b → ∀ q, v.slot b q = w.slot a q
  setSlot : ∀ {same w v a b}, alike same w v → same a b → ∀ q slot,
    alike same (w.setSlot a q slot) (v.setSlot b q slot)
  pass : ∀ {same w v}, alike same w v → ∀ nanos, alike same (w.pass nanos) (v.pass nanos)

/-- The same outcome in both worlds, which are alike again. -/
structure Matches (alike : Likeness σ) (same : ServiceId → ServiceId → Prop)
    (r r' : α × World σ) : Prop where
  outcome : r'.1 = r.1
  worlds : ∃ same', same ≤ same' ∧ alike same' r.2 r'.2

variable {alike : Likeness σ} {same same' : ServiceId → ServiceId → Prop} {r r' : α × World σ}

theorem Matches.of_alike (houtcome : r'.1 = r.1) (h : alike same r.2 r'.2) :
    Matches alike same r r' :=
  ⟨houtcome, same, le_rfl, h⟩

theorem Matches.of_le (hle : same ≤ same') (h : Matches alike same' r r') :
    Matches alike same r r' := by
  obtain ⟨houtcome, same'', hle', hworlds⟩ := h
  exact ⟨houtcome, same'', hle.trans hle', hworlds⟩

end World

/-! ## Decisions of a service -/

namespace Decision

open World

variable {σ α β : Type} {alike : Likeness σ} {limits : CacheLimits} {consult : Consult σ}
  {a b : ServiceId} {deadline : Instant}

/-- Two computations with matching results in worlds that are alike, each on behalf of one of two
services of which the second one is the counterpart of the first one. -/
def Simulates (alike : Likeness σ) (a b : ServiceId) (x y : Decision σ α) : Prop :=
  ∀ same w v, alike same w v → same a b → Matches alike same (x.run w) (y.run v)

/-- A way to put questions that respects a likeness. -/
def Respects (alike : Likeness σ) (consult : Consult σ) : Prop :=
  ∀ a b deadline q, Simulates alike a b (consult a deadline q) (consult b deadline q)

theorem simulates_pure (answer : α) :
    Simulates alike a b (pure answer : Decision σ α) (pure answer) :=
  fun _ _ _ halike _ => .of_alike rfl halike

theorem Simulates.bind {x y : Decision σ α} {f g : α → Decision σ β} (hx : Simulates alike a b x y)
    (hf : ∀ answer, Simulates alike a b (f answer) (g answer)) :
    Simulates alike a b (x >>= f) (y >>= g) := by
  intro same w v halike hsame
  obtain ⟨houtcome, same', hle, halike'⟩ := hx same w v halike hsame
  rw [run_bind, run_bind]
  cases hw : x.run w with
  | mk outcome w' =>
    cases hv : y.run v with
    | mk outcome' v' =>
      rw [hw, hv] at houtcome halike'
      obtain rfl : outcome' = outcome := houtcome
      cases outcome' with
      -- the two services are still counterparts, as more and more are
      | ok answer => exact (hf answer same' w' v' halike' (hle a b hsame)).of_le hle
      | error e => exact ⟨rfl, same', hle, halike'⟩

section Simulation

variable (hsim : Simulation alike)

include hsim

/-- What is remembered, what is under way and what is not known is the same in both worlds. -/
theorem Simulates.remember {q : Question} {load load' : Decision σ q.Answer}
    (h : Simulates alike a b load load') :
    Simulates alike a b (remember limits a deadline q load)
      (remember limits b deadline q load') := by
  intro same w v halike hsame
  have hslot := hsim.slot halike hsame q
  cases hw : w.slot a q with
  | filled answer =>
    rw [hw] at hslot
    rw [run_remember_of_filled deadline load hw, run_remember_of_filled deadline load' hslot]
    exact .of_alike rfl halike
  | loading =>
    rw [hw] at hslot
    rw [run_remember_of_loading deadline load hw, run_remember_of_loading deadline load' hslot,
      passTo_eq_pass, passTo_eq_pass, hsim.now halike]
    refine .of_alike ?_ (hsim.pass halike _)
    dsimp only [timedOut]
    rw [hsim.scopeOf halike hsame]
  | empty =>
    rw [hw] at hslot
    obtain ⟨houtcome, same', hle, halike'⟩ :=
      h same _ _ (hsim.setSlot halike hsame q .loading) hsame
    cases hload : load.run (w.setSlot a q .loading) with
    | mk outcome w' =>
      cases hload' : load'.run (v.setSlot b q .loading) with
      | mk outcome' v' =>
        rw [hload, hload'] at houtcome halike'
        obtain rfl : outcome' = outcome := houtcome
        rw [run_remember_of_empty deadline load hw hload,
          run_remember_of_empty deadline load' hslot hload']
        exact ⟨rfl, same', hle, hsim.setSlot halike' (hle a b hsame) q _⟩

theorem simulates_ensureCurrent :
    Simulates alike a b (ensureCurrent a : Decision σ Unit) (ensureCurrent b) := by
  intro same w v halike hsame
  rw [run_ensureCurrent, run_ensureCurrent, hsim.isInvalidated halike hsame,
    hsim.scopeOf halike hsame]
  exact .of_alike rfl halike

theorem simulates_setDeadline (limits : CacheLimits) :
    Simulates alike a b (setDeadline limits : Decision σ Instant) (setDeadline limits) := by
  intro same w v halike hsame
  rw [run_setDeadline, run_setDeadline, hsim.now halike]
  exact .of_alike rfl (hsim.pass halike 1)

/-- Lookups are held up equally long in both worlds. -/
theorem Respects.delayed (hconsult : Respects alike consult) (backend : PermissionBackend σ) :
    Respects alike (delayed backend consult) := by
  intro a b deadline q same w v halike hsame
  rw [run_delayed, run_delayed, hsim.scopeOf halike hsame, hsim.now halike]
  exact hconsult a b deadline q same _ _ (hsim.pass halike _) hsame

section Resolution

variable (hconsult : Respects alike consult)

include hconsult

theorem simulates_direct (q : Question) :
    Simulates alike a b (direct limits consult a deadline q) (direct limits consult b deadline q) :=
  (hconsult a b deadline q).remember hsim

theorem simulates_inGroup (group : String) :
    Simulates alike a b (inGroup limits consult a deadline group)
      (inGroup limits consult b deadline group) := by
  refine Simulates.remember hsim (.bind (hconsult a b deadline _) fun member => ?_)
  cases member with
  | true => exact simulates_pure true
  | false => exact (simulates_direct hsim hconsult .rules).bind fun rules => simulates_pure _

theorem simulates_grantedByRule (p : ResourcePermission)
    (rules : List (String × List ResourcePermission)) :
    Simulates alike a b (grantedByRule limits consult a deadline p rules)
      (grantedByRule limits consult b deadline p rules) := by
  induction rules with
  | nil => exact simulates_pure false
  | cons rule rest ih =>
    obtain ⟨group, granted⟩ := rule
    -- the rule is the same in both worlds, and so is the question whether it covers the permission
    by_cases hcovers : granted.any (·.covers p) = true
    · rw [grantedByRule, grantedByRule, if_pos hcovers, if_pos hcovers]
      refine (simulates_inGroup hsim hconsult group).bind fun member => ?_
      cases member with
      | true => exact simulates_pure true
      | false => exact ih
    · rw [grantedByRule, grantedByRule, if_neg hcovers, if_neg hcovers]
      exact ih

theorem simulates_mayAccess (p : ResourcePermission) :
    Simulates alike a b (mayAccess limits consult a deadline p)
      (mayAccess limits consult b deadline p) := by
  refine Simulates.remember hsim (.bind (hconsult a b deadline _) fun granted => ?_)
  cases granted with
  | true => exact simulates_pure true
  | false =>
    exact (simulates_direct hsim hconsult .rules).bind fun rules =>
      simulates_grantedByRule hsim hconsult p _

theorem simulates_mayPerform (action : String) :
    Simulates alike a b (mayPerform limits consult a deadline action)
      (mayPerform limits consult b deadline action) := by
  refine Simulates.remember hsim (.bind (hconsult a b deadline _) fun granted => ?_)
  cases granted with
  | true => exact simulates_pure true
  | false => exact simulates_mayAccess hsim hconsult (.everywhere action)

theorem simulates_resolve (q : Question) :
    Simulates alike a b (resolve limits consult a deadline q)
      (resolve limits consult b deadline q) := by
  cases q with
  | action name => exact simulates_mayPerform hsim hconsult name
  | group name => exact simulates_inGroup hsim hconsult name
  | resource p => exact simulates_mayAccess hsim hconsult p
  | rules => exact simulates_direct hsim hconsult .rules
  | attributes => exact simulates_direct hsim hconsult .attributes
  | identity => exact simulates_direct hsim hconsult .identity

/-- Decisions respect a likeness that is respected by the lookups that they make. -/
theorem simulates_answerFrom (q : Question) :
    Simulates alike a b (answerFrom limits consult a q) (answerFrom limits consult b q) := by
  refine (simulates_ensureCurrent hsim).bind fun _ =>
    (simulates_setDeadline hsim limits).bind fun deadline => ?_
  refine (simulates_resolve hsim hconsult q).bind fun answer => ?_
  exact (simulates_ensureCurrent hsim).bind fun _ => simulates_pure answer

end Resolution

end Simulation

end Decision

/-! ## Decisions for a scope -/

section Scopes

open World

variable {σ : Type} {alike : Likeness σ} {limits : CacheLimits} {consult : Consult σ}
  {scope : Scope} {same : ServiceId → ServiceId → Prop} {w v : World σ}

/-- Two worlds that are alike still are when the service of a scope is fetched in both, and the
two services that are fetched are counterparts from then on. -/
def World.FetchesAlike (alike : Likeness σ) (limits : CacheLimits) (scope : Scope) : Prop :=
  ∀ same w v, alike same w v → ∃ same', same ≤ same' ∧
    same' (w.fetch limits scope).1 (v.fetch limits scope).1 ∧
    alike same' (w.fetch limits scope).2 (v.fetch limits scope).2

variable (hsim : Simulation alike) (hconsult : Decision.Respects alike consult)
  (hfetch : FetchesAlike alike limits scope)

include hsim hconsult hfetch

theorem matches_fetch_answerFrom (h : alike same w v) (q : Question) :
    Matches alike same
      ((Decision.answerFrom limits consult (w.fetch limits scope).1 q).run (w.fetch limits scope).2)
      ((Decision.answerFrom limits consult (v.fetch limits scope).1 q).run
        (v.fetch limits scope).2) := by
  obtain ⟨same', hle, hsame, halike⟩ := hfetch same w v h
  exact (Decision.simulates_answerFrom hsim hconsult q same' _ _ halike hsame).of_le hle

theorem matches_answerWithin (h : alike same w v) (retries : Nat) (q : Question) :
    Matches alike same ((answerWithin limits consult retries scope q).run w)
      ((answerWithin limits consult retries scope q).run v) := by
  induction retries generalizing same w v with
  | zero =>
    rw [run_answerWithin_zero, run_answerWithin_zero]
    exact matches_fetch_answerFrom hsim hconsult hfetch h q
  | succ n ih =>
    have htry := matches_fetch_answerFrom hsim hconsult hfetch h q
    rw [run_answerWithin_succ, run_answerWithin_succ]
    cases hw : (Decision.answerFrom limits consult (w.fetch limits scope).1 q).run
        (w.fetch limits scope).2 with
    | mk outcome w' =>
      cases hv : (Decision.answerFrom limits consult (v.fetch limits scope).1 q).run
          (v.fetch limits scope).2 with
      | mk outcome' v' =>
        rw [hw, hv] at htry
        obtain rfl : outcome' = outcome := htry.outcome
        rcases outcome' with (⟨s, e⟩ | s) | answer
        · exact htry
        · -- both are tried again
          obtain ⟨same', hle, halike⟩ := htry.worlds
          exact (ih halike).of_le hle
        · exact htry

/-- Who asks about the scope is told the same in both worlds. -/
theorem matches_ask (h : alike same w v) (inquiry : Inquiry) :
    Matches alike same ((perform limits consult (.ask scope inquiry)).run w)
      ((perform limits consult (.ask scope inquiry)).run v) := by
  obtain ⟨houtcome, hworlds⟩ := matches_answerWithin hsim hconsult hfetch h invalidationRetries
    inquiry.question
  exact ⟨congrArg (fun outcome => Reply.finding (inquiry.conclude outcome)) houtcome, hworlds⟩

end Scopes

end Gatehouse
