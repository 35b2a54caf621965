import Gatehouse.Proofs.Access.Reasons
import Gatehouse.Proofs.Computation

/-!
# The course of a decision

A decision goes on smoothly until it has its answer, or until one lookup fails; then it closes the
slots that it has opened, and does nothing else. Whatever the backend does meanwhile, the decision
is a sequence of steps. Slots need a second fact to see this: a decision fills or closes the slot
that it opened, which is only a step if the slot is still open by then. It is, for no decision
touches a slot that another one has open.

- `World.Settles`: a sequence of steps after which the same slots are open as before.
- `Decision.Move` and `Decision.Course`: what a decision does while all goes well, and how it
  comes to its end.
- `Decision.InvariantAt`: a condition that a course keeps, because each part of it does.
- `Decision.Proceeds`: the rules by which the courses of parts make up the course of the whole.
- `Decision.followUp` and `resolve_eq`: every question is put to the backend first, and its answer
  is followed up.
- `Decision.proceeds_resolve`: the course of any decision. An answer that comes out of it is
  remembered, and for a reason.
- `run_answerFrom_of_current`, `run_answerFrom_ok_iff`, `slot_of_run_answerFrom`: what a service
  makes of it. It gives an answer only while it is current, and it remembers what it has answered.

A decision opens slots in a fixed order, by the rank of their questions. Hence a slot that it finds
open was open when the decision started, and it never waits for itself.
-/

namespace Gatehouse

namespace World

variable {σ : Type} {limits : CacheLimits} {w w' w'' : World σ}

/-- A sequence of steps that leaves open slots to those who opened them, and opens no others. -/
structure Settles (limits : CacheLimits) (w w' : World σ) : Prop where
  steps : Steps limits w w'
  loading : ∀ id q, w'.slot id q = .loading ↔ w.slot id q = .loading

theorem Settles.refl (w : World σ) : Settles limits w w :=
  ⟨.refl, fun _ _ => Iff.rfl⟩

theorem Settles.trans (h₁ : Settles limits w w') (h₂ : Settles limits w' w'') :
    Settles limits w w'' :=
  ⟨h₁.steps.trans h₂.steps, fun id q => (h₂.loading id q).trans (h₁.loading id q)⟩

theorem Settles.later (h : Settles limits w w') {id : ServiceId} {service : Service}
    (hs : w.service? id = some service) :
    ∃ service', w'.service? id = some service' ∧ Later service service' :=
  h.steps.leads.later hs

/-- A change that leaves all slots alone settles. -/
theorem Settles.of_change (h : Change limits w w') (hslot : ∀ id q, w'.slot id q = w.slot id q)
    (hlookups : w'.lookups = w.lookups) : Settles limits w w' where
  steps := .single (.plain h (fun id q _ hfilled => hslot id q ▸ hfilled) hlookups)
  loading id q := by rw [hslot]

theorem settles_fetch (limits : CacheLimits) (w : World σ) (scope : Scope) :
    Settles limits w (w.fetch limits scope).2 :=
  .of_change (.fetch w scope) (slot_fetch w limits scope) (by rw [fetch_eq])

theorem settles_markInvalid (limits : CacheLimits) (w : World σ) (id : ServiceId) :
    Settles limits w (w.markInvalid id) :=
  .of_change (.mark w id) (slot_markInvalid w id) rfl

theorem settles_invalidate (limits : CacheLimits) (w : World σ) (m : ModuleName) :
    Settles limits w (w.invalidate m).2 :=
  .of_change (.invalidate w m) (slot_invalidate w m) (by rw [invalidate_eq])

theorem settles_pass (limits : CacheLimits) (w : World σ) (nanos : Nat) :
    Settles limits w (w.pass nanos) :=
  .of_change (.pass w nanos) (fun _ _ => rfl) rfl

theorem settles_backend (limits : CacheLimits) (w : World σ) (state : σ) :
    Settles limits w { w with backend := state } :=
  .of_change (.backend w state) (fun _ _ => rfl) rfl

theorem settles_note (limits : CacheLimits) (w : World σ) (occurrence : Occurrence) :
    Settles limits w (w.note occurrence) :=
  .of_change (.note w occurrence) (fun _ _ => rfl) rfl

/-- Opening and closing a slot need no reason. -/
theorem Step.of_setSlot {id : ServiceId} {q : Question} {slot : Slot q.Answer}
    (h : Change limits w (w.setSlot id q slot)) (hslot : ∀ answer, slot ≠ .filled answer) :
    Step limits w (w.setSlot id q slot) :=
  .plain h (fun _ _ _ hfilled => filled_of_setSlot hslot hfilled) rfl

/-- Opening a slot, settling, and then filling or closing that slot is settling as a whole. -/
theorem Settles.around {id : ServiceId} {q : Question} {slot : Slot q.Answer}
    {service : Service} (hs : w.service? id = some service) (hempty : w.slot id q = .empty)
    (h : Settles limits (w.setSlot id q .loading) w') (hslot : slot ≠ .loading)
    (hset : w'.slot id q = .loading → Step limits w' (w'.setSlot id q slot)) :
    Settles limits w (w'.setSlot id q slot) := by
  have hopen : w'.slot id q = .loading := (h.loading id q).2 (slot_setSlot_self hs q .loading)
  have hload : Step limits w (w.setSlot id q .loading) := .of_setSlot (.load w id q hempty) nofun
  refine ⟨.head hload (h.steps.tail (hset hopen)), fun id' q' => ?_⟩
  by_cases hsame : id = id' ∧ q = q'
  · -- the slot was empty before, and it is not open afterwards
    obtain ⟨rfl, rfl⟩ := hsame
    obtain ⟨service', hs'⟩ := exists_service_of_slot (by rw [hopen]; exact nofun)
    rw [slot_setSlot_self hs', hempty]
    exact ⟨fun hl => absurd hl hslot, nofun⟩
  · have hother : id = id' → q ≠ q' := fun hid hq => hsame ⟨hid, hq⟩
    rw [slot_setSlot_ne _ hother, h.loading, slot_setSlot_ne _ hother]

end World

/-- The place of a question in the order in which a decision opens slots: later ones have a lower
rank. -/
def Question.rank : Question → Nat
  | .action _ => 3
  | .resource _ => 2
  | .group _ => 1
  | .rules => 0
  | .attributes => 0
  | .identity => 0

namespace Decision

open World

variable {σ α β : Type} {limits : CacheLimits} {consult : Consult σ} {id : ServiceId}
  {deadline : Instant} {w w₁ w' : World σ}

/-! ## Courses -/

section Courses

variable (limits : CacheLimits) (consult : Consult σ) (id : ServiceId) (deadline : Instant)

/-- Some slot of a service changes, and nothing else. -/
def SlotChange (id : ServiceId) (w w' : World σ) : Prop :=
  ∃ q slot, w' = w.setSlot id q slot

/-- What a decision does while all goes well: it changes slots of its service, and puts questions
to the backend that are answered. -/
inductive Move : World σ → World σ → Prop where
  | slot {w w' : World σ} (h : SlotChange id w w') : Move w w'
  | ask {w w' : World σ} (q : Question) (answer : q.Answer)
    (h : (consult id deadline q).run w = (.ok answer, w')) : Move w w'

/-- Any number of moves. -/
abbrev Moves : World σ → World σ → Prop :=
  Relation.ReflTransGen (Move consult id deadline)

/-- How a decision goes that opens slots below a rank. It moves on until it is answered, until a
lookup fails, or until it finds a slot open that was open when it started. After a failure it
changes slots only. -/
inductive Course (rank : Nat) (w : World σ) : Except AuthzError α → World σ → Prop where
  | answered {answer : α} {w' : World σ} (h : Moves consult id deadline w w') :
    Course rank w (.ok answer) w'
  | refused {e : AuthzError} {w₁ w₂ w' : World σ} (h : Moves consult id deadline w w₁)
    (q : Question) (hask : (consult id deadline q).run w₁ = (.error e, w₂))
    (hclose : Relation.ReflTransGen (SlotChange id) w₂ w') : Course rank w (.error e) w'
  | blocked {w₁ w' : World σ} (h : Moves consult id deadline w w₁) (q : Question)
    (hrank : q.rank < rank) (hopen : w.slot id q = .loading)
    (hclose : Relation.ReflTransGen (SlotChange id) (w₁.passTo (deadline + 1)) w') :
    Course rank w (.error (timedOut limits w₁ id)) w'

/-- From any world in which the service exists and a condition holds, a computation settles, takes
its course, and leads to a world in which another condition holds of its result. -/
def Proceeds (rank : Nat) (P : World σ → Prop) (x : Decision σ α) (Q : α → World σ → Prop) :
    Prop :=
  ∀ w service, w.service? id = some service → P w →
    Settles limits w (x.run w).2 ∧
    Course limits consult id deadline rank w (x.run w).1 (x.run w).2 ∧
    ∀ answer, (x.run w).1 = .ok answer → Q answer (x.run w).2

end Courses

theorem Course.of_error {rank : Nat} {e : AuthzError}
    (h : Course (α := α) limits consult id deadline rank w (.error e) w') :
    Course (α := β) limits consult id deadline rank w (.error e) w' := by
  cases h with
  | refused hmoves q hask hclose => exact .refused hmoves q hask hclose
  | blocked hmoves q hrank hopen hclose => exact .blocked hmoves q hrank hopen hclose

theorem Course.mono {rank rank' : Nat} (hle : rank ≤ rank') {outcome : Except AuthzError α}
    (h : Course limits consult id deadline rank w outcome w') :
    Course limits consult id deadline rank' w outcome w' := by
  cases h with
  | answered hmoves => exact .answered hmoves
  | refused hmoves q hask hclose => exact .refused hmoves q hask hclose
  | blocked hmoves q hrank hopen hclose =>
    exact .blocked hmoves q (Nat.lt_of_lt_of_le hrank hle) hopen hclose

/-- Moves may come before a course, if slots below its rank that are open then were open before. -/
theorem Course.after {rank rank' : Nat} {outcome : Except AuthzError α}
    (hmoves : Moves consult id deadline w w₁) (hle : rank ≤ rank')
    (hopen : ∀ q : Question, q.rank < rank → w₁.slot id q = .loading → w.slot id q = .loading)
    (h : Course limits consult id deadline rank w₁ outcome w') :
    Course limits consult id deadline rank' w outcome w' := by
  cases h with
  | answered hmoves' => exact .answered (hmoves.trans hmoves')
  | refused hmoves' q hask hclose => exact .refused (hmoves.trans hmoves') q hask hclose
  | blocked hmoves' q hrank hloading hclose =>
    exact .blocked (hmoves.trans hmoves') q (Nat.lt_of_lt_of_le hrank hle)
      (hopen q hrank hloading) hclose

/-- A slot of the service may be changed at the end of a course. -/
theorem Course.setSlot {rank : Nat} {outcome : Except AuthzError α} (q : Question)
    (slot : Slot q.Answer) (h : Course limits consult id deadline rank w outcome w') :
    Course limits consult id deadline rank w outcome (w'.setSlot id q slot) := by
  have hchange : SlotChange id w' (w'.setSlot id q slot) := ⟨q, slot, rfl⟩
  cases h with
  | answered hmoves => exact .answered (hmoves.tail (.slot hchange))
  | refused hmoves q hask hclose => exact .refused hmoves q hask (hclose.tail hchange)
  | blocked hmoves q hrank hopen hclose => exact .blocked hmoves q hrank hopen (hclose.tail hchange)

/-! ## What a course keeps -/

/-- A condition that is kept by the lookups of a decision, by changes of the slots of its service,
and while time passes. -/
structure InvariantAt (consult : Consult σ) (id : ServiceId) (deadline : Instant)
    (P : World σ → Prop) : Prop where
  slot : ∀ w q slot, P w → P (w.setSlot id q slot)
  ask : ∀ w q, P w → P ((consult id deadline q).run w).2
  pass : ∀ w nanos, P w → P (w.pass nanos)

namespace InvariantAt

variable {P : World σ → Prop} (hP : InvariantAt consult id deadline P)

include hP

theorem slotChanges (h : Relation.ReflTransGen (SlotChange id) w w') (hw : P w) : P w' := by
  induction h with
  | refl => exact hw
  | tail _ hchange ih =>
    obtain ⟨q, slot, rfl⟩ := hchange
    exact hP.slot _ q slot ih

theorem moves (h : Moves consult id deadline w w') (hw : P w) : P w' := by
  induction h with
  | refl => exact hw
  | @tail w₁ _ _ hmove ih =>
    cases hmove with
    | slot hchange => exact hP.slotChanges (.single hchange) ih
    | ask q answer hask =>
      have hkept := hP.ask w₁ q ih
      rwa [hask] at hkept

/-- It does not matter how the course ends. -/
theorem course {rank : Nat} {outcome : Except AuthzError α}
    (h : Course limits consult id deadline rank w outcome w') (hw : P w) : P w' := by
  cases h with
  | answered hmoves => exact hP.moves hmoves hw
  | @refused _ w₁ _ _ hmoves q hask hclose =>
    have hkept := hP.ask w₁ q (hP.moves hmoves hw)
    rw [hask] at hkept
    exact hP.slotChanges hclose hkept
  | @blocked w₁ _ hmoves q hrank hopen hclose =>
    have hkept := hP.pass w₁ (deadline + 1 - w₁.now) (hP.moves hmoves hw)
    rw [← passTo_eq_pass] at hkept
    exact hP.slotChanges hclose hkept

end InvariantAt

/-! ## Rules -/

section Rules

variable {rank rank' : Nat} {P P' : World σ → Prop} {Q Q' : α → World σ → Prop}
  {x : Decision σ α}

theorem Proceeds.imp (h : Proceeds limits consult id deadline rank P x Q)
    (hP : ∀ w, P' w → P w) (hQ : ∀ answer w, Q answer w → Q' answer w) :
    Proceeds limits consult id deadline rank P' x Q' := by
  intro w service hs hP'
  obtain ⟨hsettles, hcourse, hpost⟩ := h w service hs (hP w hP')
  exact ⟨hsettles, hcourse, fun answer hok => hQ _ _ (hpost answer hok)⟩

theorem Proceeds.mono (hle : rank ≤ rank') (h : Proceeds limits consult id deadline rank P x Q) :
    Proceeds limits consult id deadline rank' P x Q := by
  intro w service hs hP
  obtain ⟨hsettles, hcourse, hpost⟩ := h w service hs hP
  exact ⟨hsettles, hcourse.mono hle, hpost⟩

/-- What no step undoes still holds afterwards. -/
theorem Proceeds.keep (h : Proceeds limits consult id deadline rank P' x Q)
    (hP : ∀ w w', Steps limits w w' → P w → P w') :
    Proceeds limits consult id deadline rank (fun w => P w ∧ P' w) x
      (fun answer w => P w ∧ Q answer w) := by
  intro w service hs hpre
  obtain ⟨hsettles, hcourse, hpost⟩ := h w service hs hpre.2
  exact ⟨hsettles, hcourse, fun answer hok =>
    ⟨hP _ _ hsettles.steps hpre.1, hpost answer hok⟩⟩

theorem proceeds_pure {a : α} (h : ∀ w, P w → Q a w) :
    Proceeds limits consult id deadline rank P (pure a) Q := by
  intro w service _ hP
  refine ⟨Settles.refl w, .answered .refl, ?_⟩
  rintro _ ⟨⟩
  exact h w hP

theorem proceeds_bind {R : α → World σ → Prop} {Q : β → World σ → Prop} {f : α → Decision σ β}
    (hx : Proceeds limits consult id deadline rank P x R)
    (hf : ∀ a, Proceeds limits consult id deadline rank (R a) (f a) Q) :
    Proceeds limits consult id deadline rank P (x >>= f) Q := by
  intro w service hs hP
  obtain ⟨hsettles, hcourse, hpost⟩ := hx w service hs hP
  rw [run_bind]
  cases hrun : x.run w with
  | mk outcome w₁ =>
    rw [hrun] at hsettles hcourse hpost
    cases outcome with
    | error e => exact ⟨hsettles, hcourse.of_error, nofun⟩
    | ok a =>
      -- the service is still there for the second part
      obtain ⟨service', hs', -⟩ := hsettles.later hs
      obtain ⟨hsettles', hcourse', hpost'⟩ := hf a w₁ service' hs' (hpost a rfl)
      obtain ⟨hmoves⟩ := hcourse
      refine ⟨hsettles.trans hsettles', hcourse'.after hmoves (Nat.le_refl _) ?_, hpost'⟩
      exact fun q _ hopen => (hsettles.loading id q).1 hopen

end Rules

section Remember

variable {q : Question} {w : World σ} (deadline : Instant) (load : Decision σ q.Answer)

theorem run_remember_of_filled {answer : q.Answer} (h : w.slot id q = .filled answer) :
    (remember limits id deadline q load).run w = (.ok answer, w) := by
  simp only [remember, ExceptT.run_mk, h]

/-- A decision that finds its own question under way waits until it is too late. -/
theorem run_remember_of_loading (h : w.slot id q = .loading) :
    (remember limits id deadline q load).run w =
      (.error (timedOut limits w id), w.passTo (deadline + 1)) := by
  simp only [remember, ExceptT.run_mk, h]

theorem run_remember_of_empty {outcome : Except AuthzError q.Answer} {w' : World σ}
    (h : w.slot id q = .empty) (hload : load.run (w.setSlot id q .loading) = (outcome, w')) :
    (remember limits id deadline q load).run w =
      (outcome, w'.setSlot id q (outcome.toOption.elim .empty .filled)) := by
  simp only [remember, ExceptT.run_mk, h, hload]
  cases outcome with
  | ok answer => rfl
  | error e => rfl

end Remember

/-- Remembering takes the course of loading, with the slot opened before and filled or closed
afterwards. -/
theorem proceeds_remember {q : Question} {load : Decision σ q.Answer}
    (hload : Proceeds limits consult id deadline q.rank (fun _ => True) load
      fun answer w => w.Grounds id q answer) :
    Proceeds limits consult id deadline (q.rank + 1) (fun _ => True)
      (remember limits id deadline q load) fun answer w => w.slot id q = .filled answer := by
  intro w service hs _
  cases hslot : w.slot id q with
  | filled answer =>
    rw [run_remember_of_filled deadline load hslot]
    refine ⟨Settles.refl w, .answered .refl, ?_⟩
    rintro _ ⟨⟩
    exact hslot
  | loading =>
    rw [run_remember_of_loading deadline load hslot]
    refine ⟨?_, .blocked .refl q (Nat.lt_succ_self _) hslot .refl, nofun⟩
    rw [passTo_eq_pass]
    exact settles_pass limits w _
  | empty =>
    have hs' : (w.setSlot id q .loading).service? id =
        some { service with memo := service.memo.set q .loading } := by
      rw [service?_setSlot, hs, Option.map_some, if_pos rfl]
    obtain ⟨hsettles, hcourse, hpost⟩ := hload _ _ hs' trivial
    -- a slot of a lower rank is another one than the slot that was opened
    have hopen : ∀ q' : Question, q'.rank < q.rank →
        (w.setSlot id q .loading).slot id q' = .loading → w.slot id q' = .loading := by
      intro q' hrank hloading
      rwa [slot_setSlot_ne] at hloading
      rintro - rfl
      exact Nat.lt_irrefl _ hrank
    have hfirst : Moves consult id deadline w (w.setSlot id q .loading) :=
      .single (.slot ⟨q, .loading, rfl⟩)
    cases hrun : load.run (w.setSlot id q .loading) with
    | mk outcome w' =>
      rw [hrun] at hsettles hcourse hpost
      rw [run_remember_of_empty deadline load hslot hrun]
      have hcourse' := (hcourse.after hfirst (Nat.le_succ _) hopen).setSlot q
        (outcome.toOption.elim .empty .filled)
      obtain ⟨service', hs'', -⟩ := hsettles.later hs'
      cases outcome with
      | ok answer =>
        refine ⟨hsettles.around hs hslot nofun fun hl => ?_, hcourse', ?_⟩
        · exact .fill w' id q answer hl (hpost answer rfl)
        · rintro _ ⟨⟩
          exact slot_setSlot_self hs'' q (.filled answer)
      | error e =>
        refine ⟨hsettles.around hs hslot nofun fun hl => ?_, hcourse', nofun⟩
        exact .of_setSlot (.unload w' id q hl) nofun

/-! ## Every question is put to the backend first -/

section Resolution

/-- What is made of the backend's answer to a question. A refusal is followed up. -/
def followUp (limits : CacheLimits) (consult : Consult σ) (id : ServiceId) (deadline : Instant) :
    (q : Question) → q.Answer → Decision σ q.Answer
  | .action name, granted =>
    if granted = true then pure true
    else resolve limits consult id deadline (.resource (.everywhere name))
  | .group name, member =>
    if member = true then pure true
    else resolve limits consult id deadline .rules >>= fun rules => pure (rules.hasGroup name)
  | .resource p, granted =>
    if granted = true then pure true
    else resolve limits consult id deadline .rules >>= fun rules =>
      grantedByRule limits consult id deadline p rules.entries
  | .rules, rules => pure rules
  | .attributes, attributes => pure attributes
  | .identity, identity => pure identity

theorem resolve_eq (q : Question) :
    resolve limits consult id deadline q =
      remember limits id deadline q
        (consult id deadline q >>= followUp limits consult id deadline q) := by
  cases q with
  | action name => rfl
  | group name => rfl
  | resource p => rfl
  | rules => exact congrArg (remember limits id deadline .rules) (bind_pure _).symm
  | attributes => exact congrArg (remember limits id deadline .attributes) (bind_pure _).symm
  | identity => exact congrArg (remember limits id deadline .identity) (bind_pure _).symm

/-- A way to put questions that settles, and gives no answers but what the service has heard. -/
def Reliable (limits : CacheLimits) (consult : Consult σ) : Prop :=
  ∀ id deadline q w service, w.service? id = some service →
    Settles limits w ((consult id deadline q).run w).2 ∧
    ∀ answer, ((consult id deadline q).run w).1 = .ok answer →
      ((consult id deadline q).run w).2.Heard id q answer

theorem proceeds_consult (hconsult : Reliable limits consult) (q : Question) :
    Proceeds limits consult id deadline 0 (fun _ => True) (consult id deadline q)
      fun answer w => w.Heard id q answer := by
  intro w service hs _
  obtain ⟨hsettles, hheard⟩ := hconsult id deadline q w service hs
  refine ⟨hsettles, ?_, hheard⟩
  cases hrun : (consult id deadline q).run w with
  | mk outcome w' =>
    cases outcome with
    | ok answer => exact .answered (.single (.ask q answer hrun))
    | error e => exact .refused .refl q hrun .refl

variable (hconsult : Reliable limits consult)

include hconsult

theorem proceeds_resolve_of_followUp (q : Question)
    (hfollow : ∀ answer, Proceeds limits consult id deadline q.rank
      (fun w => w.Heard id q answer) (followUp limits consult id deadline q answer)
      fun answer w => w.Grounds id q answer) :
    Proceeds limits consult id deadline (q.rank + 1) (fun _ => True)
      (resolve limits consult id deadline q) fun answer w => w.slot id q = .filled answer := by
  rw [resolve_eq]
  exact proceeds_remember (proceeds_bind
    ((proceeds_consult hconsult q).mono (Nat.zero_le _)) hfollow)

theorem proceeds_rules :
    Proceeds limits consult id deadline 1 (fun _ => True)
      (resolve limits consult id deadline .rules) fun rules w => w.slot id .rules = .filled rules :=
  proceeds_resolve_of_followUp hconsult .rules fun _ => proceeds_pure fun _ hheard => hheard

/-- What the backend has refused is still refused when the rules are there. -/
theorem proceeds_rules_after {q : Question} {answer : q.Answer} {rank : Nat} (hrank : 1 ≤ rank) :
    Proceeds limits consult id deadline rank (fun w => w.Heard id q answer)
      (resolve limits consult id deadline .rules)
      fun rules w => w.Heard id q answer ∧ w.slot id .rules = .filled rules :=
  (((proceeds_rules hconsult).mono hrank).keep fun _ _ hsteps hheard => hsteps.heard hheard).imp
    (fun _ hheard => ⟨hheard, trivial⟩) fun _ _ h => h

theorem proceeds_followUp_group (name : String) (member : Bool) :
    Proceeds limits consult id deadline 1 (fun w => w.Heard id (.group name) member)
      (followUp limits consult id deadline (.group name) member)
      fun member w => w.Grounds id (.group name) member := by
  cases member with
  | true => exact proceeds_pure fun w hheard => .inl ⟨hheard, rfl⟩
  | false =>
    refine proceeds_bind (proceeds_rules_after hconsult (Nat.le_refl 1)) fun rules => ?_
    exact proceeds_pure fun w ⟨hheard, hrules⟩ => .inr ⟨hheard, rules, hrules, rfl⟩

theorem proceeds_grantedByRule (p : ResourcePermission)
    (rules : List (String × List ResourcePermission)) :
    Proceeds limits consult id deadline 2 (fun _ => True)
      (grantedByRule limits consult id deadline p rules)
      fun allowed w => w.DecidedByRules id p rules allowed := by
  induction rules with
  | nil => exact proceeds_pure fun w _ => nofun
  | cons rule rest ih =>
    obtain ⟨group, granted⟩ := rule
    by_cases hcovers : granted.any (·.covers p) = true
    · rw [grantedByRule, if_pos hcovers]
      refine proceeds_bind (proceeds_resolve_of_followUp hconsult (.group group)
        (proceeds_followUp_group hconsult group)) fun member => ?_
      cases member with
      | true =>
        exact proceeds_pure fun w hgroup => ⟨(group, granted), List.mem_cons_self, hcovers, hgroup⟩
      | false =>
        -- the group stays denied while the rest is looked through
        have hkeep := ih.keep (P := fun w => w.slot id (.group group) = .filled false)
          fun w w' hsteps hdenied => hsteps.leads.slot_filled hdenied
        refine hkeep.imp (fun w hdenied => ⟨hdenied, trivial⟩) ?_
        rintro (_ | _) w ⟨hdenied, hrest⟩
        · exact List.forall_mem_cons.2 ⟨fun _ => hdenied, hrest⟩
        · exact hrest.imp fun rule h => ⟨List.mem_cons_of_mem _ h.1, h.2⟩
    · rw [grantedByRule, if_neg hcovers]
      refine ih.imp (fun w h => h) ?_
      rintro (_ | _) w hrest
      · exact List.forall_mem_cons.2 ⟨fun h => absurd h hcovers, hrest⟩
      · exact hrest.imp fun rule h => ⟨List.mem_cons_of_mem _ h.1, h.2⟩

theorem proceeds_followUp_resource (p : ResourcePermission) (granted : Bool) :
    Proceeds limits consult id deadline 2 (fun w => w.Heard id (.resource p) granted)
      (followUp limits consult id deadline (.resource p) granted)
      fun allowed w => w.Grounds id (.resource p) allowed := by
  cases granted with
  | true => exact proceeds_pure fun w hheard => .inl ⟨hheard, rfl⟩
  | false =>
    refine proceeds_bind (proceeds_rules_after hconsult (Nat.le_succ 1)) fun rules => ?_
    -- the refusal and the rules are still known when the rules have been looked through
    refine ((proceeds_grantedByRule hconsult p rules.entries).keep
      (P := fun w => w.Heard id (.resource p) false ∧ w.slot id .rules = .filled rules) ?_).imp
      (fun w h => ⟨h, trivial⟩) ?_
    · exact fun w w' hsteps h => ⟨hsteps.heard h.1, hsteps.leads.slot_filled h.2⟩
    · exact fun allowed w h => .inr ⟨h.1.1, rules, h.1.2, h.2⟩

theorem proceeds_followUp_action (name : String) (granted : Bool) :
    Proceeds limits consult id deadline 3 (fun w => w.Heard id (.action name) granted)
      (followUp limits consult id deadline (.action name) granted)
      fun allowed w => w.Grounds id (.action name) allowed := by
  cases granted with
  | true => exact proceeds_pure fun w hheard => .inl ⟨hheard, rfl⟩
  | false =>
    refine ((proceeds_resolve_of_followUp hconsult (.resource (.everywhere name))
      (proceeds_followUp_resource hconsult (.everywhere name))).keep
      (P := fun w => w.Heard id (.action name) false) ?_).imp (fun w h => ⟨h, trivial⟩) ?_
    · exact fun w w' hsteps h => hsteps.heard h
    · exact fun allowed w h => .inr h

/-- What is made of the backend's answer has grounds. -/
theorem proceeds_followUp (q : Question) (answer : q.Answer) :
    Proceeds limits consult id deadline q.rank (fun w => w.Heard id q answer)
      (followUp limits consult id deadline q answer) fun answer w => w.Grounds id q answer := by
  cases q with
  | action name => exact proceeds_followUp_action hconsult name answer
  | group name => exact proceeds_followUp_group hconsult name answer
  | resource p => exact proceeds_followUp_resource hconsult p answer
  | rules => exact proceeds_pure fun _ hheard => hheard
  | attributes => exact proceeds_pure fun _ hheard => hheard
  | identity => exact proceeds_pure fun _ hheard => hheard

/-- Every decision takes a course, and what comes out of it is remembered. -/
theorem proceeds_resolve (q : Question) :
    Proceeds limits consult id deadline (q.rank + 1) (fun _ => True)
      (resolve limits consult id deadline q) fun answer w => w.slot id q = .filled answer :=
  proceeds_resolve_of_followUp hconsult q (proceeds_followUp hconsult q)

end Resolution

/-! ## One decision of a service -/

theorem run_ensureCurrent (id : ServiceId) (w : World σ) :
    (ensureCurrent id).run w =
      (if w.isInvalidated id then .error (.invalidated (scopeOf w id)) else .ok (), w) := by
  show (if w.isInvalidated id = true then throw (.invalidated (scopeOf w id)) else pure () :
    Decision σ Unit).run w = _
  by_cases h : w.isInvalidated id = true
  · rw [if_pos h, if_pos h]
    rfl
  · rw [if_neg h, if_neg h]
    rfl

theorem run_setDeadline (limits : CacheLimits) (w : World σ) :
    (setDeadline limits).run w = (.ok (w.now + limits.timeout), w.pass 1) := rfl

/-- A decision of a service that is current when it starts comes to what the resolution of the
question comes to, unless the service is invalidated by then. -/
theorem run_answerFrom_of_current {consult : Consult σ} {w : World σ}
    (h : w.isInvalidated id = false) (q : Question) :
    (answerFrom limits consult id q).run w =
      match (resolve limits consult id (w.now + limits.timeout) q).run (w.pass 1) with
      | (.ok answer, w') =>
        (if w'.isInvalidated id then .error (.invalidated (scopeOf w' id)) else .ok answer, w')
      | (.error e, w') => (.error e, w') := by
  rw [answerFrom, run_bind, run_ensureCurrent, h]
  show (setDeadline limits >>= _).run w = _
  rw [run_bind_of_ok (run_setDeadline limits w), run_bind]
  cases (resolve limits consult id (w.now + limits.timeout) q).run (w.pass 1) with
  | mk outcome w' =>
    cases outcome with
    | error e => rfl
    | ok answer =>
      show (ensureCurrent id >>= _).run w' = _
      rw [run_bind, run_ensureCurrent]
      by_cases hmark : w'.isInvalidated id = true
      · simp only [hmark, if_true]
      · simp only [hmark]
        rfl

/-- A decision of a service that is not current ends at once. -/
theorem run_answerFrom_of_invalidated {consult : Consult σ} {w : World σ}
    (h : w.isInvalidated id = true) (q : Question) :
    (answerFrom limits consult id q).run w = (.error (.invalidated (scopeOf w id)), w) := by
  rw [answerFrom, run_bind, run_ensureCurrent, if_pos h]

/-- Looking at the mark again changes nothing in the world. -/
theorem world_answerFrom_of_current (h : w.isInvalidated id = false) (q : Question) :
    ((answerFrom limits consult id q).run w).2 =
      ((resolve limits consult id (w.now + limits.timeout) q).run (w.pass 1)).2 := by
  rw [run_answerFrom_of_current h]
  cases (resolve limits consult id (w.now + limits.timeout) q).run (w.pass 1) with
  | mk outcome w' =>
    cases outcome with
    | ok answer => rfl
    | error e => rfl

/-- A decision of a service keeps what its lookups keep, its changes of slots, and the passing of
time. -/
theorem InvariantAt.answerFrom {P : World σ → Prop}
    (hP : InvariantAt consult id (w.now + limits.timeout) P) (hconsult : Reliable limits consult)
    (q : Question) (hw : P w) : P ((answerFrom limits consult id q).run w).2 := by
  by_cases hmark : w.isInvalidated id = true
  · rw [run_answerFrom_of_invalidated hmark]
    exact hw
  · rw [Bool.not_eq_true] at hmark
    rw [world_answerFrom_of_current hmark]
    obtain ⟨service, hs, -⟩ := exists_service_of_current hmark
    obtain ⟨-, hcourse, -⟩ := proceeds_resolve hconsult q (w.pass 1) service hs trivial
    exact hP.course hcourse (hP.pass w 1 hw)

/-- A service gives the answer that the question is resolved to, if it is current before and
after. -/
theorem run_answerFrom_ok_iff {q : Question} {answer : q.Answer} :
    (answerFrom limits consult id q).run w = (.ok answer, w') ↔
      w.isInvalidated id = false ∧
      (resolve limits consult id (w.now + limits.timeout) q).run (w.pass 1) = (.ok answer, w') ∧
      w'.isInvalidated id = false := by
  constructor
  · intro h
    cases hstart : w.isInvalidated id with
    | true =>
      rw [run_answerFrom_of_invalidated hstart] at h
      cases h
    | false =>
      rw [run_answerFrom_of_current hstart] at h
      cases hrun : (resolve limits consult id (w.now + limits.timeout) q).run (w.pass 1) with
      | mk outcome w'' =>
        rw [hrun] at h
        cases outcome with
        | error e => cases h
        | ok found =>
          cases hend : w''.isInvalidated id with
          | true =>
            simp only [hend, if_true] at h
            cases h
          | false =>
            simp only [hend] at h
            cases h
            exact ⟨rfl, rfl, hend⟩
  · rintro ⟨hstart, hrun, hend⟩
    rw [run_answerFrom_of_current hstart, hrun]
    simp only [hend]
    rfl

/-- What is remembered is not asked of the backend again. -/
theorem run_resolve_of_filled {q : Question} {answer : q.Answer}
    (h : w.slot id q = .filled answer) (deadline : Instant) :
    (resolve limits consult id deadline q).run w = (.ok answer, w) := by
  rw [resolve_eq]
  exact run_remember_of_filled deadline _ h

/-- A service that is not marked gives the answers that it remembers. -/
theorem run_answerFrom_of_filled (hcurrent : w.isInvalidated id = false) {q : Question}
    {answer : q.Answer} (h : w.slot id q = .filled answer) :
    (answerFrom limits consult id q).run w = (.ok answer, w.pass 1) := by
  have hslot : (w.pass 1).slot id q = .filled answer := h
  have hstill : (w.pass 1).isInvalidated id = false := hcurrent
  exact run_answerFrom_ok_iff.2 ⟨hcurrent, run_resolve_of_filled hslot _, hstill⟩

/-- What a decision answers is remembered, for the slot of the question is filled with it. -/
theorem slot_of_run_answerFrom (hconsult : Reliable limits consult) {q : Question}
    {answer : q.Answer} (h : (answerFrom limits consult id q).run w = (.ok answer, w')) :
    w'.slot id q = .filled answer := by
  obtain ⟨hcurrent, hrun, -⟩ := run_answerFrom_ok_iff.1 h
  obtain ⟨service, hs, -⟩ := exists_service_of_current hcurrent
  obtain ⟨-, -, hfilled⟩ := proceeds_resolve hconsult q (w.pass 1) service hs trivial
  rw [hrun] at hfilled
  exact hfilled answer rfl

end Decision

end Gatehouse
