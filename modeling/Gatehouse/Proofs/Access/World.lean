import Mathlib.Logic.Relation
import Gatehouse.Access.Cache

/-!
# Changes of the decision cache, one at a time

Whatever is done with the cache, and whatever a backend does while it is asked, the world changes
in a few ways only: a service is fetched, marked, invalidated with its module, swept out or
cleared away, a slot is opened, filled or closed again, time passes, the backend changes its
state, or something is noted or reported. Each way is a case of `World.Change`, and `World.Leads`
is any sequence of them. What every change keeps, every run keeps.

- `fetch_cases`: the two ways in which a service is fetched.
- `service?_invalidate`: which services an invalidation marks.
- `Later` and `Leads.later`: a service keeps its scope and its date of creation, its mark if it
  has one, and every answer that it remembers.
- `Coherent` and `Leads.coherent`: the store holds each service under its own scope.
-/

namespace Gatehouse

namespace World

variable {σ : Type} {limits : CacheLimits} {w w' : World σ}

/-! ## What single operations do to services -/

theorem service?_modifyService (w : World σ) (id id' : ServiceId) (change : Service → Service) :
    (w.modifyService id change).service? id' =
      if id = id' then (w.service? id').map change else w.service? id' := by
  show (w.services.modify id change)[id']? = _
  rw [List.getElem?_modify]
  show Option.map _ (w.service? id') = _
  by_cases h : id = id'
  · simp [h]
  · simp [h]

theorem service?_markInvalid (w : World σ) (id id' : ServiceId) :
    (w.markInvalid id).service? id' =
      (w.service? id').map fun service =>
        if id = id' then { service with invalidated := true } else service := by
  rw [markInvalid, service?_modifyService]
  by_cases h : id = id'
  · simp [h]
  · simp [h]

theorem service?_setSlot (w : World σ) (id id' : ServiceId) (q : Question) (slot : Slot q.Answer) :
    (w.setSlot id q slot).service? id' =
      (w.service? id').map fun service =>
        if id = id' then { service with memo := service.memo.set q slot } else service := by
  rw [setSlot, service?_modifyService]
  by_cases h : id = id'
  · simp [h]
  · simp [h]

/-- Fetching either finds a live service and changes nothing, or creates a service and puts it
into the store, where there was none or one that is not live. -/
theorem fetch_cases (limits : CacheLimits) (scope : Scope) (w : World σ) :
    (∃ id, w.store.get? scope = some id ∧ w.isLive limits id = true ∧
      w.fetch limits scope = (id, w)) ∨
    ((∀ id, w.store.get? scope = some id → w.isLive limits id = false) ∧
      w.fetch limits scope = (w.services.length,
        { w with
          services := w.services ++ [⟨scope, w.now, false, .empty⟩]
          store := w.store.put scope w.services.length })) := by
  unfold fetch Store.access
  cases hget : w.store.get? scope with
  | none => exact .inr ⟨nofun, rfl⟩
  | some id =>
    cases hlive : w.isLive limits id with
    | true =>
      refine .inl ⟨id, rfl, hlive, ?_⟩
      simp [hlive]
    | false =>
      refine .inr ⟨?_, ?_⟩
      · rintro _ ⟨⟩
        exact hlive
      · simp [hlive]

/-- Services that exist are the same after a fetch. -/
theorem service?_fetch {id : ServiceId} {service : Service} (h : w.service? id = some service)
    (limits : CacheLimits) (scope : Scope) :
    (w.fetch limits scope).2.service? id = some service := by
  rcases fetch_cases limits scope w with ⟨id', -, -, hf⟩ | ⟨-, hf⟩
  · rw [hf]
    exact h
  · rw [hf]
    show (w.services ++ _)[id]? = some service
    rw [List.getElem?_append_left (List.getElem?_eq_some_iff.1 h).1]
    exact h

theorem service?_foldl_markInvalid (entries : List (Scope × ServiceId)) :
    ∀ (w : World σ) (id : ServiceId),
      (entries.foldl (fun w (entry : Scope × ServiceId) => w.markInvalid entry.2) w).service? id =
        (w.service? id).map fun service =>
          if id ∈ entries.map Prod.snd then { service with invalidated := true }
          else service := by
  -- for every world, since each mark moves on to another one
  induction entries with
  | nil =>
    intro w id
    simp
  | cons entry rest ih =>
    intro w id
    rw [List.foldl_cons, ih, service?_markInvalid, Option.map_map]
    congr 1
    funext service
    simp only [Function.comp_apply, List.map_cons, List.mem_cons]
    by_cases hfirst : entry.2 = id
    · by_cases hrest : id ∈ rest.map Prod.snd
      · simp only [hfirst, hrest, if_true, true_or]
      · simp only [hfirst, hrest, if_true, if_false, true_or]
    · by_cases hrest : id ∈ rest.map Prod.snd
      · simp only [hfirst, hrest, if_true, if_false, or_true]
      · simp only [hfirst, Ne.symm hfirst, hrest, if_false, or_false]

/-- The services of a module that are in the store. -/
def stored (w : World σ) (m : ModuleName) : List ServiceId :=
  (w.store.entries.filter fun (scope, _) => scope.module = m).map Prod.snd

theorem mem_stored_iff {m : ModuleName} {id : ServiceId} :
    id ∈ w.stored m ↔ ∃ scope, scope.module = m ∧ w.store.get? scope = some id := by
  simp only [stored, List.mem_map, List.mem_filter, decide_eq_true_eq, Table.get?_eq_some_iff]
  constructor
  · rintro ⟨⟨scope, _⟩, ⟨hmem, hm⟩, rfl⟩
    exact ⟨scope, hm, hmem⟩
  · rintro ⟨scope, hm, hmem⟩
    exact ⟨(scope, id), ⟨hmem, hm⟩, rfl⟩

/-- An invalidation marks the services of its module that are in the store, and no others. -/
theorem service?_invalidate (m : ModuleName) (w : World σ) (id : ServiceId) :
    (w.invalidate m).2.service? id =
      (w.service? id).map fun service =>
        if id ∈ w.stored m then { service with invalidated := true } else service :=
  service?_foldl_markInvalid _ w id

theorem foldl_markInvalid_eq (entries : List (Scope × ServiceId)) (w : World σ) :
    entries.foldl (fun w (entry : Scope × ServiceId) => w.markInvalid entry.2) w =
      { w with services := (entries.foldl (fun w entry => w.markInvalid entry.2) w).services } := by
  induction entries generalizing w with
  | nil => rfl
  | cons entry rest ih =>
    rw [List.foldl_cons, ih]
    rfl

/-- An invalidation changes services and the store, and nothing else. -/
theorem invalidate_eq (m : ModuleName) (w : World σ) :
    (w.invalidate m).2 =
      { w with services := (w.invalidate m).2.services, store := (w.invalidate m).2.store } := by
  unfold invalidate
  rw [foldl_markInvalid_eq]

/-- A fetch changes services and the store, and nothing else. -/
theorem fetch_eq (limits : CacheLimits) (scope : Scope) (w : World σ) :
    (w.fetch limits scope).2 =
      { w with
        services := (w.fetch limits scope).2.services
        store := (w.fetch limits scope).2.store } := by
  rcases fetch_cases limits scope w with ⟨id, -, -, hf⟩ | ⟨-, hf⟩
  · rw [hf]
  · rw [hf]

/-- Waiting until an instant is waiting for some time, possibly none. -/
theorem passTo_eq_pass (w : World σ) (instant : Instant) :
    w.passTo instant = w.pass (instant - w.now) := by
  rw [passTo, pass, Nat.add_comm, Nat.sub_add_eq_max, Nat.max_comm]

/-! ## Slots -/

theorem slot_eq_of_service {id : ServiceId} {service : Service}
    (h : w.service? id = some service) (q : Question) : w.slot id q = service.memo.get q := by
  rw [slot, h]

theorem isInvalidated_eq_of_service {id : ServiceId} {service : Service}
    (h : w.service? id = some service) : w.isInvalidated id = service.invalidated := by
  rw [isInvalidated, h]

/-- A mark does not depend on slots. -/
theorem isInvalidated_setSlot (w : World σ) (id id' : ServiceId) (q : Question)
    (slot : Slot q.Answer) : (w.setSlot id q slot).isInvalidated id' = w.isInvalidated id' := by
  have hafter := service?_setSlot w id id' q slot
  cases hs : w.service? id' with
  | none =>
    rw [hs] at hafter
    rw [isInvalidated, isInvalidated, hafter, hs, Option.map_none]
  | some service =>
    rw [hs, Option.map_some] at hafter
    rw [isInvalidated_eq_of_service hafter, isInvalidated_eq_of_service hs]
    split <;> rfl

theorem isInvalidated_markInvalid_ne {id id' : ServiceId} (h : id ≠ id') (w : World σ) :
    (w.markInvalid id).isInvalidated id' = w.isInvalidated id' := by
  have hsame : (w.markInvalid id).service? id' = w.service? id' := by
    rw [service?_markInvalid]
    simp [h]
  rw [isInvalidated, isInvalidated, hsame]

/-- Only a service that exists has slots in use. -/
theorem exists_service_of_slot {id : ServiceId} {q : Question} (h : w.slot id q ≠ .empty) :
    ∃ service, w.service? id = some service := by
  cases hs : w.service? id with
  | none =>
    rw [slot, hs] at h
    exact absurd rfl h
  | some service => exact ⟨service, rfl⟩

/-- A service that is not marked exists. -/
theorem exists_service_of_current {id : ServiceId} (h : w.isInvalidated id = false) :
    ∃ service, w.service? id = some service ∧ service.invalidated = false := by
  rw [isInvalidated] at h
  cases hs : w.service? id with
  | none =>
    rw [hs] at h
    cases h
  | some service =>
    rw [hs] at h
    exact ⟨service, rfl, h⟩

theorem slot_setSlot_self {id : ServiceId} {service : Service} (h : w.service? id = some service)
    (q : Question) (slot : Slot q.Answer) : (w.setSlot id q slot).slot id q = slot := by
  rw [World.slot, service?_setSlot, h]
  simp

theorem slot_setSlot_ne {id id' : ServiceId} {q q' : Question} (slot : Slot q.Answer)
    (h : id = id' → q ≠ q') : (w.setSlot id q slot).slot id' q' = w.slot id' q' := by
  rw [World.slot, World.slot, service?_setSlot]
  cases w.service? id' with
  | none => rfl
  | some service =>
    by_cases hid : id = id'
    · simp [hid, Memo.get_set_ne _ _ (h hid)]
    · simp [hid]

/-- A slot that is filled after some slot was set to something else was filled before. -/
theorem filled_of_setSlot {id id' : ServiceId} {q q' : Question} {slot : Slot q.Answer}
    {answer : q'.Answer} (hslot : ∀ a, slot ≠ .filled a)
    (h : (w.setSlot id q slot).slot id' q' = .filled answer) : w.slot id' q' = .filled answer := by
  by_cases hsame : id = id' ∧ q = q'
  · obtain ⟨rfl, rfl⟩ := hsame
    cases hs : w.service? id with
    | some service =>
      rw [slot_setSlot_self hs] at h
      exact absurd h (hslot answer)
    | none =>
      rw [World.slot, service?_setSlot, hs] at h
      cases h
  · rwa [slot_setSlot_ne _ fun hid hq => hsame ⟨hid, hq⟩] at h

/-- Services with the same memo have the same slots. -/
theorem slot_congr_memo {id : ServiceId} (q : Question)
    (h : (w'.service? id).map Service.memo = (w.service? id).map Service.memo) :
    w'.slot id q = w.slot id q := by
  rw [slot, slot]
  cases hs : w.service? id with
  | none =>
    cases hs' : w'.service? id with
    | none => rfl
    | some service' =>
      rw [hs, hs'] at h
      cases h
  | some service =>
    cases hs' : w'.service? id with
    | none =>
      rw [hs, hs'] at h
      cases h
    | some service' =>
      rw [hs, hs'] at h
      exact congrArg (Memo.get · q) (Option.some.inj h)

/-- Marking some of the services changes no slot. -/
theorem slot_eq_of_marks (marked : ServiceId → Prop) [DecidablePred marked]
    (hmark : ∀ id, w'.service? id = (w.service? id).map fun service =>
      if marked id then { service with invalidated := true } else service)
    (id : ServiceId) (q : Question) : w'.slot id q = w.slot id q := by
  apply slot_congr_memo
  rw [hmark, Option.map_map]
  congr 1
  funext service
  by_cases hid : marked id
  · simp [hid]
  · simp [hid]

@[simp] theorem slot_markInvalid (w : World σ) (id id' : ServiceId) (q : Question) :
    (w.markInvalid id).slot id' q = w.slot id' q :=
  slot_eq_of_marks (id = ·) (service?_markInvalid w id) id' q

@[simp] theorem slot_invalidate (w : World σ) (m : ModuleName) (id : ServiceId) (q : Question) :
    (w.invalidate m).2.slot id q = w.slot id q :=
  slot_eq_of_marks (· ∈ w.stored m) (service?_invalidate m w) id q

/-- A new service has empty slots, as it had before it was created. -/
@[simp] theorem slot_fetch (w : World σ) (limits : CacheLimits) (scope : Scope) (id : ServiceId)
    (q : Question) : (w.fetch limits scope).2.slot id q = w.slot id q := by
  cases hs : w.service? id with
  | some service => rw [slot_eq_of_service hs, slot_eq_of_service (service?_fetch hs limits scope)]
  | none =>
    have hempty : w.slot id q = .empty := by rw [slot, hs]
    rcases fetch_cases limits scope w with ⟨id', -, -, hf⟩ | ⟨-, hf⟩
    · rw [hf]
    · rw [hf, hempty]
      simp only [slot, service?]
      rw [List.getElem?_append_right (List.getElem?_eq_none_iff.1 hs)]
      cases id - w.services.length with
      | zero => rfl
      | succ n => rfl

/-! ## Changes -/

/-- The ways in which the world changes. -/
inductive Change (limits : CacheLimits) : World σ → World σ → Prop where
  | fetch (w : World σ) (scope : Scope) : Change limits w (w.fetch limits scope).2
  | mark (w : World σ) (id : ServiceId) : Change limits w (w.markInvalid id)
  | invalidate (w : World σ) (m : ModuleName) : Change limits w (w.invalidate m).2
  | evict (w : World σ) : Change limits w (w.evict limits).2
  | clear (w : World σ) : Change limits w w.clear
  | load (w : World σ) (id : ServiceId) (q : Question) (h : w.slot id q = .empty) :
    Change limits w (w.setSlot id q .loading)
  | fill (w : World σ) (id : ServiceId) (q : Question) (answer : q.Answer)
    (h : w.slot id q = .loading) : Change limits w (w.setSlot id q (.filled answer))
  | unload (w : World σ) (id : ServiceId) (q : Question) (h : w.slot id q = .loading) :
    Change limits w (w.setSlot id q .empty)
  | pass (w : World σ) (nanos : Nat) : Change limits w (w.pass nanos)
  | backend (w : World σ) (state : σ) : Change limits w { w with backend := state }
  | note (w : World σ) (occurrence : Occurrence) : Change limits w (w.note occurrence)
  | report (w : World σ) (report : LookupReport) : Change limits w (w.report report)

/-- A world is reached from another one by any number of changes. -/
abbrev Leads (limits : CacheLimits) : World σ → World σ → Prop :=
  Relation.ReflTransGen (Change limits)

/-! ## What becomes of a service -/

/-- What stays true of a service as time goes on. -/
structure Later (service service' : Service) : Prop where
  scope : service'.scope = service.scope
  createdAt : service'.createdAt = service.createdAt
  invalidated : service.invalidated = true → service'.invalidated = true
  remembered : ∀ q answer, service.memo.get q = .filled answer →
    service'.memo.get q = .filled answer

theorem Later.refl (service : Service) : Later service service :=
  ⟨rfl, rfl, id, fun _ _ h => h⟩

theorem Later.trans {s₁ s₂ s₃ : Service} (h₁ : Later s₁ s₂) (h₂ : Later s₂ s₃) : Later s₁ s₃ where
  scope := h₂.scope.trans h₁.scope
  createdAt := h₂.createdAt.trans h₁.createdAt
  invalidated h := h₂.invalidated (h₁.invalidated h)
  remembered q answer h := h₂.remembered q answer (h₁.remembered q answer h)

theorem Later.mark (service : Service) : Later service { service with invalidated := true } :=
  ⟨rfl, rfl, fun _ => rfl, fun _ _ h => h⟩

/-- A slot that holds no answer may be changed. -/
theorem Later.set {service : Service} {q : Question}
    (h : ∀ answer, service.memo.get q ≠ .filled answer) (slot : Slot q.Answer) :
    Later service { service with memo := service.memo.set q slot } where
  scope := rfl
  createdAt := rfl
  invalidated hmark := hmark
  remembered q' answer hfilled := by
    by_cases hq : q = q'
    · subst hq
      exact absurd hfilled (h answer)
    · rw [Memo.get_set_ne _ _ hq]
      exact hfilled

/-- Changing a slot that holds no answer keeps what was known of a service. -/
theorem later_setSlot {id id' : ServiceId} {q : Question} {service : Service}
    (hslot : ∀ answer, w.slot id q ≠ .filled answer) (slot : Slot q.Answer)
    (hs : w.service? id' = some service) :
    ∃ service', (w.setSlot id q slot).service? id' = some service' ∧ Later service service' := by
  rw [service?_setSlot, hs, Option.map_some]
  by_cases hid : id = id'
  · subst hid
    rw [slot_eq_of_service hs] at hslot
    rw [if_pos rfl]
    exact ⟨_, rfl, Later.set hslot slot⟩
  · rw [if_neg hid]
    exact ⟨service, rfl, Later.refl service⟩

theorem Change.later (h : Change limits w w') {id : ServiceId} {service : Service}
    (hs : w.service? id = some service) :
    ∃ service', w'.service? id = some service' ∧ Later service service' := by
  cases h with
  | fetch scope => exact ⟨service, service?_fetch hs limits scope, Later.refl service⟩
  | mark id' =>
    rw [service?_markInvalid, hs, Option.map_some]
    by_cases hid : id' = id
    · rw [if_pos hid]
      exact ⟨_, rfl, Later.mark service⟩
    · rw [if_neg hid]
      exact ⟨service, rfl, Later.refl service⟩
  | invalidate m =>
    rw [service?_invalidate, hs, Option.map_some]
    by_cases hid : id ∈ w.stored m
    · rw [if_pos hid]
      exact ⟨_, rfl, Later.mark service⟩
    · rw [if_neg hid]
      exact ⟨service, rfl, Later.refl service⟩
  | load id' q hslot =>
    exact later_setSlot (by simp [hslot]) _ hs
  | fill id' q answer hslot =>
    exact later_setSlot (by simp [hslot]) _ hs
  | unload id' q hslot =>
    exact later_setSlot (by simp [hslot]) _ hs
  | evict => exact ⟨service, hs, Later.refl service⟩
  | clear => exact ⟨service, hs, Later.refl service⟩
  | pass nanos => exact ⟨service, hs, Later.refl service⟩
  | backend state => exact ⟨service, hs, Later.refl service⟩
  | note occurrence => exact ⟨service, hs, Later.refl service⟩
  | report report => exact ⟨service, hs, Later.refl service⟩

/-- A service never vanishes, and what holds of it once stays true. -/
theorem Leads.later (h : Leads limits w w') {id : ServiceId} {service : Service}
    (hs : w.service? id = some service) :
    ∃ service', w'.service? id = some service' ∧ Later service service' := by
  induction h with
  | refl => exact ⟨service, hs, Later.refl service⟩
  | tail _ hstep ih =>
    obtain ⟨service₁, hs₁, hlater₁⟩ := ih
    obtain ⟨service₂, hs₂, hlater₂⟩ := hstep.later hs₁
    exact ⟨service₂, hs₂, hlater₁.trans hlater₂⟩

/-- An answer that is remembered is remembered for good. -/
theorem Leads.slot_filled (h : Leads limits w w') {id : ServiceId} {q : Question}
    {answer : q.Answer} (hfilled : w.slot id q = .filled answer) :
    w'.slot id q = .filled answer := by
  obtain ⟨service, hs⟩ := exists_service_of_slot (by rw [hfilled]; exact nofun)
  obtain ⟨service', hs', hlater⟩ := Leads.later h hs
  rw [slot_eq_of_service hs] at hfilled
  rw [slot_eq_of_service hs']
  exact hlater.remembered q answer hfilled

/-- A service that is marked stays marked. -/
theorem Leads.isInvalidated (h : Leads limits w w') {id : ServiceId} {service : Service}
    (hs : w.service? id = some service) (hmark : service.invalidated = true) :
    w'.isInvalidated id = true := by
  obtain ⟨service', hs', hlater⟩ := Leads.later h hs
  rw [World.isInvalidated, hs']
  exact hlater.invalidated hmark

/-! ## Services are stored under their own scope -/

/-- The store holds services that exist, each under its own scope. -/
def Coherent (w : World σ) : Prop :=
  ∀ scope id, w.store.get? scope = some id →
    ∃ service, w.service? id = some service ∧ service.scope = scope

theorem coherent_initial (backend : σ) (now : Instant) : (initial backend now).Coherent :=
  fun _ _ h => nomatch h

/-- A change that adds nothing to the store keeps services where they belong. -/
theorem Coherent.of_subset (h : w.Coherent) (hchange : Change limits w w')
    (hstore : ∀ scope id, w'.store.get? scope = some id → w.store.get? scope = some id) :
    w'.Coherent := by
  intro scope id hget
  obtain ⟨service, hs, hscope⟩ := h scope id (hstore scope id hget)
  obtain ⟨service', hs', hlater⟩ := hchange.later hs
  exact ⟨service', hs', hlater.scope.trans hscope⟩

theorem Coherent.fetch (h : w.Coherent) (limits : CacheLimits) (scope : Scope) :
    (w.fetch limits scope).2.Coherent := by
  rcases fetch_cases limits scope w with ⟨id, -, -, hf⟩ | ⟨-, hf⟩
  · rw [hf]
    exact h
  · intro scope' id' hget
    by_cases hscope : scope = scope'
    · -- the new service is the last one, and it is stored under the scope that it was created for
      rw [hf] at hget ⊢
      simp only [Table.get?_put, hscope, if_true, Option.some.injEq] at hget
      refine ⟨⟨scope, w.now, false, .empty⟩, ?_, hscope⟩
      show (w.services ++ _)[id']? = _
      rw [← hget, List.getElem?_concat_length]
    · have hold : w.store.get? scope' = some id' := by
        rw [hf] at hget
        simpa only [Table.get?_put, hscope, if_false] using hget
      obtain ⟨service, hs, hs'⟩ := h scope' id' hold
      exact ⟨service, service?_fetch hs limits scope, hs'⟩

/-- A service that is fetched has the scope that was asked for, and no mark. -/
theorem Coherent.fetched (h : w.Coherent) (limits : CacheLimits) (scope : Scope) :
    ∃ service, (w.fetch limits scope).2.service? (w.fetch limits scope).1 = some service ∧
      service.scope = scope ∧ service.invalidated = false := by
  rcases fetch_cases limits scope w with ⟨id, hget, hlive, hf⟩ | ⟨-, hf⟩
  · obtain ⟨service, hs, hscope⟩ := h scope id hget
    simp only [isLive, Bool.and_eq_true, Bool.not_eq_true'] at hlive
    obtain ⟨service', hs', hcurrent⟩ := exists_service_of_current hlive.2
    rw [hs] at hs'
    cases hs'
    rw [hf]
    exact ⟨service, hs, hscope, hcurrent⟩
  · rw [hf]
    refine ⟨⟨scope, w.now, false, .empty⟩, ?_, rfl, rfl⟩
    show (w.services ++ _)[w.services.length]? = _
    rw [List.getElem?_concat_length]

/-- What remains when some entries of a store are dropped was there before. -/
theorem get?_keepOnly {store : Store ServiceId} {keep : Scope → ServiceId → Bool} {scope : Scope}
    {id : ServiceId} (h : (store.keepOnly keep).2.get? scope = some id) :
    store.get? scope = some id ∧ keep scope id = true := by
  rw [Store.keepOnly, Table.get?_retain, Option.filter_eq_some_iff] at h
  exact h

theorem Change.coherent (h : Change limits w w') (hw : w.Coherent) : w'.Coherent := by
  -- kept, for only a fetch adds to the store, and all other cases go by `Coherent.of_subset`
  have hchange := h
  cases h with
  | fetch scope => exact hw.fetch limits scope
  | invalidate m => exact hw.of_subset hchange fun _ _ hget => (get?_keepOnly hget).1
  | evict => exact hw.of_subset hchange fun _ _ hget => (get?_keepOnly hget).1
  | clear => exact hw.of_subset hchange fun _ _ hget => nomatch hget
  | mark id => exact hw.of_subset hchange fun _ _ hget => hget
  | load id q hslot => exact hw.of_subset hchange fun _ _ hget => hget
  | fill id q answer hslot => exact hw.of_subset hchange fun _ _ hget => hget
  | unload id q hslot => exact hw.of_subset hchange fun _ _ hget => hget
  | pass nanos => exact hw.of_subset hchange fun _ _ hget => hget
  | backend state => exact hw.of_subset hchange fun _ _ hget => hget
  | note occurrence => exact hw.of_subset hchange fun _ _ hget => hget
  | report report => exact hw.of_subset hchange fun _ _ hget => hget

/-- In every world that is ever reached, services are stored under their own scope. -/
theorem Leads.coherent (h : Leads limits w w') (hw : w.Coherent) : w'.Coherent := by
  induction h with
  | refl => exact hw
  | tail _ hstep ih => exact hstep.coherent ih

end World

end Gatehouse
