import Gatehouse.Proofs.Access.Isolation
import Gatehouse.Proofs.Access.Marks
import Gatehouse.Proofs.Access.Simulation

/-!
# Sweeps go unnoticed

A sweep takes out of the store what has grown too old. A service that is too old stays so, and is
given to nobody any more: whoever asks for it gets a new one, which has the same number whether the
old one was swept out or is replaced now. So two runs that differ only in their sweeps go side by
side. Services that were swept out in the second one still lie in the store of the first one, where
nobody asks them. Only those who count can tell: an invalidation or a later sweep finds them in one
store, and not in the other.

Some things are left out, on purpose. Those who hold a service by its number ask it without the
store. If it was swept out and then its module is invalidated, the mark does not reach it, and it
goes on answering (`holder_notices_sweep`). For the same reason the sweeps are made between
commands: in the midst of a lookup that takes long, a sweep could put the service that waits for it
out of reach of an invalidation. And a backend that looks at the number of services that its own
commands dropped could make its answers depend on it.

- `Reply.uncounted`, `Occurrence.uncounted`: what remains without the numbers of dropped services.
- `PermissionBackend.Heedless`: backends that hold no services and do not look at such numbers.
- `World.Swept`: two worlds that differ in services that were swept out.
- `Swept.sweep`: a sweep that is made in the second one only.
- `respects_consultAt`, `swept_perform`: all else, done in both.
- `World.SweepsOut`: what a sweep takes, and that nobody would have got it.
- `sweeps_go_unnoticed`: runs with sweeps at any places between their commands.
-/

namespace Gatehouse

/-- A reply, without the number of services that were dropped. -/
def Reply.uncounted : Reply → Reply
  | .count _ => .count 0
  | reply => reply

/-- An occurrence, without the number of services that were dropped. -/
def Occurrence.uncounted : Occurrence → Occurrence
  | .called scope q => .called scope q
  | .performed command reply => .performed command reply.uncounted

/-- A backend that neither holds services by their numbers nor cares how many its commands drop.
What it answers may depend on all else, and change, and fail. -/
structure PermissionBackend.Heedless {σ : Type} (backend : PermissionBackend σ) : Prop where
  unnamed : ∀ l state, ∀ command ∈ (backend.react l state).1.commands, ¬command.NamesService
  uncounted : ∀ l state replies replies' later,
    replies.length = (backend.react l state).1.commands.length →
    replies'.map Reply.uncounted = replies.map Reply.uncounted →
      (backend.react l state).1.conclude replies' later =
        (backend.react l state).1.conclude replies later

/-- Every backend is heedless that gives no commands, whatever it answers. -/
theorem PermissionBackend.heedless_of_silent {σ : Type} {backend : PermissionBackend σ}
    (h : ∀ l state, (backend.react l state).1.commands = []) : backend.Heedless where
  unnamed := by
    intro l state command hmem
    rw [h] at hmem
    cases hmem
  uncounted := by
    intro l state replies replies' later hlength hreplies
    rw [h, List.length_nil, List.length_eq_zero_iff] at hlength
    subst hlength
    rw [List.map_eq_nil_iff.1 hreplies]

namespace World

variable {σ : Type} {limits : CacheLimits} {gone : ServiceId → Prop} {w w' v : World σ}

theorem get?_evict_eq_some_iff (limits : CacheLimits) (w : World σ) (scope : Scope)
    (id : ServiceId) :
    (w.evict limits).2.store.get? scope = some id ↔
      w.store.get? scope = some id ∧ w.isExpired limits id = false := by
  show (w.store.keepOnly _).2.get? scope = some id ↔ _
  rw [Store.keepOnly, Table.get?_retain, Option.filter_eq_some_iff, Bool.not_eq_true']

/-- An invalidation creates no services. -/
theorem length_invalidate (w : World σ) (m : ModuleName) :
    (w.invalidate m).2.services.length = w.services.length := by
  have hnone : ∀ id, (w.invalidate m).2.service? id = none ↔ w.service? id = none := by
    intro id
    rw [service?_invalidate, Option.map_eq_none_iff]
  simp only [service?, List.getElem?_eq_none_iff] at hnone
  exact Nat.le_antisymm ((hnone _).2 (Nat.le_refl _)) ((hnone _).1 (Nat.le_refl _))

/-- No service in the store has a mark. It is so as long as nobody marks services by number. -/
def Unmarked (w : World σ) : Prop :=
  ∀ scope id, w.store.get? scope = some id → w.isInvalidated id = false

theorem Unmarked.of_before (h : w.Unmarked)
    (hbefore : ∀ scope id, w'.store.get? scope = some id → w'.isInvalidated id = true →
      w.store.get? scope = some id ∧ w.isInvalidated id = true) : w'.Unmarked := by
  intro scope id hget
  rw [← Bool.not_eq_true]
  intro hmark
  obtain ⟨hget', hmark'⟩ := hbefore scope id hget hmark
  rw [h scope id hget'] at hmark'
  cases hmark'

/-! ## Worlds that differ in what was swept out -/

/-- Two worlds that are the same except for services that were swept out of the second one. In the
first one they are too old. -/
structure Swept (limits : CacheLimits) (gone : ServiceId → Prop) (w v : World σ) : Prop where
  coherent : w.Coherent
  unmarked : w.Unmarked
  now : v.now = w.now
  backend : v.backend = w.backend
  lookups : v.lookups = w.lookups
  journal : v.journal.map Occurrence.uncounted = w.journal.map Occurrence.uncounted
  length : v.services.length = w.services.length
  services : ∀ id, ¬gone id → v.service? id = w.service? id
  stored : ∀ scope id, v.store.get? scope = some id ↔ w.store.get? scope = some id ∧ ¬gone id
  expired : ∀ id, gone id →
    ∃ service, w.service? id = some service ∧ limits.maxAge < w.now - service.createdAt

/-- In the beginning nothing has been swept out. -/
theorem swept_initial (limits : CacheLimits) (start : σ) (now : Instant) :
    Swept limits (fun _ => False) (initial start now) (initial start now) where
  coherent := coherent_initial start now
  unmarked := nofun
  now := rfl
  backend := rfl
  lookups := rfl
  journal := rfl
  length := rfl
  services _ _ := rfl
  stored _ _ := iff_of_false nofun nofun
  expired _ h := h.elim

theorem Swept.isExpired (h : Swept limits gone w v) {id : ServiceId} (hid : ¬gone id) :
    v.isExpired limits id = w.isExpired limits id := by
  rw [World.isExpired, World.isExpired, h.services id hid, h.now]

theorem Swept.isLive (h : Swept limits gone w v) {id : ServiceId} (hid : ¬gone id) :
    v.isLive limits id = w.isLive limits id := by
  rw [World.isLive, World.isLive, h.isExpired hid, isInvalidated, isInvalidated, h.services id hid]

/-- What was swept out is given to nobody any more, not even where it is in the store. -/
theorem Swept.not_live (h : Swept limits gone w v) {id : ServiceId} (hid : gone id) :
    w.isLive limits id = false := by
  obtain ⟨service, hs, hold⟩ := h.expired id hid
  simp [World.isLive, World.isExpired, hs, hold]

/-- A service exists in both worlds, or in neither. -/
theorem Swept.lt_length (h : Swept limits gone w v) {id : ServiceId} (hid : gone id) :
    id < w.services.length := by
  obtain ⟨service, hs, -⟩ := h.expired id hid
  exact (List.getElem?_eq_some_iff.1 hs).1

/-! ## What is done in both worlds -/

theorem Swept.pass (h : Swept limits gone w v) (nanos : Nat) :
    Swept limits gone (w.pass nanos) (v.pass nanos) :=
  { h with
    now := congrArg (· + nanos) h.now
    expired := by
      intro id hid
      obtain ⟨service, hs, hold⟩ := h.expired id hid
      refine ⟨service, hs, Nat.lt_of_lt_of_le hold ?_⟩
      exact Nat.sub_le_sub_right (Nat.le_add_right w.now nanos) _ }

theorem Swept.setSlot (h : Swept limits gone w v) (id : ServiceId) (q : Question)
    (slot : Slot q.Answer) : Swept limits gone (w.setSlot id q slot) (v.setSlot id q slot) :=
  { h with
    coherent := h.coherent.setSlot id q slot
    unmarked := by
      intro scope id' hget
      rw [isInvalidated_setSlot]
      exact h.unmarked scope id' hget
    length := by
      show (v.services.modify id _).length = (w.services.modify id _).length
      rw [List.length_modify, List.length_modify, h.length]
    services := by
      intro id' hid'
      rw [service?_setSlot, service?_setSlot, h.services id' hid']
    expired := by
      intro id' hid'
      obtain ⟨service, hs, hold⟩ := h.expired id' hid'
      rw [service?_setSlot, hs, Option.map_some]
      refine ⟨_, rfl, ?_⟩
      split <;> exact hold }

theorem Swept.withBackend (h : Swept limits gone w v) (state : σ) :
    Swept limits gone { w with backend := state } { v with backend := state } :=
  { h with backend := rfl }

theorem Swept.note (h : Swept limits gone w v) {occurrence occurrence' : Occurrence}
    (hsame : occurrence'.uncounted = occurrence.uncounted) :
    Swept limits gone (w.note occurrence) (v.note occurrence') :=
  { h with
    journal := by
      show (occurrence' :: v.journal).map _ = (occurrence :: w.journal).map _
      rw [List.map_cons, List.map_cons, hsame, h.journal] }

theorem Swept.report (h : Swept limits gone w v) (report : LookupReport) :
    Swept limits gone (w.report report) (v.report report) :=
  { h with lookups := congrArg (report :: ·) h.lookups }

theorem Swept.mem_stored (h : Swept limits gone w v) {id : ServiceId} (hid : ¬gone id)
    (m : ModuleName) : id ∈ v.stored m ↔ id ∈ w.stored m := by
  simp only [mem_stored_iff, h.stored, hid, not_false_eq_true, and_true]

/-- An invalidation marks what is in both stores. What is in the first one only stays too old. -/
theorem Swept.invalidate (h : Swept limits gone w v) (m : ModuleName) :
    Swept limits gone (w.invalidate m).2 (v.invalidate m).2 where
  coherent := (show Change limits w _ from .invalidate w m).coherent h.coherent
  unmarked := h.unmarked.of_before fun _ _ => stored_of_invalidate h.coherent
  now := by
    rw [invalidate_eq _ v, invalidate_eq _ w]
    exact h.now
  backend := by
    rw [invalidate_eq _ v, invalidate_eq _ w]
    exact h.backend
  lookups := by
    rw [invalidate_eq _ v, invalidate_eq _ w]
    exact h.lookups
  journal := by
    rw [invalidate_eq _ v, invalidate_eq _ w]
    exact h.journal
  length := by rw [length_invalidate, length_invalidate, h.length]
  services := by
    intro id hid
    rw [service?_invalidate, service?_invalidate, h.services id hid]
    simp only [h.mem_stored hid m]
  stored := by
    intro scope id
    by_cases hm : m = scope.module
    · subst hm
      rw [get?_invalidate_self, get?_invalidate_self]
      exact iff_of_false nofun nofun
    · rw [get?_invalidate_ne v hm, get?_invalidate_ne w hm]
      exact h.stored scope id
  expired := by
    intro id hid
    obtain ⟨service, hs, hold⟩ := h.expired id hid
    have hnow : (w.invalidate m).2.now = w.now := by rw [invalidate_eq]
    rw [service?_invalidate, hs, Option.map_some, hnow]
    refine ⟨_, rfl, ?_⟩
    split <;> exact hold

/-- Two worlds in which less is in the store, but the same of what was in both. -/
theorem Swept.drop (h : Swept limits gone w v) {store store' : Store ServiceId}
    (hless : ∀ scope id, store.get? scope = some id → w.store.get? scope = some id)
    (hsame : ∀ scope id, store'.get? scope = some id ↔ store.get? scope = some id ∧ ¬gone id) :
    Swept limits gone { w with store } { v with store := store' } :=
  { h with
    coherent := fun scope id hget => h.coherent scope id (hless scope id hget)
    unmarked := fun scope id hget => h.unmarked scope id (hless scope id hget)
    stored := hsame }

theorem Swept.clear (h : Swept limits gone w v) : Swept limits gone w.clear v.clear :=
  h.drop nofun fun _ _ => iff_of_false nofun nofun

/-- A sweep in both worlds takes the same from what is in both stores. -/
theorem Swept.evict (h : Swept limits gone w v) :
    Swept limits gone (w.evict limits).2 (v.evict limits).2 := by
  have hw := get?_evict_eq_some_iff limits w
  have hv := get?_evict_eq_some_iff limits v
  refine h.drop (fun scope id hget => ((hw scope id).1 hget).1) fun scope id => ?_
  refine (hv scope id).trans (Iff.trans ?_ (and_congr_left' (hw scope id)).symm)
  rw [h.stored, and_assoc, and_assoc, and_comm (b := ¬gone id)]
  refine and_congr_right fun _ => and_congr_right fun hid => ?_
  rw [h.isExpired hid]

/-- A sweep in the second world only: what it takes is too old in both. -/
theorem Swept.sweep (h : Swept limits gone w v) :
    Swept limits (fun id => gone id ∨ ∃ service, w.service? id = some service ∧
      limits.maxAge < w.now - service.createdAt) w (v.evict limits).2 :=
  { h with
    services := fun id hid => h.services id fun hgone => hid (.inl hgone)
    stored := by
      intro scope id
      rw [get?_evict_eq_some_iff, h.stored, and_assoc, not_or]
      refine and_congr_right fun hget => and_congr_right fun hid => ?_
      -- a service in the store exists, so that it is missing if and only if it is too old
      obtain ⟨service, hs, -⟩ := h.coherent scope id hget
      rw [h.isExpired hid, World.isExpired, hs]
      simp
    expired := by
      rintro id (hid | hold)
      · exact h.expired id hid
      · exact hold }

/-- Whoever asks for a scope gets the same service in both worlds. If it was swept out of one of
them, it is replaced in the other one. -/
theorem Swept.fetch (h : Swept limits gone w v) (scope : Scope) :
    (v.fetch limits scope).1 = (w.fetch limits scope).1 ∧ ¬gone (w.fetch limits scope).1 ∧
      Swept limits gone (w.fetch limits scope).2 (v.fetch limits scope).2 := by
  rcases fetch_cases limits scope w with ⟨id, hget, hlive, hf⟩ | ⟨hdead, hf⟩
  · -- a service that is live has not been swept out, so it is in both stores
    have hid : ¬gone id := by
      intro hid
      rw [h.not_live hid] at hlive
      cases hlive
    rw [hf, fetch_of_live ((h.stored scope id).2 ⟨hget, hid⟩) ((h.isLive hid).trans hlive)]
    exact ⟨rfl, hid, h⟩
  · -- both create a service, in place of one that is too old or of none
    have hf' : v.fetch limits scope = (v.services.length, v.withNew scope) := by
      rcases fetch_cases limits scope v with ⟨id, hget, hlive, -⟩ | ⟨-, hf'⟩
      · obtain ⟨hget', hid⟩ := (h.stored scope id).1 hget
        rw [h.isLive hid, hdead id hget'] at hlive
        cases hlive
      · exact hf'
    have hcoherent := h.coherent.fetch limits scope
    have hnew : ¬gone w.services.length := fun hid => Nat.lt_irrefl _ (h.lt_length hid)
    have hunmarked : (w.fetch limits scope).2.Unmarked :=
      h.unmarked.of_before fun _ _ => stored_of_fetch
    rw [hf] at hcoherent hunmarked ⊢
    rw [hf']
    refine ⟨h.length, hnew, ?_⟩
    exact
      { h with
        coherent := hcoherent
        unmarked := hunmarked
        length := by
          show (v.services ++ _).length = (w.services ++ _).length
          rw [List.length_append, List.length_append, h.length]
          rfl
        services := by
          intro id hid
          show (v.services ++ _)[id]? = (w.services ++ _)[id]?
          rw [List.getElem?_append, List.getElem?_append, h.length, h.now]
          split
          · exact h.services id hid
          · rfl
        stored := by
          intro scope' id
          show (v.store.put scope _).get? scope' = some id ↔
            (w.store.put scope _).get? scope' = some id ∧ ¬gone id
          rw [Table.get?_put, Table.get?_put, h.length]
          by_cases hscope : scope = scope'
          · rw [if_pos hscope, if_pos hscope]
            refine (and_iff_left_of_imp fun hid => ?_).symm
            cases hid
            exact hnew
          · rw [if_neg hscope, if_neg hscope]
            exact h.stored scope' id
        expired := by
          intro id hid
          obtain ⟨service, hs, hold⟩ := h.expired id hid
          refine ⟨service, ?_, hold⟩
          have hafter := service?_fetch hs limits scope
          rwa [hf] at hafter }

/-! ## The likeness of worlds with and without sweeps -/

/-- Two worlds that differ in services that were swept out. Whoever has a service has the same one
in both, and it was not swept out. -/
def SweptApart (limits : CacheLimits) : Likeness σ := fun same w v =>
  ∃ gone, (∀ a b, same a b → a = b ∧ ¬gone a) ∧ Swept limits gone w v

theorem simulation_sweptApart (limits : CacheLimits) :
    Simulation (SweptApart limits : Likeness σ) where
  now := by
    rintro same w v ⟨gone, -, h⟩
    exact h.now
  scopeOf := by
    rintro same w v a b ⟨gone, hheld, h⟩ hsame
    obtain ⟨rfl, hid⟩ := hheld a b hsame
    rw [Decision.scopeOf, Decision.scopeOf, h.services a hid]
  isInvalidated := by
    rintro same w v a b ⟨gone, hheld, h⟩ hsame
    obtain ⟨rfl, hid⟩ := hheld a b hsame
    rw [World.isInvalidated, World.isInvalidated, h.services a hid]
  slot := by
    rintro same w v a b ⟨gone, hheld, h⟩ hsame q
    obtain ⟨rfl, hid⟩ := hheld a b hsame
    rw [World.slot, World.slot, h.services a hid]
  setSlot := by
    rintro same w v a b ⟨gone, hheld, h⟩ hsame q slot
    obtain ⟨rfl, -⟩ := hheld a b hsame
    exact ⟨gone, hheld, h.setSlot a q slot⟩
  pass := by
    rintro same w v ⟨gone, hheld, h⟩ nanos
    exact ⟨gone, hheld, h.pass nanos⟩

theorem fetchesAlike_sweptApart (limits : CacheLimits) (scope : Scope) :
    FetchesAlike (SweptApart limits : Likeness σ) limits scope := by
  rintro same w v ⟨gone, hheld, h⟩
  obtain ⟨hsame, hid, hswept⟩ := h.fetch scope
  exact ⟨fun a b => a = b ∧ ¬gone a, hheld, ⟨hsame.symm, hid⟩, gone, fun _ _ hab => hab, hswept⟩

end World

section Commands

open World

variable {σ : Type} {limits : CacheLimits} {same : ServiceId → ServiceId → Prop} {w v : World σ}

/-- What is done to both worlds matches, whatever services are known to be the same. -/
theorem matches_of_swept {α : Type} {r r' : α × World σ} {gone : ServiceId → Prop}
    (hheld : ∀ a b, same a b → a = b ∧ ¬gone a) (houtcome : r'.1 = r.1)
    (h : Swept limits gone r.2 r'.2) : Matches (SweptApart limits) same r r' :=
  .of_alike houtcome ⟨gone, hheld, h⟩

variable {consult : Consult σ} (hconsult : Decision.Respects (SweptApart limits) consult)

include hconsult

/-- A command that names no service has the same reply in both worlds, if nobody counts. -/
theorem matches_perform {command : Command} (hunnamed : ¬command.NamesService)
    (h : SweptApart limits same w v) :
    Matches (SweptApart limits) same
      (((perform limits consult command).run w).map Reply.uncounted id)
      (((perform limits consult command).run v).map Reply.uncounted id) := by
  obtain ⟨gone, hheld, hswept⟩ := id h
  -- only questions go on to the backend; all other commands are single changes of both worlds
  cases command with
  | ask scope inquiry =>
    obtain ⟨houtcome, hworlds⟩ := matches_ask (simulation_sweptApart limits) hconsult
      (fetchesAlike_sweptApart limits scope) h inquiry
    exact ⟨congrArg Reply.uncounted houtcome, hworlds⟩
  | take scope =>
    obtain ⟨hsame, -, hfetched⟩ := hswept.fetch scope
    exact matches_of_swept hheld (congrArg Reply.service hsame) hfetched
  | askService id inquiry => exact absurd trivial hunnamed
  | invalidateService id => exact absurd trivial hunnamed
  | event m action =>
    cases action with
    | stop => exact matches_of_swept hheld rfl (hswept.invalidate m)
    | securityChanged => exact matches_of_swept hheld rfl (hswept.invalidate m)
    | start => exact matches_of_swept hheld rfl hswept
    | startFailed => exact matches_of_swept hheld rfl hswept
  | invalidate m => exact matches_of_swept hheld rfl (hswept.invalidate m)
  | evict => exact matches_of_swept hheld rfl hswept.evict
  | clear => exact matches_of_swept hheld rfl hswept.clear
  | wait nanos => exact matches_of_swept hheld rfl (hswept.pass nanos)

end Commands

section Lookups

open World

theorem length_performAll {σ : Type} (obey : Command → StateM (World σ) Reply)
    (commands : List Command) (w : World σ) :
    ((performAll obey commands).run w).1.length = commands.length := by
  induction commands generalizing w with
  | nil => rfl
  | cons command rest ih => exact congrArg (· + 1) (ih _)

variable {σ : Type} {limits : CacheLimits} {obey : Command → StateM (World σ) Reply}
  (hobey : ∀ command same w v, ¬command.NamesService → SweptApart limits same w v →
    Matches (SweptApart limits) same (((obey command).run w).map Reply.uncounted id)
      (((obey command).run v).map Reply.uncounted id))

include hobey

theorem matches_performAll (commands : List Command)
    (hcommands : ∀ command ∈ commands, ¬command.NamesService)
    {same : ServiceId → ServiceId → Prop} {w v : World σ} (h : SweptApart limits same w v) :
    Matches (SweptApart limits) same
      (((performAll obey commands).run w).map (List.map Reply.uncounted) id)
      (((performAll obey commands).run v).map (List.map Reply.uncounted) id) := by
  -- for all pairs of worlds, since more services may be the same after the first command
  induction commands generalizing same w v with
  | nil => exact .of_alike rfl h
  | cons command rest ih =>
    obtain ⟨hfirst, hrest⟩ := List.forall_mem_cons.1 hcommands
    obtain ⟨hreply, same', hle, gone, hheld, hswept⟩ := hobey command same w v hfirst h
    have hoccurrence : (Occurrence.performed command ((obey command).run v).1).uncounted =
        (Occurrence.performed command ((obey command).run w).1).uncounted :=
      congrArg (Occurrence.performed command) hreply
    have hnoted := hswept.note hoccurrence
    obtain ⟨hreplies, hworlds⟩ := ih hrest ⟨gone, hheld, hnoted⟩
    exact Matches.of_le hle ⟨congrArg₂ List.cons hreply hreplies, hworlds⟩

theorem respects_lookUp {backend : PermissionBackend σ} (hbackend : backend.Heedless) :
    Decision.Respects (SweptApart limits) (lookUp limits backend obey) := by
  rintro a b deadline q same w v halike hsame
  obtain ⟨gone, hheld, hswept⟩ := id halike
  obtain ⟨rfl, -⟩ := hheld a b hsame
  have hscope := (simulation_sweptApart limits).scopeOf halike hsame
  by_cases hlate : deadline < w.now
  · have hlate' : deadline < v.now := by rwa [hswept.now]
    rw [run_lookUp_of_late backend obey hlate, run_lookUp_of_late backend obey hlate', hscope,
      hswept.now]
    exact matches_of_swept hheld rfl (hswept.report _)
  · have hlate' : ¬deadline < v.now := by rwa [hswept.now]
    obtain ⟨reaction, state, replies, w₁, conclusion, next, hreact, hobeyed, hconclude, hrun⟩ :=
      run_lookUp_of_open limits backend obey hlate
    obtain ⟨reaction', state', replies', v₁, conclusion', next', hreact', hobeyed', hconclude',
      hrun'⟩ := run_lookUp_of_open limits backend obey hlate'
    -- the backend is in the same state in both, and is asked the same
    rw [hscope, hswept.now, hswept.backend, hreact] at hreact'
    obtain ⟨rfl, rfl⟩ := Prod.mk.inj hreact'
    rw [hscope] at hobeyed'
    rw [hscope, hswept.now] at hrun'
    have hunnamed := hbackend.unnamed ⟨Decision.scopeOf w a, q, w.now, deadline⟩ w.backend
    have hblind := hbackend.uncounted ⟨Decision.scopeOf w a, q, w.now, deadline⟩ w.backend
    rw [hreact] at hunnamed hblind
    have hcalled := (hswept.withBackend state).note
      (Eq.refl (Occurrence.called (Decision.scopeOf w a) q).uncounted)
    have hmeanwhile := matches_performAll hobey reaction.commands hunnamed
      ⟨gone, hheld, hcalled⟩
    rw [hobeyed, hobeyed'] at hmeanwhile
    obtain ⟨hreplies, same', hle, gone', hheld', hswept'⟩ := hmeanwhile
    -- it sees the same replies in both, apart from numbers that it does not look at
    have hanswer : reaction.conclude replies' v₁.backend =
        reaction.conclude replies w₁.backend := by
      rw [show v₁.backend = w₁.backend from hswept'.backend]
      refine hblind replies replies' w₁.backend ?_ hreplies
      have hlength := length_performAll obey reaction.commands
        ({ w with backend := state }.note (.called (Decision.scopeOf w a) q))
      rwa [hobeyed] at hlength
    rw [hconclude, hconclude'] at hanswer
    obtain ⟨rfl, rfl⟩ := Prod.mk.inj hanswer
    have hend : Swept limits gone' ({ w₁ with backend := next' }.pass conclusion'.elapsed)
        ({ v₁ with backend := next' }.pass conclusion'.elapsed) :=
      (hswept'.withBackend next').pass conclusion'.elapsed
    rw [hrun, hrun']
    dsimp only
    rw [hend.now]
    exact ⟨rfl, same', hle, gone', hheld', hend.report _⟩

end Lookups

/-- However deep the backend asks back, a sweep that was made before makes no difference. -/
theorem respects_consultAt {σ : Type} {backend : PermissionBackend σ} (hbackend : backend.Heedless)
    (limits : CacheLimits) (depth : Nat) :
    Decision.Respects (World.SweptApart limits) (consultAt limits backend depth) := by
  induction depth with
  | zero =>
    intro a b deadline q same w v halike hsame
    refine .of_alike ?_ halike
    show Except.error _ = Except.error _
    rw [Decision.timedOut, Decision.timedOut,
      (World.simulation_sweptApart limits).scopeOf halike hsame]
  | succ depth ih =>
    have hlookUp := respects_lookUp (fun command same w v => matches_perform ih) hbackend
    exact hlookUp.delayed (World.simulation_sweptApart limits) backend

/-! ## What a sweep takes -/

namespace World

variable {σ : Type} {limits : CacheLimits} {w : World σ}

/-- What a sweep does. It takes the services out of the store that are older than the limit, counts
them, and changes nothing else. These are the services that would be replaced if they were asked
for at once; and whenever their scopes are asked for later, others would be given. -/
structure SweepsOut (limits : CacheLimits) (w : World σ) (count : Nat) (w' : World σ) : Prop where
  rest : w' = { w with store := w'.store }
  counted : w'.cached + count = w.cached
  missing : ∀ scope, w.store.get? scope = none → w'.store.get? scope = none
  stored : ∀ scope id, w.store.get? scope = some id → ∃ service,
    w.service? id = some service ∧ service.scope = scope ∧
    (w'.store.get? scope = if limits.maxAge < w.now - service.createdAt then none else some id) ∧
    ((w.fetch limits scope).1 ≠ id ↔ limits.maxAge < w.now - service.createdAt) ∧
    (limits.maxAge < w.now - service.createdAt →
      ∀ later, Leads limits w later → (later.fetch limits scope).1 ≠ id)

theorem sweepsOut (hw : w.Coherent) (hunmarked : w.Unmarked) :
    SweepsOut limits w (w.evict limits).1 (w.evict limits).2 := by
  refine ⟨rfl, ?counted, fun scope hnone => ?missing, fun scope id hget => ?stored⟩
  case counted =>
    refine Nat.add_sub_cancel' ?_
    exact List.length_filter_le _ _
  case missing =>
    show (w.store.keepOnly _).2.get? scope = none
    rw [Store.keepOnly, Table.get?_retain, hnone, Option.filter_none]
  case stored =>
    obtain ⟨service, hs, hscope⟩ := hw scope id hget
    have hexpired : w.isExpired limits id = decide (limits.maxAge < w.now - service.createdAt) := by
      rw [isExpired, hs]
    have hnever : limits.maxAge < w.now - service.createdAt →
        ∀ later, Leads limits w later → (later.fetch limits scope).1 ≠ id := by
      rintro hold later hleads rfl
      -- its date of creation is the same as ever, and it is later now
      obtain ⟨service', hs', hlater⟩ := Leads.later hleads hs
      have hyoung := fetched_young (service?_fetch hs' limits scope)
      have hnow := Leads.now_le hleads
      rw [hlater.createdAt] at hyoung
      have hbefore : service.createdAt + limits.maxAge < w.now := Nat.lt_sub_iff_add_lt'.1 hold
      exact absurd (Nat.lt_of_lt_of_le hbefore hnow) (Nat.not_lt.2 hyoung)
    refine ⟨service, hs, hscope, ?_, ?_, hnever⟩
    · show (w.store.keepOnly _).2.get? scope = _
      rw [Store.keepOnly, Table.get?_retain, hget, Option.filter_some, hexpired]
      by_cases hold : limits.maxAge < w.now - service.createdAt
      · rw [if_pos hold, decide_eq_true hold]
        rfl
      · rw [if_neg hold, decide_eq_false hold]
        rfl
    · refine ⟨fun hreplaced => ?_, fun hold => hnever hold w .refl⟩
      by_contra hyoung
      refine hreplaced ?_
      rw [fetch_of_live hget (by simp [isLive, hexpired, hyoung, hunmarked scope id hget])]

end World

namespace DecisionCache

open World

variable {σ : Type} (cache : DecisionCache σ) {gone : ServiceId → Prop} {w v : World σ}

/-! ## Runs with sweeps in between -/

/-- The commands of a schedule. Where it has none, a sweep is made. -/
def withSweeps (schedule : List (Option Command)) : List Command :=
  schedule.map (·.getD .evict)

/-- The commands of a schedule, without the sweeps in between. -/
def withoutSweeps (schedule : List (Option Command)) : List Command :=
  schedule.filterMap id

/-- The replies to the commands of a schedule, without those to the sweeps in between. -/
def repliesKept (schedule : List (Option Command)) (replies : List Reply) : List Reply :=
  (schedule.zip replies).filterMap fun (command, reply) => command.map fun _ => reply

theorem withSweeps_none (rest : List (Option Command)) :
    withSweeps (none :: rest) = .evict :: withSweeps rest := rfl

theorem withSweeps_some (command : Command) (rest : List (Option Command)) :
    withSweeps (some command :: rest) = command :: withSweeps rest := rfl

theorem withoutSweeps_some (command : Command) (rest : List (Option Command)) :
    withoutSweeps (some command :: rest) = command :: withoutSweeps rest := rfl

theorem withoutSweeps_map_some (commands : List Command) :
    withoutSweeps (commands.map some) = commands := by
  rw [withoutSweeps, List.filterMap_map]
  exact List.filterMap_some

theorem repliesKept_none (rest : List (Option Command)) (reply : Reply) (replies : List Reply) :
    repliesKept (none :: rest) (reply :: replies) = repliesKept rest replies := rfl

theorem repliesKept_some (command : Command) (rest : List (Option Command)) (reply : Reply)
    (replies : List Reply) :
    repliesKept (some command :: rest) (reply :: replies) = reply :: repliesKept rest replies := rfl

variable {cache} (hbackend : cache.backend.Heedless)

include hbackend

/-- One command, done in both worlds. -/
theorem swept_perform {command : Command} (hunnamed : ¬command.NamesService)
    (h : Swept cache.limits gone w v) :
    ((cache.perform command).run v).1.uncounted = ((cache.perform command).run w).1.uncounted ∧
      ∃ gone', Swept cache.limits gone' ((cache.perform command).run w).2
        ((cache.perform command).run v).2 := by
  have hconsult := respects_consultAt hbackend cache.limits (cache.depth + 1)
  have halike : SweptApart cache.limits (fun _ _ => False) w v := ⟨gone, fun _ _ => False.elim, h⟩
  obtain ⟨hreply, -, -, gone', -, hswept⟩ := matches_perform hconsult hunnamed halike
  exact ⟨hreply, gone', hswept⟩

theorem swept_run {schedule : List (Option Command)}
    (hunnamed : ∀ command, some command ∈ schedule → ¬command.NamesService)
    (h : Swept cache.limits gone w v) :
    (repliesKept schedule ((cache.run (withSweeps schedule)).run v).1).map Reply.uncounted =
        ((cache.run (withoutSweeps schedule)).run w).1.map Reply.uncounted ∧
      ∃ gone', Swept cache.limits gone' ((cache.run (withoutSweeps schedule)).run w).2
        ((cache.run (withSweeps schedule)).run v).2 := by
  -- for all that may be swept out, since every sweep adds to it
  induction schedule generalizing gone w v with
  | nil => exact ⟨rfl, gone, h⟩
  | cons first rest ih =>
    have hrest := fun command hmem => hunnamed command (List.mem_cons_of_mem first hmem)
    cases first with
    | none =>
      rw [withSweeps_none, run_cons, repliesKept_none]
      exact ih hrest h.sweep
    | some command =>
      obtain ⟨hreply, gone', hswept⟩ :=
        swept_perform hbackend (hunnamed command List.mem_cons_self) h
      obtain ⟨hreplies, hworlds⟩ := ih hrest hswept
      rw [withSweeps_some, withoutSweeps_some, run_cons, run_cons, repliesKept_some]
      exact ⟨congrArg₂ List.cons hreply hreplies, hworlds⟩

/-- In every run in which nobody names services by number, the store holds none with a mark. -/
theorem unmarked_after {commands : List Command}
    (hunnamed : ∀ command ∈ commands, ¬command.NamesService) (start : σ) (now : Instant) :
    (cache.after commands (.initial start now)).Unmarked := by
  -- side by side with itself: a schedule in which no sweep is made
  have hschedule : ∀ command, some command ∈ commands.map some → ¬command.NamesService := by
    intro command hmem
    obtain ⟨command', hmem', heq⟩ := List.mem_map.1 hmem
    cases heq
    exact hunnamed command hmem'
  obtain ⟨-, gone, hswept⟩ := swept_run hbackend hschedule (swept_initial cache.limits start now)
  rw [withoutSweeps_map_some] at hswept
  exact hswept.unmarked

omit hbackend

/-- Sweeps go unnoticed. Let the backend be any that holds no services by number and does not count
what its commands drop, and take any run in which services are not named by number. If sweeps are
made at any places between its commands, all its commands have the same replies, apart from the
numbers of services that its own sweeps and invalidations drop. The backend is asked the same, in
the same order and at the same times, its lookups end the same, and it is in the same state in the
end. The stores differ in services only that are too old.

A sweep takes those services out of the store that are older than the limit. These are the ones that
would be replaced if their scopes were asked for at once; and whenever these are asked for later,
other services are given. -/
theorem sweeps_go_unnoticed (cache : DecisionCache σ) (hbackend : cache.backend.Heedless)
    (start : σ) (now : Instant) :
    (∀ schedule : List (Option Command),
      (∀ command, some command ∈ schedule → ¬command.NamesService) →
      let plain := (cache.run (withoutSweeps schedule)).run (.initial start now)
      let swept := (cache.run (withSweeps schedule)).run (.initial start now)
      (repliesKept schedule swept.1).map Reply.uncounted = plain.1.map Reply.uncounted ∧
        ∃ gone, Swept cache.limits gone plain.2 swept.2) ∧
    ∀ commands : List Command, (∀ command ∈ commands, ¬command.NamesService) →
      let w := cache.after commands (.initial start now)
      ∃ count w', (cache.perform .evict).run w = (.count count, w') ∧
        SweepsOut cache.limits w count w' := by
  refine ⟨fun schedule hunnamed => ?_, fun commands hunnamed => ⟨_, _, rfl, ?_⟩⟩
  · exact swept_run hbackend hunnamed (swept_initial cache.limits start now)
  · exact sweepsOut (Leads.coherent (cache.leads_run commands _) (coherent_initial start now))
      (unmarked_after hbackend hunnamed start now)

/-! ## A shop that is swept -/

theorem heedless_sharedCache : sharedCache.backend.Heedless where
  unnamed := by
    intro l count command hmem
    by_cases hl : l.scope = reader
    · rw [show (sharedCache.backend.react l count).1.commands = [] from if_pos hl] at hmem
      cases hmem
    · rw [show (sharedCache.backend.react l count).1.commands = [.event customer.module .stop] from
        if_neg hl, List.mem_singleton] at hmem
      subst hmem
      exact not_false
  uncounted _ _ _ _ _ _ _ := rfl

/-- The reader comes, and stays away for a night. -/
def night : List Command :=
  [.ask reader (.action "read"), .wait 1200]

/-- The reader and the customer come and go, with two sweeps in between. -/
def visits : List (Option Command) :=
  night.map some ++ [none, some (.ask customer (.action "buy")), some .evict, none,
    some (.ask reader (.action "read"))]

/-- What a reply says does not depend on numbers of services. -/
theorem saysYes_uncounted (reply : Reply) : saysYes reply.uncounted = saysYes reply := by
  cases reply with
  | finding result => rfl
  | service id => rfl
  | count n => rfl
  | done => rfl

/-- The sweeps make no difference to the visitors. After the night the service of the reader is
swept out, and it would never have been given to the reader again. -/
theorem visits_with_sweeps :
    (∀ command, some command ∈ visits → ¬command.NamesService) ∧
    (repliesKept visits ((sharedCache.run (withSweeps visits)).run (.initial 0 0)).1).map saysYes =
      [some true, none, none, none, some false] ∧
    (∀ command ∈ night, ¬command.NamesService) ∧
    let w := sharedCache.after night (.initial 0 0)
    w.store.get? reader = some 0 ∧
    ∃ w', (sharedCache.perform .evict).run w = (.count 1, w') ∧ w'.store.get? reader = none ∧
      ∀ later, Leads sharedCache.limits w later →
        (later.fetch sharedCache.limits reader).1 ≠ 0 := by
  have hnight : ∀ command ∈ night, ¬command.NamesService := by
    simp [night, Command.NamesService]
  have hvisits : ∀ command, some command ∈ visits → ¬command.NamesService := by
    simp [visits, night, Command.NamesService]
  obtain ⟨hruns, hsweeps⟩ := sweeps_go_unnoticed sharedCache heedless_sharedCache 0 0
  obtain ⟨hreplies, -⟩ := hruns visits hvisits
  obtain ⟨count, w', hrun, hswept⟩ := hsweeps night hnight
  have hstored : (sharedCache.after night (.initial 0 0)).store.get? reader = some 0 := by
    decide +kernel
  have hcount : ((sharedCache.after night (.initial 0 0)).evict sharedCache.limits).1 = 1 := by
    decide +kernel
  have hreplaced :
      ((sharedCache.after night (.initial 0 0)).fetch sharedCache.limits reader).1 ≠ 0 := by
    decide +kernel
  obtain ⟨service, -, -, hgone, hold, hnever⟩ := hswept.stored reader 0 hstored
  refine ⟨hvisits, ?_, hnight, hstored, w', ?_, ?_, hnever (hold.1 hreplaced)⟩
  · have htold := congrArg (List.map saysYes) hreplies
    simp only [List.map_map, Function.comp_def, saysYes_uncounted] at htold
    rw [htold]
    decide +kernel
  · obtain rfl : count = 1 := (Reply.count.inj (congrArg Prod.fst hrun)).symm.trans hcount
    exact hrun
  · rw [hgone, if_pos (hold.1 hreplaced)]

/-- Who holds a service by its number can notice a sweep. The reader holds one over night, and then
the wiki stops. The service is marked if it is still in the store; if it was swept out, it goes on
answering what it remembers. -/
theorem holder_notices_sweep :
    let held : List Command :=
      [.take reader, .askService 0 (.action "read"), .wait 1200]
    let asked : List Command :=
      [.event reader.module .stop, .askService 0 (.action "read")]
    ((sharedCache.run (held ++ asked)).run (.initial 0 0)).1.map saysYes =
      [none, some true, none, none, none] ∧
    ((sharedCache.run (held ++ .evict :: asked)).run (.initial 0 0)).1.map saysYes =
      [none, some true, none, none, none, some true] :=
  ⟨by decide +kernel, by decide +kernel⟩

end DecisionCache

end Gatehouse
