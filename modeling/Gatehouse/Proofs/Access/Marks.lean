import Gatehouse.Proofs.Access.Frame
import Gatehouse.Proofs.Access.Invalidation
import Gatehouse.Proofs.Access.Invariant

/-!
# Where marks come from

A service is marked when its module is invalidated while it is in the store, or by someone who
holds it. Decisions put no marks themselves. So a mark that appears during a decision was put by a
command of the backend, given while it was asked, and the journal tells which one it was. Only a
mark that was put by someone who holds the service leaves the service in the store.

- `Command.Marks`: the commands that can put a mark on a service.
- `World.Performed`: the backend gave a command meanwhile.
- `World.Explained`: every mark that was put meanwhile is due to a command. This is a law of all
  commands (`explained_perform`) and of all decisions (`explained_answerFrom`).
- `DecisionCache.explained_after`: marks after a number of commands.
- `Leads.marked_in_store`: in any world that is ever reached, a service in the store with a mark was
  marked by someone who held it.
-/

namespace Gatehouse

/-- The commands that can mark a service of a module: an invalidation of the module, and the mark
that is put by someone who holds the service. -/
def Command.Marks (id : ServiceId) (m : ModuleName) (command : Command) : Prop :=
  command = .invalidateService id ∨ command.Invalidates m

namespace World

variable {σ : Type} {limits : CacheLimits} {given : Command → Prop} {w w' w'' : World σ}

/-! ## What the backend did meanwhile -/

/-- The backend gave a command between two worlds, while it was asked. -/
def Performed (command : Command) (w w' : World σ) : Prop :=
  ∃ news reply, w'.journal = news ++ w.journal ∧ Occurrence.performed command reply ∈ news

theorem Performed.before {command : Command} (h : Performed command w' w'')
    (hsuffix : w.journal <:+ w'.journal) : Performed command w w'' := by
  obtain ⟨news, reply, hjournal, hmem⟩ := h
  obtain ⟨more, hmore, hsub⟩ := exists_news_before hjournal hsuffix
  exact ⟨more, reply, hmore, hsub hmem⟩

theorem Performed.after {command : Command} (h : Performed command w w')
    (hsuffix : w'.journal <:+ w''.journal) : Performed command w w'' := by
  obtain ⟨news, reply, hjournal, hmem⟩ := h
  obtain ⟨more, hmore, hsub⟩ := exists_news_after hjournal hsuffix
  exact ⟨more, reply, hmore, hsub hmem⟩

/-! ## Marks that are explained -/

/-- Every mark that was put between two worlds is due to a command, which either was given or was
performed for the backend meanwhile. If the service is in the store afterwards, then someone who
held it put the mark. -/
structure Explained (given : Command → Prop) (w w' : World σ) : Prop where
  coherent : w'.Coherent
  suffix : w.journal <:+ w'.journal
  scopes : ∀ id service, w.service? id = some service →
    ∃ service', w'.service? id = some service' ∧ service'.scope = service.scope
  marked : ∀ id service, w.service? id = some service → service.invalidated = false →
    w'.isInvalidated id = true →
    ∃ command, (given command ∨ Performed command w w') ∧ command.Marks id service.scope.module
  stored : ∀ scope id, w'.store.get? scope = some id → w'.isInvalidated id = true →
    (w.store.get? scope = some id ∧ w.isInvalidated id = true) ∨
      given (.invalidateService id) ∨ Performed (.invalidateService id) w w'

theorem Explained.trans (h₁ : Explained given w w') (h₂ : Explained given w' w'') :
    Explained given w w'' where
  coherent := h₂.coherent
  suffix := h₁.suffix.trans h₂.suffix
  scopes := by
    intro id service hs
    obtain ⟨service', hs', hscope'⟩ := h₁.scopes id service hs
    obtain ⟨service'', hs'', hscope''⟩ := h₂.scopes id service' hs'
    exact ⟨service'', hs'', hscope''.trans hscope'⟩
  marked := by
    intro id service hs hcurrent hmark
    obtain ⟨service', hs', hscope⟩ := h₁.scopes id service hs
    cases hbetween : service'.invalidated with
    | true =>
      obtain ⟨command, hcommand, hmarks⟩ :=
        h₁.marked id service hs hcurrent ((isInvalidated_eq_of_service hs').trans hbetween)
      exact ⟨command, hcommand.imp_right (·.after h₂.suffix), hmarks⟩
    | false =>
      obtain ⟨command, hcommand, hmarks⟩ := h₂.marked id service' hs' hbetween hmark
      exact ⟨command, hcommand.imp_right (·.before h₁.suffix), hscope ▸ hmarks⟩
  stored := by
    intro scope id hget hmark
    rcases h₂.stored scope id hget hmark with ⟨hget', hmark'⟩ | hgiven | hperformed
    · exact (h₁.stored scope id hget' hmark').imp_right
        fun h => h.imp_right (·.after h₂.suffix)
    · exact .inr (.inl hgiven)
    · exact .inr (.inr (hperformed.before h₁.suffix))

theorem Explained.mono {given' : Command → Prop}
    (hgiven : ∀ command, given command → given' command) (h : Explained given w w') :
    Explained given' w w' where
  coherent := h.coherent
  suffix := h.suffix
  scopes := h.scopes
  marked := by
    intro id service hs hcurrent hmark
    obtain ⟨command, hcommand, hmarks⟩ := h.marked id service hs hcurrent hmark
    exact ⟨command, hcommand.imp_left (hgiven command), hmarks⟩
  stored := fun scope id hget hmark =>
    (h.stored scope id hget hmark).imp_right fun hdue => hdue.imp_left (hgiven _)

/-! ## Single changes -/

/-- Where services keep their scopes and marks, and nothing is added to the store, there is nothing
to be explained. -/
theorem Explained.of_keeps (hcoherent : w'.Coherent) (hsuffix : w.journal <:+ w'.journal)
    (hservices : ∀ id service, w.service? id = some service →
      ∃ service', w'.service? id = some service' ∧ service'.scope = service.scope ∧
        service'.invalidated = service.invalidated)
    (hstore : ∀ scope id, w'.store.get? scope = some id → w.store.get? scope = some id) :
    Explained given w w' := by
  have hmark : ∀ id, w'.isInvalidated id = true → w.isInvalidated id = true := by
    intro id hmark
    cases hs : w.service? id with
    | none => rw [isInvalidated, hs]
    | some service =>
      obtain ⟨service', hs', -, hsame⟩ := hservices id service hs
      rw [isInvalidated_eq_of_service hs', hsame] at hmark
      rw [isInvalidated_eq_of_service hs, hmark]
  refine ⟨hcoherent, hsuffix, ?scopes, ?marked, ?stored⟩
  case scopes =>
    intro id service hs
    obtain ⟨service', hs', hscope, -⟩ := hservices id service hs
    exact ⟨service', hs', hscope⟩
  case marked =>
    intro id service hs hcurrent hmarked
    have hbefore := hmark id hmarked
    rw [isInvalidated_eq_of_service hs, hcurrent] at hbefore
    cases hbefore
  case stored => exact fun scope id hget hmarked => .inl ⟨hstore scope id hget, hmark id hmarked⟩

theorem Explained.of_eq (hw : w.Coherent) (hservices : w'.services = w.services)
    (hstore : w'.store = w.store) (hsuffix : w.journal <:+ w'.journal) : Explained given w w' := by
  refine .of_keeps ?_ hsuffix (fun id service hs => ⟨service, ?_, rfl, rfl⟩) ?_
  · intro scope id hget
    rw [hstore] at hget
    obtain ⟨service, hs, hscope⟩ := hw scope id hget
    exact ⟨service, by rwa [service?, hservices], hscope⟩
  · rwa [service?, hservices]
  · intro scope id hget
    rwa [hstore] at hget

theorem Explained.refl (hw : w.Coherent) : Explained given w w :=
  .of_eq hw rfl rfl List.suffix_rfl

theorem explained_setSlot (hw : w.Coherent) (id : ServiceId) (q : Question) (slot : Slot q.Answer) :
    Explained given w (w.setSlot id q slot) := by
  refine .of_keeps (hw.setSlot id q slot) List.suffix_rfl (fun id' service hs => ?_) fun _ _ h => h
  rw [service?_setSlot, hs, Option.map_some]
  refine ⟨_, rfl, ?_⟩
  split <;> exact ⟨rfl, rfl⟩

/-- A sweep, or dropping all services, puts no marks. -/
theorem explained_drop (hw : w.Coherent) {store : Store ServiceId}
    (hstore : ∀ scope id, store.get? scope = some id → w.store.get? scope = some id) :
    Explained given w { w with store } :=
  .of_keeps (fun scope id hget => hw scope id (hstore scope id hget)) List.suffix_rfl
    (fun _ service hs => ⟨service, hs, rfl, rfl⟩) hstore

/-- A service in the store with a mark was there before it was fetched. -/
theorem stored_of_fetch {scope scope' : Scope} {id : ServiceId}
    (hget : (w.fetch limits scope).2.store.get? scope' = some id)
    (hmark : (w.fetch limits scope).2.isInvalidated id = true) :
    w.store.get? scope' = some id ∧ w.isInvalidated id = true := by
  rcases fetch_cases limits scope w with ⟨id', -, -, hf⟩ | ⟨-, hf⟩
  · rw [hf] at hget hmark
    exact ⟨hget, hmark⟩
  · have hold : w.isInvalidated id = false → (w.fetch limits scope).2.isInvalidated id = false := by
      intro hcurrent
      obtain ⟨service, hs, hcurrent⟩ := exists_service_of_current hcurrent
      rw [isInvalidated_eq_of_service (service?_fetch hs limits scope), hcurrent]
    by_cases hscope : scope = scope'
    · -- the new service has no mark
      rw [hf] at hget hmark
      simp only [Table.get?_put, hscope, if_true, Option.some.injEq] at hget
      subst hget
      simp only [isInvalidated, service?, List.getElem?_concat_length] at hmark
      cases hmark
    · cases hbefore : w.isInvalidated id with
      | false =>
        rw [hold hbefore] at hmark
        cases hmark
      | true =>
        rw [hf] at hget
        simp only [Table.get?_put, hscope, if_false] at hget
        exact ⟨hget, rfl⟩

/-- An invalidation drops all services that it marks. -/
theorem stored_of_invalidate (hw : w.Coherent) {m : ModuleName} {scope : Scope} {id : ServiceId}
    (hget : (w.invalidate m).2.store.get? scope = some id)
    (hmark : (w.invalidate m).2.isInvalidated id = true) :
    w.store.get? scope = some id ∧ w.isInvalidated id = true := by
  obtain ⟨hbefore, hkept⟩ := get?_keepOnly hget
  refine ⟨hbefore, ?_⟩
  obtain ⟨service, hs, rfl⟩ := hw scope id hbefore
  have hother : id ∉ w.stored m := by
    intro hstored
    obtain ⟨scope', hm, hget'⟩ := mem_stored_iff.1 hstored
    obtain ⟨service', hs', rfl⟩ := hw scope' id hget'
    rw [hs] at hs'
    cases hs'
    simp [hm] at hkept
  have hafter := service?_invalidate m w id
  rw [hs, Option.map_some, if_neg hother] at hafter
  rwa [isInvalidated_eq_of_service hafter, ← isInvalidated_eq_of_service hs] at hmark

theorem explained_fetch (hw : w.Coherent) (limits : CacheLimits) (scope : Scope) :
    Explained given w (w.fetch limits scope).2 where
  coherent := hw.fetch limits scope
  suffix := (show Change limits w _ from .fetch w scope).journal_suffix
  scopes := fun id service hs => ⟨service, service?_fetch hs limits scope, rfl⟩
  marked := by
    intro id service hs hcurrent hmark
    rw [isInvalidated_eq_of_service (service?_fetch hs limits scope), hcurrent] at hmark
    cases hmark
  stored := fun _ _ hget hmark => .inl (stored_of_fetch hget hmark)

theorem explained_invalidate (hw : w.Coherent) {command : Command} {m : ModuleName}
    (h : command.Invalidates m) : Explained (· = command) w (w.invalidate m).2 where
  coherent := (show Change .standard w _ from .invalidate w m).coherent hw
  suffix := (show Change .standard w _ from .invalidate w m).journal_suffix
  scopes := by
    intro id service hs
    rw [service?_invalidate, hs, Option.map_some]
    refine ⟨_, rfl, ?_⟩
    split <;> rfl
  marked := by
    intro id service hs hcurrent hmark
    refine ⟨command, .inl rfl, .inr ?_⟩
    have hafter := service?_invalidate m w id
    by_cases hstored : id ∈ w.stored m
    · obtain ⟨scope, hm, hget⟩ := mem_stored_iff.1 hstored
      obtain ⟨service', hs', hscope⟩ := hw scope id hget
      rw [hs] at hs'
      cases hs'
      rw [hscope, hm]
      exact h
    · rw [hs, Option.map_some, if_neg hstored] at hafter
      rw [isInvalidated_eq_of_service hafter, hcurrent] at hmark
      cases hmark
  stored := fun _ _ hget hmark => .inl (stored_of_invalidate hw hget hmark)

theorem explained_markInvalid (hw : w.Coherent) (id : ServiceId) :
    Explained (· = .invalidateService id) w (w.markInvalid id) := by
  refine ⟨(show Change .standard w _ from .mark w id).coherent hw, List.suffix_rfl, ?scopes,
    ?marked, ?stored⟩
  case scopes =>
    intro id' service hs
    rw [service?_markInvalid, hs, Option.map_some]
    refine ⟨_, rfl, ?_⟩
    split <;> rfl
  case marked =>
    intro id' service hs hcurrent hmark
    by_cases hid : id = id'
    · exact ⟨_, .inl rfl, .inl (hid ▸ rfl)⟩
    · rw [isInvalidated_markInvalid_ne hid, isInvalidated_eq_of_service hs, hcurrent] at hmark
      cases hmark
  case stored =>
    intro scope id' hget hmark
    by_cases hid : id = id'
    · exact .inr (.inl (hid ▸ rfl))
    · rw [isInvalidated_markInvalid_ne hid] at hmark
      exact .inl ⟨hget, hmark⟩

/-- What a command explains is explained by the journal when the command has been noted. -/
theorem Explained.noted {command : Command} (h : Explained (· = command) w w') (reply : Reply) :
    Explained (fun _ => False) w (w'.note (.performed command reply)) := by
  obtain ⟨news, hnews⟩ := h.suffix
  have hperformed : Performed command w (w'.note (.performed command reply)) :=
    ⟨.performed command reply :: news, reply, by rw [note, ← hnews, List.cons_append],
      List.mem_cons_self⟩
  have hsuffix : w'.journal <:+ (w'.note (.performed command reply)).journal :=
    List.suffix_cons _ _
  refine ⟨fun scope id => h.coherent scope id, h.suffix.trans hsuffix, h.scopes, ?marked, ?stored⟩
  case marked =>
    intro id service hs hcurrent hmark
    obtain ⟨command', hdue, hmarks⟩ := h.marked id service hs hcurrent hmark
    rcases hdue with rfl | hdue
    · exact ⟨_, .inr hperformed, hmarks⟩
    · exact ⟨command', .inr (hdue.after hsuffix), hmarks⟩
  case stored =>
    intro scope id hget hmark
    rcases h.stored scope id hget hmark with hbefore | rfl | hdue
    · exact .inl hbefore
    · exact .inr (.inr hperformed)
    · exact .inr (.inr (hdue.after hsuffix))

/-! ## Marks in the store -/

/-- Only the mark that is put by someone who holds a service leaves it in the store. -/
theorem Change.marked_in_store (h : Change limits w w') (hw : w.Coherent) {scope : Scope}
    {id : ServiceId} (hget : w'.store.get? scope = some id) (hmark : w'.isInvalidated id = true) :
    (w.store.get? scope = some id ∧ w.isInvalidated id = true) ∨ w' = w.markInvalid id := by
  have hslot : ∀ id' (q : Question) slot, (w.setSlot id' q slot).isInvalidated id = true →
      w.isInvalidated id = true := by
    intro id' q slot hmark
    rwa [isInvalidated_setSlot] at hmark
  cases h with
  | fetch scope' => exact .inl (stored_of_fetch hget hmark)
  | invalidate m => exact .inl (stored_of_invalidate hw hget hmark)
  | mark id' =>
    by_cases hid : id' = id
    · exact .inr (hid ▸ rfl)
    · rw [isInvalidated_markInvalid_ne hid] at hmark
      exact .inl ⟨hget, hmark⟩
  | evict => exact .inl ⟨(get?_keepOnly hget).1, hmark⟩
  | clear => cases hget
  | load id' q _ => exact .inl ⟨hget, hslot id' q _ hmark⟩
  | fill id' q answer _ => exact .inl ⟨hget, hslot id' q _ hmark⟩
  | unload id' q _ => exact .inl ⟨hget, hslot id' q _ hmark⟩
  | pass nanos => exact .inl ⟨hget, hmark⟩
  | backend state => exact .inl ⟨hget, hmark⟩
  | note occurrence => exact .inl ⟨hget, hmark⟩
  | report report => exact .inl ⟨hget, hmark⟩

/-- In every world that is ever reached, a service in the store with a mark was marked by someone
who held it. -/
theorem Leads.marked_in_store {start : σ} {now : Instant} (h : Leads limits (initial start now) w)
    {scope : Scope} {id : ServiceId} (hget : w.store.get? scope = some id)
    (hmark : w.isInvalidated id = true) :
    ∃ w₁, Leads limits (initial start now) w₁ ∧ Leads limits (w₁.markInvalid id) w := by
  induction h with
  | refl => cases hget
  | @tail w₁ w₂ hbefore hchange ih =>
    have hw := Leads.coherent hbefore (coherent_initial start now)
    rcases hchange.marked_in_store hw hget hmark with ⟨hget', hmark'⟩ | rfl
    · obtain ⟨w', hreached, hafter⟩ := ih hget' hmark'
      exact ⟨w', hreached, hafter.tail hchange⟩
    · exact ⟨w₁, hbefore, .refl⟩

end World

/-! ## Decisions and commands -/

namespace Decision

open World

/-- A way to put questions during which every mark is explained by the journal. -/
def Explaining {σ : Type} (consult : Consult σ) : Prop :=
  ∀ id deadline q w, w.Coherent →
    Explained (fun _ => False) w ((consult id deadline q).run w).2

theorem Explaining.invariant {σ : Type} {consult : Consult σ} (h : Explaining consult)
    (given : Command → Prop) (w : World σ) :
    Invariant consult fun w' => Explained given w w' where
  slot _ id q slot hbefore := hbefore.trans (explained_setSlot hbefore.coherent id q slot)
  ask _ id deadline q hbefore :=
    hbefore.trans ((h id deadline q _ hbefore.coherent).mono fun _ => False.elim)
  pass _ _ hbefore := hbefore.trans (.of_eq hbefore.coherent rfl rfl List.suffix_rfl)

end Decision

section Commands

open World

variable {σ : Type} {limits : CacheLimits} {consult : Consult σ} {w : World σ}
  (hconsult : Decision.Reliable limits consult) (hexplaining : Decision.Explaining consult)

include hconsult hexplaining

/-- A decision puts no marks itself. -/
theorem explained_answerFrom (hw : w.Coherent) (id : ServiceId) (q : Question) :
    Explained (fun _ => False) w ((Decision.answerFrom limits consult id q).run w).2 :=
  (hexplaining.invariant _ w).answerFrom hconsult id q (.refl hw)

/-- Every mark that is put while a command is performed is due to it, or to the backend. -/
theorem explained_perform (hw : w.Coherent) (command : Command) :
    Explained (· = command) w ((perform limits consult command).run w).2 := by
  cases command with
  | ask scope inquiry =>
    exact (hexplaining.invariant _ w).answerWithin hconsult
      (fun w₁ hbefore => hbefore.trans (explained_fetch hbefore.coherent limits scope))
      invalidationRetries inquiry.question (.refl hw)
  | take scope => exact explained_fetch hw limits scope
  | askService id inquiry =>
    exact (explained_answerFrom hconsult hexplaining hw id inquiry.question).mono
      fun _ => False.elim
  | invalidateService id => exact explained_markInvalid hw id
  | event m action =>
    cases action with
    | stop => exact explained_invalidate hw ⟨rfl, rfl⟩
    | securityChanged => exact explained_invalidate hw ⟨rfl, rfl⟩
    | start => exact .refl hw
    | startFailed => exact .refl hw
  | invalidate m => exact explained_invalidate hw rfl
  | evict => exact explained_drop hw fun _ _ hget => (get?_keepOnly hget).1
  | clear => exact explained_drop hw nofun
  | wait nanos => exact .of_eq hw rfl rfl List.suffix_rfl

end Commands

section Lookups

open World

variable {σ : Type} {limits : CacheLimits} {obey : Command → StateM (World σ) Reply}
  (hobey : ∀ command w, w.Coherent → Explained (· = command) w ((obey command).run w).2)

include hobey

theorem explained_performAll (commands : List Command) {w : World σ} (hw : w.Coherent) :
    Explained (fun _ => False) w ((performAll obey commands).run w).2 := by
  induction commands generalizing w with
  | nil => exact .refl hw
  | cons command rest ih =>
    have hfirst := (hobey command w hw).noted ((obey command).run w).1
    exact hfirst.trans (ih hfirst.coherent)

theorem explaining_lookUp (backend : PermissionBackend σ) :
    Decision.Explaining (lookUp limits backend obey) := by
  intro id deadline q w hw
  by_cases hlate : deadline < w.now
  · rw [run_lookUp_of_late backend obey hlate]
    exact .of_eq hw rfl rfl List.suffix_rfl
  · obtain ⟨reaction, state, replies, w₁, conclusion, state', -, hcommands, -, hrun⟩ :=
      run_lookUp_of_open limits backend obey hlate
    have hbefore : Explained (fun _ => False) w
        ({ w with backend := state }.note (.called (Decision.scopeOf w id) q)) :=
      .of_eq hw rfl rfl (List.suffix_cons _ _)
    have hmeanwhile := explained_performAll hobey reaction.commands hbefore.coherent
    rw [hcommands] at hmeanwhile
    rw [hrun]
    exact (hbefore.trans hmeanwhile).trans
      (.of_eq hmeanwhile.coherent rfl rfl List.suffix_rfl)

end Lookups

/-- No mark is put while a lookup is held up. -/
theorem explaining_delayed {σ : Type} {consult : Consult σ}
    (hexplaining : Decision.Explaining consult) (backend : PermissionBackend σ) :
    Decision.Explaining (delayed backend consult) := by
  intro id deadline q w hw
  rw [run_delayed]
  have hwait : World.Explained (fun _ => False) w
      (w.pass (backend.delay ⟨Decision.scopeOf w id, q, w.now, deadline⟩)) :=
    .of_eq hw rfl rfl List.suffix_rfl
  exact hwait.trans (hexplaining id deadline q _ hwait.coherent)

/-- However deep the backend asks back, the journal explains all marks that are put meanwhile. -/
theorem explaining_consultAt {σ : Type} (limits : CacheLimits) (backend : PermissionBackend σ)
    (depth : Nat) : Decision.Explaining (consultAt limits backend depth) := by
  induction depth with
  | zero => exact fun id deadline q w hw => .refl hw
  | succ depth ih =>
    refine explaining_delayed (explaining_lookUp (fun command w hw => ?_) backend) backend
    exact explained_perform (reliable_consultAt backend depth) ih hw command

namespace DecisionCache

open World

variable {σ : Type} (cache : DecisionCache σ) {w : World σ}

theorem explained_answerAt (hw : w.Coherent) (depth : Nat) (id : ServiceId) (q : Question) :
    Explained (fun _ => False) w ((cache.answerAt depth id q).run w).2 :=
  explained_answerFrom (reliable_consultAt cache.backend depth)
    (explaining_consultAt cache.limits cache.backend depth) hw id q

/-- Marks that are there after a number of commands are due to one of them, or to a command of the
backend. -/
theorem explained_after (hw : w.Coherent) (commands : List Command) :
    Explained (· ∈ commands) w (cache.after commands w) := by
  induction commands generalizing w with
  | nil => exact .refl hw
  | cons command rest ih =>
    have hfirst := explained_perform cache.reliable_consult
      (explaining_consultAt cache.limits cache.backend _) hw command
    rw [after_cons]
    exact (hfirst.mono fun _ heq => heq ▸ List.mem_cons_self).trans
      ((ih hfirst.coherent).mono fun _ => List.mem_cons_of_mem command)

end DecisionCache

end Gatehouse
