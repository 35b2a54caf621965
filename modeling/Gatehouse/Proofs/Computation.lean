/-!
# Computations with state and failure

Authentication and access decisions are computations that carry a state and may fail, and keep the
changes that were made before they failed. A run of one is a pair of outcome and state; the laws
here take runs of composed computations apart, so that no other proof has to open the monad. The
same is done for steps that are taken one after the other.
-/

namespace Gatehouse

variable {ε ς α β : Type}

/-- A run of a composition: the second part starts where the first one succeeded. -/
theorem run_bind (x : ExceptT ε (StateM ς) α) (f : α → ExceptT ε (StateM ς) β) (st : ς) :
    (x >>= f).run st =
      match x.run st with
      | (.ok a, st') => (f a).run st'
      | (.error e, st') => (.error e, st') := by
  show (x.run st >>= fun p => (ExceptT.bindCont f p.1) p.2 : Id _) = _
  cases h : x.run st with
  | mk r st' =>
    cases r with
    | ok a => rfl
    | error e => rfl

theorem run_bind_of_ok {x : ExceptT ε (StateM ς) α} {st st' : ς} {a : α}
    (h : x.run st = (.ok a, st')) (f : α → ExceptT ε (StateM ς) β) :
    (x >>= f).run st = (f a).run st' := by
  rw [run_bind, h]

theorem run_bind_of_error {x : ExceptT ε (StateM ς) α} {st st' : ς} {e : ε}
    (h : x.run st = (.error e, st')) (f : α → ExceptT ε (StateM ς) β) :
    (x >>= f).run st = (.error e, st') := by
  rw [run_bind, h]

/-- The same for computations that may fail and have no state. -/
theorem ok_of_bind {x : Except ε α} {f : α → Except ε β} {b : β} (h : (x >>= f) = .ok b) :
    ∃ a, x = .ok a ∧ f a = .ok b := by
  cases x with
  | ok a => exact ⟨a, rfl, h⟩
  | error e => cases h

/-- What cannot fail afterwards does not matter for a failure. -/
theorem bind_pure_eq_error_iff {x : Except ε α} {f : α → β} {e : ε} :
    (x >>= fun a => pure (f a)) = .error e ↔ x = .error e := by
  cases x with
  | ok a => exact ⟨nofun, nofun⟩
  | error e' => exact ⟨fun h => congrArg Except.error (Except.error.inj h),
      fun h => congrArg Except.error (Except.error.inj h)⟩

theorem ok_of_map {x : Except ε α} {f : α → β} {b : β} (h : x.map f = .ok b) :
    ∃ a, x = .ok a ∧ f a = b := by
  cases x with
  | ok a => exact ⟨a, rfl, Except.ok.inj h⟩
  | error e => cases h

/-- A success can be told by its value, which is decidable more often. -/
theorem eq_ok_of_toOption {x : Except ε α} {a : α} (h : x.toOption = some a) : x = .ok a := by
  cases x with
  | ok b => exact congrArg Except.ok (Option.some.inj h)
  | error e => cases h

/-- A check without state leaves the state alone. -/
theorem run_check (x : Except ε α) (st : ς) :
    (liftM x : ExceptT ε (StateM ς) α).run st = (x, st) := by
  cases x with
  | ok a => rfl
  | error e => rfl

/-! ## Steps in a row -/

/-- What no step changes is in the end as it was in the beginning. -/
theorem foldl_keeps (f : ς → β) {next : ς → α → ς} (hstep : ∀ s a, f (next s a) = f s)
    (l : List α) (s : ς) : f (l.foldl next s) = f s := by
  induction l generalizing s with
  | nil => rfl
  | cons a l ih => exact (ih (next s a)).trans (hstep s a)

/-- Steps that may fail, but do nothing else than others that may not, lead to where these lead. -/
theorem eq_foldl_of_foldlM {step : ς → α → Except ε ς} {next : ς → α → ς}
    (hstep : ∀ s a {s'}, step s a = .ok s' → s' = next s a) {l : List α} {s s' : ς}
    (h : l.foldlM step s = .ok s') : s' = l.foldl next s := by
  induction l generalizing s with
  | nil => exact (Except.ok.inj h).symm
  | cons a l ih =>
    rw [List.foldlM_cons] at h
    obtain ⟨s₁, hfirst, hrest⟩ := ok_of_bind h
    obtain rfl := hstep s a hfirst
    exact ih hrest

/-- Steps that fail for what they are given, whatever came before, fail for the first that makes a
step fail. -/
theorem foldlM_eq_error_iff {step : ς → α → Except ε ς} {refusal? : α → Option ε}
    (hstep : ∀ s a e, step s a = .error e ↔ refusal? a = some e) {l : List α} {s : ς} {e : ε} :
    l.foldlM step s = .error e ↔ l.findSome? refusal? = some e := by
  induction l generalizing s with
  | nil => exact ⟨nofun, nofun⟩
  | cons a l ih =>
    rw [List.foldlM_cons, List.findSome?_cons]
    cases hfirst : step s a with
    | error e' =>
      rw [(hstep s a e').1 hfirst]
      exact ⟨fun h => congrArg some (Except.error.inj h),
        fun h => congrArg Except.error (Option.some.inj h)⟩
    | ok s' =>
      have hnone : refusal? a = none := by
        rw [Option.eq_none_iff_forall_ne_some]
        intro e' hrefused
        rw [(hstep s a e').2 hrefused] at hfirst
        cases hfirst
      rw [hnone]
      exact ih

end Gatehouse
