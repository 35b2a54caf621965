import Gatehouse.OAuth.ReplayGuard

/-!
# What a replay guard remembers

The guard drops and overwrites entries, and it sweeps at moments that depend on how many requests
it has seen. None of this can be told from its answers, as long as the clock does not run
backwards. The invariant behind this is `Recalls`: from now on, the guard knows a ticket exactly
if the ticket was accepted before and has not expired yet.

- `Admits`, `admits_check`, `check_of_refused`: what a check changes.
- `recalls_ofWindow`: a new guard recalls nothing.
- `Recalls.purge`, `Recalls.check`: sweeps and checks keep the invariant; a check adds its ticket
  if it lets the request pass.
- `Recalls.check_fst_iff`: when a check lets a request pass.
-/

namespace Gatehouse.OAuth.ReplayGuard

/-! ## One operation at a time -/

theorem remembers_iff (g : ReplayGuard) (t : Ticket) (now : Int) :
    g.remembers t now = true ↔ ∃ e, g.seen.get? t = some e ∧ now < e := by
  unfold remembers
  cases hget : g.seen.get? t with
  | none => simp
  | some e => simp

/-- Recording a ticket changes what is remembered of that ticket only. -/
theorem remembers_record (g : ReplayGuard) (t t' : Ticket) (now : Int) :
    (g.record t).remembers t' now = true ↔
      if t = t' then now < g.expiry t.timestamp else g.remembers t' now = true := by
  rw [remembers_iff]
  show (∃ e, (g.seen.put t (g.expiry t.timestamp)).get? t' = some e ∧ now < e) ↔ _
  rw [Table.get?_put]
  by_cases h : t = t'
  · simp [h]
  · simp [h, remembers_iff]

/-- A sweep drops only what has expired, so nothing is forgotten that counts later. -/
theorem remembers_purge {g : ReplayGuard} {now now' : Int} (h : now ≤ now') (t : Ticket) :
    (g.purge now).remembers t now' = true ↔ g.remembers t now' = true := by
  rw [remembers_iff, remembers_iff]
  show (∃ e, (g.seen.retain fun _ expiresAt => now < expiresAt).get? t = some e ∧ now' < e) ↔ _
  rw [Table.get?_retain]
  constructor
  · rintro ⟨e, he, hlt⟩
    exact ⟨e, (Option.filter_eq_some_iff.1 he).1, hlt⟩
  · rintro ⟨e, he, hlt⟩
    refine ⟨e, Option.filter_eq_some_iff.2 ⟨he, ?_⟩, hlt⟩
    simpa using Int.lt_of_le_of_lt h hlt

@[simp] theorem purge_window (g : ReplayGuard) (now : Int) : (g.purge now).window = g.window :=
  rfl

@[simp] theorem record_window (g : ReplayGuard) (t : Ticket) : (g.record t).window = g.window :=
  rfl

theorem check_of_remembers {g : ReplayGuard} {t : Ticket} {now : Int}
    (h : g.remembers t now = true) : g.check t now = (false, g) := by
  simp [check, h]

/-- A new ticket passes and is recorded, and a sweep may follow. -/
theorem check_of_not_remembers {g : ReplayGuard} {t : Ticket} {now : Int}
    (h : ¬ g.remembers t now = true) :
    (g.check t now).1 = true ∧
      ((g.check t now).2 = g.record t ∨ (g.check t now).2 = (g.record t).purge now) := by
  rw [check, if_neg h]
  refine ⟨rfl, ?_⟩
  show (if _ then _ else _) = _ ∨ (if _ then _ else _) = _
  split
  · exact .inr rfl
  · exact .inl rfl

@[simp] theorem check_window (g : ReplayGuard) (t : Ticket) (now : Int) :
    (g.check t now).2.window = g.window := by
  by_cases h : g.remembers t now = true
  · rw [check_of_remembers h]
  · obtain ⟨-, h' | h'⟩ := check_of_not_remembers h
    · rw [h', record_window]
    · rw [h', purge_window, record_window]

theorem expiry_congr {g g' : ReplayGuard} (h : g.window = g'.window) (timestamp : Int) :
    g.expiry timestamp = g'.expiry timestamp := by
  rw [expiry, expiry, h]

/-- What a guard becomes that admits a ticket: the ticket has an entry with its expiry, the counter
has gone up by one, and all other entries are as they were. The only exception are entries that
have expired by now, the new one perhaps among them: they may have been swept out. -/
structure Admits (g : ReplayGuard) (t : Ticket) (now : Int) (g' : ReplayGuard) : Prop where
  window : g'.window = g.window
  purgeInterval : g'.purgeInterval = g.purgeInterval
  recorded : g'.recorded = g.recorded + 1
  entries : ∀ t', g'.seen.get? t' =
      (if t = t' then some (g.expiry t.timestamp) else g.seen.get? t') ∨
    (g'.seen.get? t' = none ∧
      ∃ e ≤ now, (if t = t' then some (g.expiry t.timestamp) else g.seen.get? t') = some e)

theorem admits_record (g : ReplayGuard) (t : Ticket) (now : Int) : g.Admits t now (g.record t) :=
  ⟨rfl, rfl, rfl, fun t' => .inl (Table.get?_put _ t t' _)⟩

/-- A sweep takes away nothing but what has expired. -/
theorem Admits.purge {g g' : ReplayGuard} {t : Ticket} {now : Int} (h : g.Admits t now g') :
    g.Admits t now (g'.purge now) where
  window := h.window
  purgeInterval := h.purgeInterval
  recorded := h.recorded
  entries := by
    intro t'
    have hview : (g'.purge now).seen.get? t' = (g'.seen.get? t').filter (now < ·) :=
      Table.get?_retain _ _ t'
    rcases h.entries t' with hkept | ⟨hgone, hexpired⟩
    · rw [hview, hkept]
      cases hentry : (if t = t' then some (g.expiry t.timestamp) else g.seen.get? t') with
      | none => exact .inl rfl
      | some e =>
        by_cases hlt : now < e
        · exact .inl (by rw [Option.filter_some, if_pos (decide_eq_true hlt)])
        · exact .inr ⟨by rw [Option.filter_some, if_neg (by simpa using hlt)],
            e, Int.not_lt.1 hlt, rfl⟩
    · exact .inr ⟨by rw [hview, hgone, Option.filter_none], hexpired⟩

/-- A check that lets a request pass admits its ticket. -/
theorem admits_check {g : ReplayGuard} {t : Ticket} {now : Int} (h : (g.check t now).1 = true) :
    g.Admits t now (g.check t now).2 := by
  have hnew : ¬ g.remembers t now = true := by
    intro hold
    rw [check_of_remembers hold] at h
    cases h
  obtain ⟨-, hrecorded | hswept⟩ := check_of_not_remembers hnew
  · rw [hrecorded]
    exact admits_record g t now
  · rw [hswept]
    exact (admits_record g t now).purge

/-- A check that lets a request not pass changes nothing. -/
theorem check_of_refused {g : ReplayGuard} {t : Ticket} {now : Int}
    (h : (g.check t now).1 = false) : (g.check t now).2 = g := by
  by_cases hold : g.remembers t now = true
  · rw [check_of_remembers hold]
  · rw [(check_of_not_remembers hold).1] at h
    cases h

/-! ## The invariant -/

/-- From now on, the guard knows a ticket exactly if it was accepted and has not expired yet. -/
def Recalls (g : ReplayGuard) (accepted : List Ticket) (now : Int) : Prop :=
  ∀ t now', now ≤ now' →
    (g.remembers t now' = true ↔ t ∈ accepted ∧ now' < g.expiry t.timestamp)

theorem recalls_ofWindow (windowSecs interval : Nat) (now : Int) :
    ((ofWindow windowSecs).withPurgeInterval interval).Recalls [] now := by
  intro t now' _
  simp [remembers_iff, ofWindow, withPurgeInterval]

theorem Recalls.later {g : ReplayGuard} {accepted : List Ticket} {now now' : Int}
    (h : g.Recalls accepted now) (hle : now ≤ now') : g.Recalls accepted now' :=
  fun t later hlater => h t later (Int.le_trans hle hlater)

theorem Recalls.purge {g : ReplayGuard} {accepted : List Ticket} {now : Int}
    (h : g.Recalls accepted now) : (g.purge now).Recalls accepted now := by
  intro t now' hle
  rw [remembers_purge hle, expiry_congr (purge_window g now)]
  exact h t now' hle

/-- A ticket that is recorded has not been accepted before, or has expired since. -/
theorem Recalls.record {g : ReplayGuard} {accepted : List Ticket} {now : Int}
    (h : g.Recalls accepted now) (t : Ticket) : (g.record t).Recalls (t :: accepted) now := by
  intro t' now' hle
  rw [remembers_record, expiry_congr (record_window g t)]
  by_cases ht : t = t'
  · subst ht
    simp
  · rw [if_neg ht, h t' now' hle, List.mem_cons]
    simp [Ne.symm ht]

/-- A request passes unless its ticket was accepted before and has not expired yet. -/
theorem Recalls.check_fst_iff {g : ReplayGuard} {accepted : List Ticket} {now now' : Int}
    (h : g.Recalls accepted now) (hle : now ≤ now') (t : Ticket) :
    (g.check t now').1 = true ↔ (t ∈ accepted → g.expiry t.timestamp ≤ now') := by
  by_cases hr : g.remembers t now' = true
  · obtain ⟨hmem, hlt⟩ := (h t now' hle).1 hr
    rw [check_of_remembers hr]
    simp only [Bool.false_eq_true, false_iff]
    intro himp
    exact absurd (himp hmem) (Int.not_le.2 hlt)
  · have hfresh := (check_of_not_remembers hr).1
    rw [hfresh]
    simp only [true_iff]
    intro hmem
    exact Int.not_lt.1 fun hlt => hr ((h t now' hle).2 ⟨hmem, hlt⟩)

/-- A check keeps the invariant, with its ticket added if the request passes. -/
theorem Recalls.check {g : ReplayGuard} {accepted : List Ticket} {now now' : Int}
    (h : g.Recalls accepted now) (hle : now ≤ now') (t : Ticket) :
    (g.check t now').2.Recalls (if (g.check t now').1 then t :: accepted else accepted) now' := by
  have hnow := h.later hle
  by_cases hr : g.remembers t now' = true
  · rw [check_of_remembers hr]
    exact hnow
  · obtain ⟨hfresh, hg | hg⟩ := check_of_not_remembers hr
    · rw [hfresh, hg]
      exact hnow.record t
    · rw [hfresh, hg]
      exact (hnow.record t).purge

/-! ## Expiry in exact numbers -/

/-- When a ticket with the given timestamp is forgotten, for a window of so many seconds. -/
def forgottenAt (windowSecs : Nat) (timestamp : Int) : Int :=
  min (timestamp + min (windowSecs : Int) Numeral.maxSigned) Numeral.maxSigned

theorem expiry_eq_forgottenAt {g : ReplayGuard} {windowSecs : Nat} {timestamp : Int}
    (hw : g.window = min (windowSecs : Int) Numeral.maxSigned)
    (ht : Numeral.minSigned ≤ timestamp) :
    g.expiry timestamp = forgottenAt windowSecs timestamp := by
  have hnonneg : 0 ≤ min (windowSecs : Int) Numeral.maxSigned :=
    Int.le_min.2 ⟨Int.natCast_nonneg windowSecs, by decide⟩
  have hlow : Numeral.minSigned ≤ forgottenAt windowSecs timestamp :=
    Int.le_min.2 ⟨by omega, by decide⟩
  rw [expiry, hw, Numeral.clampSigned]
  exact Int.max_eq_right hlow

end Gatehouse.OAuth.ReplayGuard
