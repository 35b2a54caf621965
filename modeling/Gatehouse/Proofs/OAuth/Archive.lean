import Gatehouse.Proofs.Computation
import Gatehouse.Proofs.OAuth.ReplayGuard

/-!
# A guard that forgets nothing

When a guard sweeps depends on a counter and on its owner, and what it drops may be recorded once
more. A guard that keeps every ticket would be simpler to understand. It answers the same, as long
as the clock does not run backwards: `Mirrors` says how the two are related, each call keeps it, and
so does a whole run.

- `Archive`: a guard that forgets nothing.
- `Mirrors.next`, `Mirrors.after`: what one call keeps, and what a run keeps.
- `PassedIn`: that a ticket was accepted in the course of a run.
- `sweeps_are_invisible`: checks are answered by what was accepted before, and sweeps drop exactly
  what has expired.
-/

namespace Gatehouse.OAuth

open ReplayGuard (forgottenAt)

/-- A guard that keeps every ticket that it has accepted. -/
structure Archive where
  windowSecs : Nat
  accepted : List Ticket

namespace ReplayGuard

/-! ## Runs -/

/-- What is asked of a guard: to check a ticket, or to sweep. -/
inductive Call where
  | check (ticket : Ticket) (now : Int)
  | purge (now : Int)
deriving DecidableEq

/-- When a call happens. -/
def Call.now : Call → Int
  | .check _ now => now
  | .purge now => now

/-- The timestamp that is checked is an instant of the calendar. -/
def Call.OnCalendar : Call → Prop
  | .check t _ => Numeral.minSigned ≤ t.timestamp
  | .purge _ => True

instance : (call : Call) → Decidable call.OnCalendar
  | .check t _ => inferInstanceAs (Decidable (Numeral.minSigned ≤ t.timestamp))
  | .purge _ => inferInstanceAs (Decidable True)

/-- The clock never goes backwards. -/
def Chronological (calls : List Call) : Prop :=
  (calls.map Call.now).Pairwise (· ≤ ·)

instance (calls : List Call) : Decidable (Chronological calls) :=
  inferInstanceAs (Decidable (List.Pairwise _ _))

/-- The guard after a call. -/
def next (g : ReplayGuard) : Call → ReplayGuard
  | .check t now => (g.check t now).2
  | .purge now => g.purge now

/-- The guard after some calls. -/
def after (g : ReplayGuard) (calls : List Call) : ReplayGuard :=
  calls.foldl next g

/-- One of the calls has accepted a ticket. -/
def PassedIn (g : ReplayGuard) (calls : List Call) (t : Ticket) : Prop :=
  ∃ before now rest, calls = before ++ .check t now :: rest ∧
    ((g.after before).check t now).1 = true

end ReplayGuard

namespace Archive

/-- Whether a ticket is new; a new one is kept for ever. A ticket is new again when it has
expired. -/
def check (a : Archive) (t : Ticket) (now : Int) : Bool × Archive :=
  if t ∈ a.accepted ∧ now < forgottenAt a.windowSecs t.timestamp then (false, a)
  else (true, { a with accepted := t :: a.accepted })

/-- The archive after a call; it never sweeps. -/
def next (a : Archive) : ReplayGuard.Call → Archive
  | .check t now => (a.check t now).2
  | .purge _ => a

/-- The archive after some calls. -/
def after (a : Archive) (calls : List ReplayGuard.Call) : Archive :=
  calls.foldl next a

theorem check_fst_eq_false_iff (a : Archive) (t : Ticket) (now : Int) :
    (a.check t now).1 = false ↔
      t ∈ a.accepted ∧ now < forgottenAt a.windowSecs t.timestamp := by
  unfold check
  split
  · next h => exact iff_of_true rfl h
  · next h => exact iff_of_false nofun h

theorem check_snd (a : Archive) (t : Ticket) (now : Int) :
    (a.check t now).2 =
      { a with accepted := if (a.check t now).1 then t :: a.accepted else a.accepted } := by
  unfold check
  split <;> rfl

theorem mem_accepted_check {a : Archive} {t t' : Ticket} {now : Int} :
    t ∈ (a.check t' now).2.accepted ↔ t ∈ a.accepted ∨ t = t' ∧ (a.check t' now).1 = true := by
  rw [check_snd]
  cases hpass : (a.check t' now).1 with
  | false => simp
  | true => simp [or_comm]

@[simp] theorem check_windowSecs (a : Archive) (t : Ticket) (now : Int) :
    (a.check t now).2.windowSecs = a.windowSecs := by
  rw [check_snd]

@[simp] theorem after_windowSecs (a : Archive) (calls : List ReplayGuard.Call) :
    (a.after calls).windowSecs = a.windowSecs := by
  refine foldl_keeps Archive.windowSecs (fun a call => ?_) calls a
  cases call with
  | check t now => exact check_windowSecs a t now
  | purge now => rfl

end Archive

namespace ReplayGuard

/-! ## The archive of a guard -/

/-- From now on, a guard answers as an archive does. What it still has, it has with the expiry that
the archive would compute. -/
structure Mirrors (g : ReplayGuard) (a : Archive) (now : Int) : Prop where
  window : g.window = min (a.windowSecs : Int) Numeral.maxSigned
  recalls : g.Recalls a.accepted now
  dated : ∀ t e, g.seen.get? t = some e → e = forgottenAt a.windowSecs t.timestamp

variable {g : ReplayGuard} {a : Archive} {start : Int}

/-- A new guard mirrors an empty archive. -/
theorem mirrors_ofWindow (windowSecs interval : Nat) (now : Int) :
    ((ofWindow windowSecs).withPurgeInterval interval).Mirrors ⟨windowSecs, []⟩ now where
  window := rfl
  recalls := recalls_ofWindow windowSecs interval now
  dated := nofun

theorem Mirrors.later {now : Int} (h : g.Mirrors a start) (hle : start ≤ now) :
    g.Mirrors a now :=
  ⟨h.window, h.recalls.later hle, h.dated⟩

/-- Both answer the same. -/
theorem Mirrors.check_fst {now : Int} (h : g.Mirrors a start) (hle : start ≤ now) {t : Ticket}
    (ht : Numeral.minSigned ≤ t.timestamp) : (g.check t now).1 = (a.check t now).1 := by
  rw [Bool.eq_iff_iff, h.recalls.check_fst_iff hle, expiry_eq_forgottenAt h.window ht,
    ← Bool.not_eq_false, a.check_fst_eq_false_iff, not_and, Int.not_lt]

/-- An entry is dropped, kept, or written anew with the expiry of its ticket. -/
theorem Mirrors.dated_check {now : Int} (h : g.Mirrors a start) {t : Ticket}
    (ht : Numeral.minSigned ≤ t.timestamp) {t' : Ticket} {e : Int}
    (he : (g.check t now).2.seen.get? t' = some e) :
    e = forgottenAt a.windowSecs t'.timestamp := by
  cases hpass : (g.check t now).1 with
  | false =>
    rw [check_of_refused hpass] at he
    exact h.dated t' e he
  | true =>
    rcases (admits_check hpass).entries t' with hentry | ⟨hgone, -⟩
    · rw [hentry] at he
      by_cases htt : t = t'
      · subst htt
        rw [if_pos rfl, expiry_eq_forgottenAt h.window ht] at he
        exact (Option.some.inj he).symm
      · rw [if_neg htt] at he
        exact h.dated t' e he
    · rw [hgone] at he
      cases he

theorem Mirrors.check {now : Int} (h : g.Mirrors a start) (hle : start ≤ now) {t : Ticket}
    (ht : Numeral.minSigned ≤ t.timestamp) :
    (g.check t now).2.Mirrors (a.check t now).2 now where
  window := by rw [check_window, Archive.check_windowSecs, h.window]
  recalls := by
    rw [Archive.check_snd, ← h.check_fst hle ht]
    exact h.recalls.check hle t
  dated := by
    intro t' e he
    rw [Archive.check_windowSecs]
    exact h.dated_check ht he

/-- A sweep is nothing that an archive would notice. -/
theorem Mirrors.purge {now : Int} (h : g.Mirrors a start) (hle : start ≤ now) :
    (g.purge now).Mirrors a now where
  window := h.window
  recalls := (h.recalls.later hle).purge
  dated := by
    intro t e he
    have hview : (g.purge now).seen.get? t = (g.seen.get? t).filter (now < ·) :=
      Table.get?_retain _ _ t
    rw [hview] at he
    exact h.dated t e (Option.filter_eq_some_iff.1 he).1

/-- What one call keeps. -/
theorem Mirrors.next (h : g.Mirrors a start) {call : Call} (hle : start ≤ call.now)
    (hcalendar : call.OnCalendar) : (g.next call).Mirrors (a.next call) call.now := by
  cases call with
  | check t now => exact h.check hle hcalendar
  | purge now => exact h.purge hle

/-- What a run keeps, up to any instant that is not before one of its calls. -/
theorem Mirrors.after {now : Int} {calls : List Call} (h : g.Mirrors a start)
    (hclock : Chronological calls) (hcalendar : ∀ call ∈ calls, call.OnCalendar)
    (hstart : ∀ call ∈ calls, start ≤ call.now) (hnow : ∀ call ∈ calls, call.now ≤ now)
    (hle : start ≤ now) : (g.after calls).Mirrors (a.after calls) now := by
  induction calls generalizing g a start with
  | nil => exact h.later hle
  | cons call calls ih =>
    rw [List.forall_mem_cons] at hcalendar hstart hnow
    have hlater := List.pairwise_cons.1 hclock
    -- the rest of the run starts at the first call, which no later one precedes
    exact ih (h.next hstart.1 hcalendar.1) hlater.2 hcalendar.2
      (fun c hc => hlater.1 _ (List.mem_map_of_mem hc)) hnow.2 hnow.1

/-! ## What was accepted before -/

theorem passedIn_cons_iff {call : Call} {calls : List Call} {t : Ticket} :
    g.PassedIn (call :: calls) t ↔
      (∃ now, call = .check t now ∧ (g.check t now).1 = true) ∨ (g.next call).PassedIn calls t := by
  constructor
  · rintro ⟨before, now, rest, hcalls, hpass⟩
    cases before with
    | nil =>
      cases hcalls
      exact .inl ⟨now, rfl, hpass⟩
    | cons first before =>
      cases hcalls
      exact .inr ⟨before, now, rest, rfl, hpass⟩
  · rintro (⟨now, rfl, hpass⟩ | ⟨before, now, rest, rfl, hpass⟩)
    · exact ⟨[], now, calls, rfl, hpass⟩
    · exact ⟨call :: before, now, rest, rfl, hpass⟩

/-- A call adds to the archive what it accepts. -/
theorem Mirrors.mem_accepted_next (h : g.Mirrors a start) {call : Call} (hle : start ≤ call.now)
    (hcalendar : call.OnCalendar) {t : Ticket} :
    t ∈ (a.next call).accepted ↔
      t ∈ a.accepted ∨ ∃ now, call = .check t now ∧ (g.check t now).1 = true := by
  cases call with
  | purge now =>
    show t ∈ a.accepted ↔ _
    simp
  | check t' now =>
    have hsame : (g.check t' now).1 = (a.check t' now).1 := h.check_fst hle hcalendar
    show t ∈ (a.check t' now).2.accepted ↔ _
    rw [Archive.mem_accepted_check, ← hsame]
    refine or_congr_right ⟨?_, ?_⟩
    · rintro ⟨rfl, hpass⟩
      exact ⟨now, rfl, hpass⟩
    · rintro ⟨_, hcall, hpass⟩
      cases hcall
      exact ⟨rfl, hpass⟩

/-- A run adds to the archive what it accepts. -/
theorem Mirrors.mem_accepted_after {calls : List Call} (h : g.Mirrors a start)
    (hclock : Chronological calls) (hcalendar : ∀ call ∈ calls, call.OnCalendar)
    (hstart : ∀ call ∈ calls, start ≤ call.now) {t : Ticket} :
    t ∈ (a.after calls).accepted ↔ t ∈ a.accepted ∨ g.PassedIn calls t := by
  induction calls generalizing g a start with
  | nil =>
    have hnone : ¬g.PassedIn [] t := by
      rintro ⟨before, now, rest, hcalls, -⟩
      exact absurd hcalls.symm (List.append_ne_nil_of_right_ne_nil before (List.cons_ne_nil _ rest))
    exact (or_iff_left hnone).symm
  | cons call calls ih =>
    rw [List.forall_mem_cons] at hcalendar hstart
    have hlater := List.pairwise_cons.1 hclock
    have hrest := ih (h.next hstart.1 hcalendar.1) hlater.2 hcalendar.2
      fun c hc => hlater.1 _ (List.mem_map_of_mem hc)
    show t ∈ ((a.next call).after calls).accepted ↔ _
    rw [hrest, h.mem_accepted_next hstart.1 hcalendar.1, passedIn_cons_iff, or_assoc]

/-! ## Sweeps -/

/-- A sweep reports how many entries have expired, and leaves the others as they are. -/
def DropsExpired (windowSecs : Nat) (g : ReplayGuard) (now : Int) : Prop :=
  g.expiredCount now =
      g.seen.entries.countP (fun e => forgottenAt windowSecs e.1.timestamp ≤ now) ∧
    (g.purge now).seen.entries =
      g.seen.entries.filter fun e => now < forgottenAt windowSecs e.1.timestamp

theorem Mirrors.dropsExpired (h : g.Mirrors a start) (now : Int) :
    DropsExpired a.windowSecs g now := by
  have hkept : (g.purge now).seen.entries =
      g.seen.entries.filter fun e => now < forgottenAt a.windowSecs e.1.timestamp := by
    refine List.filter_congr fun e he => ?_
    rw [← h.dated e.1 e.2 (Table.get?_eq_some_iff.2 he)]
  have hparts := List.length_eq_countP_add_countP (l := g.seen.entries)
    fun e => decide (forgottenAt a.windowSecs e.1.timestamp ≤ now)
  have hothers : (g.purge now).seen.size =
      g.seen.entries.countP
        fun e => decide (¬decide (forgottenAt a.windowSecs e.1.timestamp ≤ now)) := by
    rw [Table.size, hkept, ← List.countP_eq_length_filter]
    refine List.countP_congr fun e _ => ?_
    simp
  refine ⟨?_, hkept⟩
  rw [expiredCount, hothers]
  show g.seen.entries.length - _ = _
  omega

/-! ## Every call of a run -/

/-- What a call is answered, told by the calls before it: a check as the archive would, and as it
ought to be, and a sweep with what has expired. -/
def AnsweredByHistory (windowSecs : Nat) (g : ReplayGuard) (before : List Call) : Call → Prop
  | .check t now =>
    ((g.after before).check t now).1 =
        ((Archive.after ⟨windowSecs, []⟩ before).check t now).1 ∧
      (((g.after before).check t now).1 = false ↔
        g.PassedIn before t ∧ now < forgottenAt windowSecs t.timestamp)
  | .purge now => DropsExpired windowSecs (g.after before) now

/-- No call is before the first one. -/
theorem Chronological.exists_start {calls : List Call} (h : Chronological calls) :
    ∃ start, ∀ call ∈ calls, start ≤ call.now := by
  cases calls with
  | nil => exact ⟨0, List.forall_mem_nil _⟩
  | cons call calls =>
    have hlater := List.pairwise_cons.1 h
    exact ⟨call.now, List.forall_mem_cons.2
      ⟨Int.le_refl _, fun c hc => hlater.1 _ (List.mem_map_of_mem hc)⟩⟩

/-- Every call of every run is answered by its history, whatever the window is and whenever the
guard sweeps by itself. -/
theorem sweeps_are_invisible {windowSecs interval : Nat} {before rest : List Call} {call : Call}
    (hclock : Chronological (before ++ call :: rest))
    (hcalendar : ∀ c ∈ before ++ call :: rest, c.OnCalendar) :
    AnsweredByHistory windowSecs ((ofWindow windowSecs).withPurgeInterval interval) before
      call := by
  obtain ⟨start, hstart⟩ := hclock.exists_start
  rw [List.forall_mem_append, List.forall_mem_cons] at hcalendar hstart
  have hparts := hclock
  unfold Chronological at hparts
  rw [List.map_append, List.map_cons, List.pairwise_append] at hparts
  obtain ⟨hbefore, -, hbetween⟩ := hparts
  have hnow : ∀ c ∈ before, c.now ≤ call.now := fun c hc =>
    hbetween _ (List.mem_map_of_mem hc) _ List.mem_cons_self
  have hnew := mirrors_ofWindow windowSecs interval start
  have hmirrors := hnew.after hbefore hcalendar.1 hstart.1 hnow hstart.2.1
  cases call with
  | check t now =>
    have hsame := hmirrors.check_fst (Int.le_refl now) hcalendar.2.1
    have haccepted := hnew.mem_accepted_after hbefore hcalendar.1 hstart.1 (t := t)
    refine ⟨hsame, ?_⟩
    rw [hsame, Archive.check_fst_eq_false_iff, haccepted, Archive.after_windowSecs]
    simp
  | purge now =>
    have hdrops := hmirrors.dropsExpired now
    rwa [Archive.after_windowSecs] at hdrops

namespace Sample

/-- A ticket of the last minute of the calendar. -/
def lastMinute : Ticket :=
  ⟨"reader", "first", Numeral.maxSigned - 60⟩

/-- The ticket is accepted, and the guard sweeps twice before it is shown again. -/
def shown : List Call :=
  [.check lastMinute (Numeral.maxSigned - 60), .purge (Numeral.maxSigned - 30)]

end Sample

/-- The expiry is cut off at the end of the calendar, where the ticket is new again. Until then it
is known. -/
theorem sweeps_are_invisible_sample :
    (Chronological (Sample.shown ++ [.check Sample.lastMinute (Numeral.maxSigned - 1)]) ∧
      ∀ c ∈ Sample.shown ++ [.check Sample.lastMinute (Numeral.maxSigned - 1)], c.OnCalendar) ∧
    AnsweredByHistory 300 ((ofWindow 300).withPurgeInterval 1) Sample.shown
      (.check Sample.lastMinute (Numeral.maxSigned - 1)) ∧
    ((((ofWindow 300).withPurgeInterval 1).after Sample.shown).check Sample.lastMinute
      (Numeral.maxSigned - 1)).1 = false ∧
    ((((ofWindow 300).withPurgeInterval 1).after Sample.shown).check Sample.lastMinute
      Numeral.maxSigned).1 = true := by
  have hruns : Chronological (Sample.shown ++ [.check Sample.lastMinute (Numeral.maxSigned - 1)]) ∧
      ∀ c ∈ Sample.shown ++ [.check Sample.lastMinute (Numeral.maxSigned - 1)], c.OnCalendar := by
    decide
  exact ⟨hruns, sweeps_are_invisible hruns.1 hruns.2, by decide, by decide⟩

end ReplayGuard

end Gatehouse.OAuth
