import Mathlib.Data.List.Induction
import Gatehouse.Proofs.OAuth.Message
import Gatehouse.Proofs.OAuth.ReplayGuard
import Gatehouse.Proofs.OAuth.Verification

/-!
# How often a ticket is accepted

A verifier with a replay guard should accept each ticket once. Two tests decide about that, and
they do not quite meet: a timestamp is timely up to and including the last second of the window,
while the guard forgets the ticket as soon as that second begins. So each ticket is accepted at
most once up to that second, and in that second as often as it is shown.

- `Step`, `after`, `acceptedTickets`: runs of a verifier, with sweeps of the guard in between.
- `guarding_after`: the invariant of a run. The guard recalls what the run has accepted.
- `accepts_iff`: when a message is accepted after a run.
- `acceptedTickets_nodup_iff`: when a run accepts no ticket twice.
- `acceptedTickets_lastSecond`: a run that accepts a ticket twice.
-/

namespace Gatehouse.OAuth

variable {σ : Type}

/-! ## Runs -/

/-- What happens to a verifier: a message is verified, or expired tickets are swept out. -/
inductive Step where
  | verify (message : Message) (now : Int)
  | sweep (now : Int)

/-- Whether a message is accepted. -/
def accepts (s : AuthSettings) (backend : IdentityBackend σ) (m : Message) (now : Int)
    (st : AuthState σ) : Bool :=
  ((verify s backend m now).run st).1.isOk

/-- The state of a verifier that has a new guard for its own window. -/
def guarded (s : AuthSettings) (interval : Nat) (identities : σ) (users : UserCache) :
    AuthState σ :=
  ⟨identities, users, some ((ReplayGuard.ofWindow s.timestampWindow).withPurgeInterval interval)⟩

namespace Step

/-- When a step happens. -/
def now : Step → Int
  | .verify _ now => now
  | .sweep now => now

/-- The state after a step. -/
def next (s : AuthSettings) (backend : IdentityBackend σ) (st : AuthState σ) :
    Step → AuthState σ
  | .verify m now => ((OAuth.verify s backend m now).run st).2
  | .sweep now => { st with guard := st.guard.map (·.purge now) }

/-- The ticket that is accepted in a step, if there is one. -/
def accepted (s : AuthSettings) (backend : IdentityBackend σ) (st : AuthState σ) :
    Step → List Ticket
  | .verify m now => if accepts s backend m now st then m.ticket?.toList else []
  | .sweep _ => []

end Step

/-- The state after a run. -/
def after (s : AuthSettings) (backend : IdentityBackend σ) (st : AuthState σ)
    (steps : List Step) : AuthState σ :=
  steps.foldl (fun st step => step.next s backend st) st

/-- The tickets that a run accepts, in the order in which they are accepted. -/
def acceptedTickets (s : AuthSettings) (backend : IdentityBackend σ) :
    AuthState σ → List Step → List Ticket
  | _, [] => []
  | st, step :: rest =>
    step.accepted s backend st ++ acceptedTickets s backend (step.next s backend st) rest

/-- The clock of a run never goes backwards. -/
def Chronological (steps : List Step) : Prop :=
  (steps.map Step.now).Pairwise (· ≤ ·)

instance (steps : List Step) : Decidable (Chronological steps) :=
  inferInstanceAs (Decidable (List.Pairwise _ _))

variable {s : AuthSettings} {backend : IdentityBackend σ}

theorem acceptedTickets_append (before rest : List Step) : ∀ st : AuthState σ,
    acceptedTickets s backend st (before ++ rest) =
      acceptedTickets s backend st before ++
        acceptedTickets s backend (after s backend st before) rest := by
  induction before with
  | nil => exact fun _ => rfl
  | cons step before ih =>
    intro st
    show step.accepted s backend st ++
      acceptedTickets s backend (step.next s backend st) (before ++ rest) = _
    rw [ih, ← List.append_assoc]
    rfl

theorem Chronological.of_append_left {before : List Step} (rest : List Step)
    (h : Chronological (before ++ rest)) : Chronological before := by
  unfold Chronological at h ⊢
  rw [List.map_append] at h
  exact (List.pairwise_append.1 h).1

theorem Chronological.le_of_mem (before : List Step) {rest : List Step}
    (h : Chronological (before ++ rest)) {step later : Step} (hstep : step ∈ before)
    (hlater : later ∈ rest) : step.now ≤ later.now := by
  unfold Chronological at h
  rw [List.map_append] at h
  exact (List.pairwise_append.1 h).2.2 _ (List.mem_map_of_mem hstep) _
    (List.mem_map_of_mem hlater)

/-! ## One verification -/

/-- A message is accepted if it passes the screening and the guard admits its ticket. -/
theorem accepts_iff_screen {m : Message} {now : Int} {st : AuthState σ} :
    accepts s backend m now st = true ↔
      ∃ claim record, (screen s backend m now st.identities).1 = .ok (claim, record) ∧
        (admission st.guard claim.ticket now).1 = true := by
  unfold accepts
  constructor
  · intro h
    cases hv : (verify s backend m now).run st with
    | mk outcome st' =>
      cases outcome with
      | error e =>
        rw [hv] at h
        cases h
      | ok p =>
        obtain ⟨claim, record, identities, hs, ha, -⟩ := verify_ok_iff.1 hv
        exact ⟨claim, record, by rw [hs], ha⟩
  · rintro ⟨claim, record, hs, ha⟩
    have hv := verify_ok_iff.2 ⟨claim, record, (screen s backend m now st.identities).2,
      Prod.ext hs rfl, ha, rfl, rfl⟩
    rw [hv]
    rfl

/-- Acceptance with a guard is acceptance without one, and the guard's word. -/
theorem accepts_iff_admission {m : Message} {now : Int} {st : AuthState σ} :
    accepts s backend m now st = true ↔
      accepts s backend m now { st with guard := none } = true ∧
        ∀ t, m.ticket? = some t → (admission st.guard t now).1 = true := by
  rw [accepts_iff_screen, accepts_iff_screen]
  constructor
  · rintro ⟨claim, record, hs, ha⟩
    refine ⟨⟨claim, record, hs, rfl⟩, fun t ht => ?_⟩
    have hclaim := (screen_ok_iff.1 (Prod.ext hs rfl)).1
    rw [Message.ticket?_of_claim hclaim] at ht
    cases ht
    exact ha
  · rintro ⟨⟨claim, record, hs, -⟩, hguard⟩
    have hclaim := (screen_ok_iff.1 (Prod.ext hs rfl)).1
    exact ⟨claim, record, hs, hguard claim.ticket (Message.ticket?_of_claim hclaim)⟩

/-- An accepted message has a ticket, and its timestamp is timely and of 64 bits. -/
theorem exists_ticket_of_accepts {m : Message} {now : Int} {st : AuthState σ}
    (h : accepts s backend m now st = true) :
    ∃ t, m.ticket? = some t ∧ isTimely s.timestampWindow now t.timestamp = true ∧
      Numeral.minSigned ≤ t.timestamp := by
  obtain ⟨claim, record, hs, -⟩ := accepts_iff_screen.1 h
  obtain ⟨hclaim, htimely, -⟩ := screen_ok_iff.1 (Prod.ext hs rfl)
  have hrange := (Message.claim_eq_ok_iff.1 hclaim).timestamp_range
  exact ⟨claim.ticket, Message.ticket?_of_claim hclaim, htimely, hrange.1⟩

/-- The guard after a verification: it was asked if the message passed the screening. -/
theorem guard_verify (backend : IdentityBackend σ) (m : Message) (now : Int) {st : AuthState σ}
    {g : ReplayGuard} (hg : st.guard = some g) :
    (((verify s backend m now).run st).2.guard = some g ∧ accepts s backend m now st = false) ∨
      ∃ t, m.ticket? = some t ∧ accepts s backend m now st = (g.check t now).1 ∧
        ((verify s backend m now).run st).2.guard = some (g.check t now).2 := by
  cases hs : (screen s backend m now st.identities).1 with
  | error e =>
    refine .inl ⟨?_, ?_⟩
    · rw [verify_run, Prod.ext (y := (_, _)) hs rfl]
      exact hg
    · rw [Bool.eq_false_iff]
      intro h
      obtain ⟨claim, record, hok, -⟩ := accepts_iff_screen.1 h
      rw [hs] at hok
      cases hok
  | ok evidence =>
    obtain ⟨claim, record⟩ := evidence
    have hclaim := (screen_ok_iff.1 (Prod.ext hs rfl)).1
    refine .inr ⟨claim.ticket, Message.ticket?_of_claim hclaim, ?_, ?_⟩
    · rw [Bool.eq_iff_iff, accepts_iff_screen, hs, hg]
      constructor
      · rintro ⟨_, _, ⟨⟩, ha⟩
        exact ha
      · exact fun ha => ⟨claim, record, rfl, ha⟩
    · rw [verify_run, Prod.ext (y := (_, _)) hs rfl, hg]
      rfl

/-! ## Runs of any length -/

open ReplayGuard

/-- The guard of a verifier recalls what has been accepted, for the window of the settings. -/
structure Guarding (s : AuthSettings) (accepted : List Ticket) (now : Int) (st : AuthState σ)
    (g : ReplayGuard) : Prop where
  guard : st.guard = some g
  window : g.window = min (s.timestampWindow : Int) Numeral.maxSigned
  recalls : g.Recalls accepted now

theorem Guarding.later {accepted : List Ticket} {now now' : Int} {st : AuthState σ}
    {g : ReplayGuard} (h : Guarding s accepted now st g) (hle : now ≤ now') :
    Guarding s accepted now' st g :=
  ⟨h.guard, h.window, h.recalls.later hle⟩

theorem guarding_guarded (s : AuthSettings) (interval : Nat) (identities : σ) (users : UserCache)
    (now : Int) :
    ∃ g, Guarding s [] now (guarded s interval identities users) g :=
  ⟨_, rfl, rfl, recalls_ofWindow _ _ now⟩

/-- One step keeps the invariant, with the ticket that it accepts added. -/
theorem Guarding.step {accepted : List Ticket} {now : Int} {st : AuthState σ} {g : ReplayGuard}
    (h : Guarding s accepted now st g) (backend : IdentityBackend σ) (step : Step)
    (hle : now ≤ step.now) :
    ∃ g', Guarding s (accepted ++ step.accepted s backend st) step.now
      (step.next s backend st) g' := by
  cases step with
  | sweep at_ =>
    refine ⟨g.purge at_, ?_, h.window, ?_⟩
    · show st.guard.map _ = _
      rw [h.guard]
      rfl
    · simp only [Step.accepted, List.append_nil]
      exact (h.recalls.later hle).purge
  | verify m at_ =>
    rcases guard_verify (s := s) backend m at_ h.guard with
      ⟨hg, hno⟩ | ⟨t, ht, hyes, hg⟩
    · refine ⟨g, hg, h.window, ?_⟩
      simp only [Step.accepted, hno, Bool.false_eq_true, if_false, List.append_nil]
      exact h.recalls.later hle
    · refine ⟨(g.check t at_).2, hg, by rw [check_window, h.window], ?_⟩
      have hrec := h.recalls.check (show now ≤ at_ from hle) t
      intro t' later hlater
      rw [hrec t' later hlater]
      simp only [Step.accepted, hyes, ht]
      cases (g.check t at_).1 with
      | true => simp [or_comm]
      | false => simp

/-- After a run, the guard recalls what the run has accepted. The induction is on the run; the
list of what was accepted before grows with it. -/
theorem guarding_after {steps : List Step} : ∀ {accepted : List Ticket} {now : Int}
    {st : AuthState σ} {g : ReplayGuard}, Guarding s accepted now st g →
    (∀ step ∈ steps, now ≤ step.now) → Chronological steps → ∀ {last : Int}, now ≤ last →
    (∀ step ∈ steps, step.now ≤ last) →
    ∃ g', Guarding s (accepted ++ acceptedTickets s backend st steps) last
      (after s backend st steps) g' := by
  induction steps with
  | nil =>
    intro accepted now st g h _ _ last hlast _
    refine ⟨g, ?_⟩
    simp only [acceptedTickets, List.append_nil]
    exact h.later hlast
  | cons step rest ih =>
    intro accepted now st g h hfrom hchron last _ hto
    have hstep := hfrom step List.mem_cons_self
    obtain ⟨g₁, h₁⟩ := h.step backend step hstep
    have hrest : ∀ later ∈ rest, step.now ≤ later.now := fun later hlater =>
      Chronological.le_of_mem [step] hchron List.mem_cons_self hlater
    obtain ⟨g₂, h₂⟩ := ih h₁ hrest (List.pairwise_cons.1 hchron).2
      (hto step List.mem_cons_self) fun later hlater => hto later (List.mem_cons_of_mem _ hlater)
    rw [List.append_assoc] at h₂
    exact ⟨g₂, h₂⟩

theorem guarding_run (s : AuthSettings) (backend : IdentityBackend σ) (interval : Nat)
    (identities : σ) (users : UserCache) {steps : List Step} (hchron : Chronological steps)
    {last : Int} (hto : ∀ step ∈ steps, step.now ≤ last) :
    ∃ g, Guarding s
      (acceptedTickets s backend (guarded s interval identities users) steps) last
      (after s backend (guarded s interval identities users) steps) g := by
  cases steps with
  | nil => exact guarding_guarded s interval identities users last
  | cons step rest =>
    obtain ⟨g, h⟩ := guarding_guarded s interval identities users step.now
    refine guarding_after h ?_ hchron (hto step List.mem_cons_self) hto
    intro later hlater
    rcases List.mem_cons.1 hlater with rfl | hlater
    · exact Int.le_refl _
    · exact Chronological.le_of_mem [step] hchron List.mem_cons_self hlater

/-- After a run, a message is accepted if nothing but the guard could refuse it, and the guard has
not seen its ticket, or has forgotten it. -/
theorem accepts_iff (s : AuthSettings) (backend : IdentityBackend σ) (interval : Nat)
    (identities : σ) (users : UserCache) {steps : List Step} {m : Message} {now : Int}
    (hchron : Chronological (steps ++ [.verify m now])) :
    let st := after s backend (guarded s interval identities users) steps
    accepts s backend m now st = true ↔
      accepts s backend m now { st with guard := none } = true ∧
        ∀ t, m.ticket? = some t →
          t ∈ acceptedTickets s backend (guarded s interval identities users) steps →
          forgottenAt s.timestampWindow t.timestamp ≤ now := by
  intro st
  have hto : ∀ step ∈ steps, step.now ≤ now := fun step hstep =>
    hchron.le_of_mem steps hstep (List.mem_singleton.2 rfl)
  obtain ⟨g, hg⟩ := guarding_run s backend interval identities users
    (hchron.of_append_left _) hto
  rw [accepts_iff_admission]
  refine and_congr_right fun hopen => ?_
  obtain ⟨t, ht, -, hlow⟩ := exists_ticket_of_accepts hopen
  have hadmission : (admission st.guard t now).1 = true ↔
      (t ∈ acceptedTickets s backend (guarded s interval identities users) steps →
        forgottenAt s.timestampWindow t.timestamp ≤ now) := by
    rw [hg.guard, ← expiry_eq_forgottenAt hg.window hlow]
    exact hg.recalls.check_fst_iff (Int.le_refl now) t
  rw [ht]
  constructor
  · rintro h t' ⟨⟩
    exact hadmission.1 (h t rfl)
  · rintro h t' ⟨⟩
    exact hadmission.2 (h t rfl)

/-! ## At most once -/

/-- A run verifies a message at an instant whose ticket it has accepted before, and which nothing
but the guard could refuse. -/
def Repeats (s : AuthSettings) (backend : IdentityBackend σ) (st : AuthState σ)
    (steps : List Step) (t : Ticket) (now : Int) : Prop :=
  ∃ before m rest, steps = before ++ .verify m now :: rest ∧ m.ticket? = some t ∧
    t ∈ acceptedTickets s backend st before ∧
    accepts s backend m now { after s backend st before with guard := none } = true

theorem Repeats.append {st : AuthState σ} {steps : List Step} {t : Ticket} {now : Int}
    (h : Repeats s backend st steps t now) (more : List Step) :
    Repeats s backend st (steps ++ more) t now := by
  obtain ⟨before, m, rest, rfl, ht, hmem, hopen⟩ := h
  exact ⟨before, m, rest ++ more, by simp, ht, hmem, hopen⟩

/-- A repetition is timely, so it can only come when the guard has forgotten the ticket if it
comes in the last second. -/
theorem Repeats.forgotten_iff {st : AuthState σ} {steps : List Step} {t : Ticket} {now : Int}
    (h : Repeats s backend st steps t now)
    (hw : (s.timestampWindow : Int) ≤ Numeral.maxSigned) (hnow : now ≤ Numeral.maxSigned) :
    forgottenAt s.timestampWindow t.timestamp ≤ now ↔
      now = min (t.timestamp + s.timestampWindow) Numeral.maxSigned := by
  obtain ⟨before, m, rest, -, ht, -, hopen⟩ := h
  obtain ⟨t', ht', htimely, -⟩ := exists_ticket_of_accepts hopen
  rw [ht] at ht'
  cases ht'
  have htimely : (now - t.timestamp).natAbs ≤ s.timestampWindow := by
    simpa [isTimely] using htimely
  have hle : now ≤ min (t.timestamp + s.timestampWindow) Numeral.maxSigned :=
    Int.le_min.2 ⟨by omega, hnow⟩
  rw [forgottenAt, Int.min_eq_left hw]
  exact ⟨fun h => Int.le_antisymm hle h, fun h => Int.le_of_eq h.symm⟩

/-- A verifier with a guard for its own window accepts no ticket twice, except for repetitions
that come when the guard has forgotten the ticket. That is so early only in the last second in
which the timestamp is timely. -/
theorem acceptedTickets_nodup_iff (s : AuthSettings) (backend : IdentityBackend σ)
    (interval : Nat) (identities : σ) (users : UserCache) {steps : List Step}
    (hclock : Chronological steps) :
    ((acceptedTickets s backend (guarded s interval identities users) steps).Nodup ↔
      ∀ t now, Repeats s backend (guarded s interval identities users) steps t now →
        now < forgottenAt s.timestampWindow t.timestamp) ∧
    ∀ t now, Repeats s backend (guarded s interval identities users) steps t now →
      (s.timestampWindow : Int) ≤ Numeral.maxSigned → now ≤ Numeral.maxSigned →
      (forgottenAt s.timestampWindow t.timestamp ≤ now ↔
        now = min (t.timestamp + s.timestampWindow) Numeral.maxSigned) := by
  refine ⟨⟨?_, ?_⟩, fun t now h => h.forgotten_iff⟩
  · rintro hnodup t now ⟨before, m, rest, rfl, ht, hmem, hopen⟩
    -- a repetition that comes when the ticket is forgotten would be accepted again
    by_contra hforgotten
    have hchron : Chronological (before ++ [.verify m now]) :=
      Chronological.of_append_left rest (by simpa using hclock)
    have hold : ∀ t', m.ticket? = some t' →
        t' ∈ acceptedTickets s backend (guarded s interval identities users) before →
        forgottenAt s.timestampWindow t'.timestamp ≤ now := by
      intro t' ht' _
      rw [ht] at ht'
      cases ht'
      exact Int.not_lt.1 hforgotten
    have hyes := (accepts_iff s backend interval identities users hchron).2 ⟨hopen, hold⟩
    rw [acceptedTickets_append] at hnodup
    refine (List.nodup_append.1 hnodup).2.2 t hmem t ?_ rfl
    simp [acceptedTickets, Step.accepted, hyes, ht]
  · intro h
    -- from the end of the run, for what its last step does depends on all that was accepted before
    induction steps using List.reverseRecOn with
    | nil => exact List.nodup_nil
    | append_singleton steps step ih =>
      have hsteps := ih (hclock.of_append_left _) fun t now hr => h t now (hr.append [step])
      rw [acceptedTickets_append]
      cases step with
      | sweep now => simpa [acceptedTickets, Step.accepted] using hsteps
      | verify m now =>
        by_cases hyes : accepts s backend m now
            (after s backend (guarded s interval identities users) steps) = true
        · obtain ⟨t, ht, -⟩ := exists_ticket_of_accepts hyes
          obtain ⟨hopen, hold⟩ := (accepts_iff s backend interval identities users hclock).1 hyes
          have hfresh : t ∉ acceptedTickets s backend
              (guarded s interval identities users) steps := fun hmem =>
            Int.not_lt.2 (hold t ht hmem) (h t now ⟨steps, m, [], rfl, ht, hmem, hopen⟩)
          simpa [acceptedTickets, Step.accepted, hyes, ht, List.nodup_append] using
            ⟨hsteps, fun a ha heq => hfresh (heq ▸ ha)⟩
        · simpa [acceptedTickets, Step.accepted, hyes] using hsteps

/-! ## The last second -/

namespace Sample

/-- Settings with a window of five minutes. -/
def settings : AuthSettings where
  realm := "R"
  serverKey := "k"
  nonceValidity := 300000
  passwordAlreadyEncoded := false
  timestampWindow := 300
  publicUrl := none
  signer := .md5

/-- A new verifier that knows consumer `c` with secret `s`. -/
def start : AuthState Registry :=
  guarded settings ReplayGuard.defaultPurgeInterval
    (.ofDirectory (Directory.empty.withConsumer ⟨"c", "s", []⟩)) .off

end Sample

namespace LastSecond

/-- A request of the consumer, signed with its secret at second 1000. -/
def request : Message :=
  ⟨"GET", "http://h/", [⟨"oauth_consumer_key", "c"⟩, ⟨"oauth_signature_method", "PLAINTEXT"⟩,
    ⟨"oauth_timestamp", "1000"⟩, ⟨"oauth_nonce", "n"⟩, ⟨"oauth_signature", "s&"⟩]⟩

/-- The ticket of the request. -/
def ticket : Ticket :=
  ⟨"c", "n", 1000⟩

/-- The request is sent three times: at once, a second before the window ends, and in the last
second of the window. -/
def run : List Step :=
  [.verify request 1000, .verify request 1299, .verify request 1300]

end LastSecond

/-- As long as the window lasts for more than a second, repetitions are refused. -/
theorem acceptedTickets_early :
    Chronological (LastSecond.run.take 2) ∧
      ∀ t now, Repeats Sample.settings Registry.backend Sample.start
        (LastSecond.run.take 2) t now → now < forgottenAt 300 t.timestamp :=
  ⟨by decide,
    (acceptedTickets_nodup_iff Sample.settings Registry.backend
      ReplayGuard.defaultPurgeInterval _ .off (by decide)).1.1 (by decide +kernel)⟩

/-- The law that each ticket is accepted at most once fails in the last second of the window: of
the three times, the request is accepted the first and the last time. -/
theorem acceptedTickets_lastSecond :
    Chronological LastSecond.run ∧
      acceptedTickets Sample.settings Registry.backend Sample.start LastSecond.run =
        [LastSecond.ticket, LastSecond.ticket] ∧
      ¬ (acceptedTickets Sample.settings Registry.backend Sample.start
        LastSecond.run).Nodup := by
  decide +kernel

end Gatehouse.OAuth
