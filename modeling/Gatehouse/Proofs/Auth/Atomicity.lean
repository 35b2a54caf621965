import Gatehouse.Proofs.Auth.Likeness
import Gatehouse.Proofs.Auth.SignedAddress
import Gatehouse.Proofs.Digest.Verification

/-!
# Failed attempts leave no trace

Verification asks the guard last. A request that is refused for any other reason has not been
recorded, and one that the guard refuses is not recorded either; so nobody can use up a ticket
without the secret that it takes to be accepted. What is left of a failed attempt is that the
backend was asked. If the backend keeps to its answers, this cannot be noticed, and the attempt
might as well not have been made.

- `guard_of_failed`, `guard_of_digest`, `guard_of_accepted`: the guard after one attempt.
- `Event`, `trace`: runs of a gateway's authentication, with what comes of each event.
- `LeavesOut`: a trace without some of the failed OAuth attempts.
- `trace_of_leavesOut`: the events that are left have the same outcomes in a run of their own.
- `failed_attempts_leave_no_trace`: all of this in one statement.
-/

namespace Gatehouse.Authentication

open OAuth

variable {σ : Type} {s : AuthSettings} {backend : IdentityBackend σ} {st st' : AuthState σ}

/-! ## The guard after one attempt -/

/-- The guard is as it was after a message that was refused. -/
theorem guard_of_refused {m : Message} {now : Int} {e : AuthError}
    (h : (OAuth.verify s backend m now).run st = (.error e, st')) : st'.guard = st.guard := by
  rw [verify_run] at h
  cases hscreen : screen s backend m now st.identities with
  | mk screened identities =>
    rw [hscreen] at h
    cases screened with
    | error e' =>
      cases h
      rfl
    | ok evidence =>
      obtain ⟨claim, record⟩ := evidence
      dsimp only at h
      cases hadmitted : (admission st.guard claim.ticket now).1 with
      | true =>
        rw [hadmitted] at h
        cases h
      | false =>
        rw [hadmitted] at h
        cases h
        exact admission_of_refused hadmitted

/-- The guard after a message that was accepted has admitted its ticket. -/
theorem guard_of_verified {m : Message} {now : Int} {p : Principal}
    (h : (OAuth.verify s backend m now).run st = (.ok p, st')) :
    ∃ t, m.ticket? = some t ∧ Option.Rel (fun g g' => g.Admits t now g') st.guard st'.guard := by
  obtain ⟨claim, record, identities, hscreen, hadmitted, -, rfl⟩ := verify_ok_iff.1 h
  have hclaim := (screen_ok_iff.1 hscreen).1
  exact ⟨claim.ticket, Message.ticket?_of_claim hclaim, admission_of_admitted hadmitted⟩

/-- Digest verification does not touch the guard. -/
theorem guard_of_digest (s : AuthSettings) (backend : IdentityBackend σ) (method header : String)
    (now : Moment) (st : AuthState σ) :
    ((Digest.verify s backend method header now).run st).2.guard = st.guard := by
  cases hscreen : Digest.screen s header with
  | error e => rw [Digest.verify_run_of_rejected hscreen]
  | ok screened =>
    obtain ⟨c, nonce⟩ := screened
    obtain ⟨outcome, loads, st', hcheck⟩ :=
      Digest.exists_passwordCheck s backend c method now.tick st
    rw [Digest.verify_run_of_screened hscreen hcheck]
    cases hcheck with
    | cached => rfl
    | loaded => rfl
    | refused => rfl
    | failed => rfl

/-- The guard is as it was after a request that was not authenticated. -/
theorem guard_of_failed {r : Request} {now : Moment} {e : AuthError}
    (h : (authenticate s backend r now).run st = (.error e, st')) : st'.guard = st.guard := by
  cases hattempt : attempt s r with
  | error e' =>
    rw [authenticate_run_of_error hattempt] at h
    cases h
    rfl
  | ok attempted =>
    cases attempted with
    | digest header =>
      rw [authenticate_run_digest hattempt] at h
      have hguard := guard_of_digest s backend r.method header now st
      rwa [h] at hguard
    | oauth m =>
      rw [authenticate_run_oauth hattempt] at h
      exact guard_of_refused h

/-! ## Runs -/

/-- What happens to authentication: a request, a message that is verified by itself, or a sweep of
the guard. -/
inductive Event where
  | request (r : Request) (now : Moment)
  | message (m : Message) (now : Int)
  | sweep (now : Int)
deriving DecidableEq, Repr

/-- What comes of an event: a verdict, or the number of tickets that are forgotten. -/
inductive Outcome where
  | verdict (v : Except AuthError Principal)
  | swept (count : Nat)
deriving DecidableEq

/-- An event takes place. -/
def Event.run (s : AuthSettings) (backend : IdentityBackend σ) (st : AuthState σ) :
    Event → Outcome × AuthState σ
  | .request r now =>
    let (v, st) := (authenticate s backend r now).run st
    (.verdict v, st)
  | .message m now =>
    let (v, st) := (OAuth.verify s backend m now).run st
    (.verdict v, st)
  | .sweep now =>
    (.swept ((st.guard.map (·.expiredCount now)).getD 0),
      { st with guard := st.guard.map (·.purge now) })

/-- The events of a run, and what comes of each. -/
def trace (s : AuthSettings) (backend : IdentityBackend σ) :
    AuthState σ → List Event → List (Event × Outcome)
  | _, [] => []
  | st, event :: rest =>
    (event, (event.run s backend st).1) :: trace s backend (event.run s backend st).2 rest

/-- A failed attempt that is not of the Digest scheme. -/
inductive Failed (s : AuthSettings) : Event × Outcome → Prop where
  | request {r : Request} {now : Moment} {e : AuthError}
    (h : ∀ header, attempt s r ≠ .ok (.digest header)) :
    Failed s (.request r now, .verdict (.error e))
  | message {m : Message} {now : Int} {e : AuthError} :
    Failed s (.message m now, .verdict (.error e))

/-- A trace without some of its failed attempts. -/
inductive LeavesOut (s : AuthSettings) :
    List (Event × Outcome) → List (Event × Outcome) → Prop where
  | nil : LeavesOut s [] []
  | keep {all kept : List (Event × Outcome)} (x : Event × Outcome) (h : LeavesOut s all kept) :
    LeavesOut s (x :: all) (x :: kept)
  | drop {all kept : List (Event × Outcome)} {x : Event × Outcome} (hx : Failed s x)
    (h : LeavesOut s all kept) : LeavesOut s (x :: all) kept

/-! ## One event -/

variable {I : σ → Prop}

/-- An event has the same outcome in states that are alike, and leads to such states again. -/
theorem Event.run_alike (h : backend.Settles I) (event : Event) (halike : Alike I st st') :
    (event.run s backend st).1 = (event.run s backend st').1 ∧
      Alike I (event.run s backend st).2 (event.run s backend st').2 := by
  cases event with
  | request r now =>
    obtain ⟨hverdict, hnext⟩ := insensitive_authenticate h s r now st st' halike
    exact ⟨congrArg Outcome.verdict hverdict, hnext⟩
  | message m now =>
    obtain ⟨hverdict, hnext⟩ := insensitive_oauth h s m now st st' halike
    exact ⟨congrArg Outcome.verdict hverdict, hnext⟩
  | sweep now =>
    refine ⟨?_, halike.users, ?_, halike.left, halike.right⟩
    · exact congrArg (fun guard : Option ReplayGuard =>
        Outcome.swept ((guard.map (·.expiredCount now)).getD 0)) halike.guard
    · exact congrArg (Option.map (·.purge now)) halike.guard

/-- A message that is refused leads to a state that is like the one before. -/
theorem alike_of_refused (h : backend.Settles I) {m : Message} {now : Int} {e : AuthError}
    (hrun : (OAuth.verify s backend m now).run st = (.error e, st')) (hst : I st.identities) :
    Alike I st' st where
  users := by
    have husers := users_of_verify s backend m now st
    rwa [hrun] at husers
  guard := guard_of_refused hrun
  left := by
    have hstays := (insensitive_oauth h s m now st st (.refl hst)).2.left
    rwa [hrun] at hstays
  right := hst

/-- So does every failed attempt that is not of the Digest scheme. -/
theorem Failed.alike (h : backend.Settles I) {event : Event}
    (hfailed : Failed s (event, (event.run s backend st).1)) (hst : I st.identities) :
    Alike I (event.run s backend st).2 st := by
  cases event with
  | sweep now => cases hfailed
  | message m now =>
    cases hrun : (OAuth.verify s backend m now).run st with
    | mk verdict st' =>
      simp only [Event.run, hrun] at hfailed ⊢
      cases hfailed
      exact alike_of_refused h hrun hst
  | request r now =>
    cases hrun : (authenticate s backend r now).run st with
    | mk verdict st' =>
      simp only [Event.run, hrun] at hfailed ⊢
      cases hfailed with
      | request hscheme =>
        cases hattempt : attempt s r with
        | error e =>
          rw [authenticate_run_of_error hattempt] at hrun
          cases hrun
          exact .refl hst
        | ok attempted =>
          cases attempted with
          | digest header => exact absurd hattempt (hscheme header)
          | oauth m =>
            rw [authenticate_run_oauth hattempt] at hrun
            exact alike_of_refused h hrun hst

/-! ## Runs of any length -/

/-- If some failed attempts are left out, then the run of the other events has the same outcomes.
The induction is on the events; the two runs are in states that are alike. -/
theorem trace_of_leavesOut (h : backend.Settles I) {events : List Event} :
    ∀ {st st' : AuthState σ} {kept : List (Event × Outcome)}, Alike I st st' →
      LeavesOut s (trace s backend st events) kept →
      trace s backend st' (kept.map Prod.fst) = kept := by
  induction events with
  | nil =>
    intro st st' kept _ hleft
    cases hleft
    rfl
  | cons event rest ih =>
    intro st st' kept halike hleft
    cases hleft with
    | keep _ hrest =>
      obtain ⟨hsame, hnext⟩ := event.run_alike h halike
      rw [List.map_cons, trace, ← hsame, ih hnext hrest]
    | drop hfailed hrest =>
      -- only the first run goes on, to a state like the one that both are in
      have hback := hfailed.alike h halike.left
      have hnext : Alike I (event.run s backend st).2 st' :=
        ⟨hback.users.trans halike.users, hback.guard.trans halike.guard, hback.left, halike.right⟩
      exact ih hnext hrest

/-! ## The result -/

/-- A failed attempt leaves the guard as it was, whatever the reason, and a Digest attempt does so
in any case. An OAuth attempt that succeeds has its ticket admitted. So if the backend keeps to its
answers, failed OAuth attempts can be left out of a run without a change to any other outcome. -/
theorem failed_attempts_leave_no_trace (s : AuthSettings) (backend : IdentityBackend σ) :
    (∀ r now st st' e, (authenticate s backend r now).run st = (.error e, st') →
      st'.guard = st.guard) ∧
    (∀ m now st st' e, (OAuth.verify s backend m now).run st = (.error e, st') →
      st'.guard = st.guard) ∧
    (∀ r header now st, attempt s r = .ok (.digest header) →
      ((authenticate s backend r now).run st).2.guard = st.guard) ∧
    (∀ r m now st st' p, attempt s r = .ok (.oauth m) →
      (authenticate s backend r now).run st = (.ok p, st') →
      ∃ t, m.ticket? = some t ∧
        Option.Rel (fun g g' => g.Admits t (now.epochMs.tdiv 1000) g') st.guard st'.guard) ∧
    (∀ m now st st' p, (OAuth.verify s backend m now).run st = (.ok p, st') →
      ∃ t, m.ticket? = some t ∧
        Option.Rel (fun g g' => g.Admits t now g') st.guard st'.guard) ∧
    (∀ I : σ → Prop, backend.Settles I → ∀ st events kept, I st.identities →
      LeavesOut s (trace s backend st events) kept →
      trace s backend st (kept.map Prod.fst) = kept) := by
  refine ⟨fun r now st st' e => guard_of_failed, fun m now st st' e => guard_of_refused, ?digest,
    ?request, fun m now st st' p => guard_of_verified, ?run⟩
  case digest =>
    intro r header now st hattempt
    rw [authenticate_run_digest hattempt]
    exact guard_of_digest s backend r.method header now st
  case request =>
    intro r m now st st' p hattempt h
    rw [authenticate_run_oauth hattempt] at h
    exact guard_of_verified h
  case run =>
    intro I h st events kept hst hleft
    exact trace_of_leavesOut h (.refl hst) hleft

/-! ## A forged message -/

namespace Sample

/-- A message with the ticket of another one, from someone who does not know the secret. -/
def forged : Message :=
  ⟨"GET", "http://h/", [⟨"oauth_consumer_key", "c"⟩, ⟨"oauth_signature_method", "PLAINTEXT"⟩,
    ⟨"oauth_timestamp", "1000"⟩, ⟨"oauth_nonce", "n"⟩, ⟨"oauth_signature", "guess&"⟩]⟩

/-- The forged message comes first, then the one with the right signature, twice. -/
def contest : List Event :=
  [.message forged 1000, .message LastSecond.request 1000, .message LastSecond.request 1100]

/-- What comes of the message with the right signature. -/
def accepted : List (Event × Outcome) :=
  [(.message LastSecond.request 1000, .verdict (.ok ⟨"c", .oauth, []⟩))]

/-- A registry keeps to its answers as long as its records stay and there is no outage. -/
theorem settles_registry (contents : Directory) :
    Registry.backend.Settles fun i : Registry => i.contents = contents ∧ i.outage = none where
  loadUser name := by
    refine ⟨contents.user name, ?_⟩
    rintro ⟨_, _, calls⟩ ⟨rfl, rfl⟩
    exact ⟨rfl, rfl, rfl⟩
  lookupConsumer key := by
    refine ⟨contents.consumer key, ?_⟩
    rintro ⟨_, _, calls⟩ ⟨rfl, rfl⟩
    exact ⟨rfl, rfl, rfl⟩

theorem trace_contest :
    trace OAuth.Sample.settings Registry.backend OAuth.Sample.start contest =
      (.message forged 1000, .verdict (.error .credentialMismatch)) :: accepted ++
        [(.message LastSecond.request 1100, .verdict (.error .nonceReplayed))] := by
  decide +kernel

end Sample

/-- A forged message does not use up the ticket: the outcomes of the right message are the same
with and without the forged one, and its repetition can be left out just as well. -/
theorem forgery_leaves_no_trace :
    trace OAuth.Sample.settings Registry.backend OAuth.Sample.start
      [.message LastSecond.request 1000] = Sample.accepted := by
  obtain ⟨-, -, -, -, -, hrun⟩ :=
    failed_attempts_leave_no_trace OAuth.Sample.settings Registry.backend
  refine hrun _ (Sample.settles_registry OAuth.Sample.start.identities.contents) _ Sample.contest
    Sample.accepted ⟨rfl, rfl⟩ ?_
  rw [Sample.trace_contest]
  exact .drop .message (.keep _ (.drop .message .nil))

end Gatehouse.Authentication
