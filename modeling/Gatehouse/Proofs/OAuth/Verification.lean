import Gatehouse.OAuth.Verification
import Gatehouse.Proofs.Computation
import Gatehouse.Proofs.OAuth.ReplayGuard

/-!
# The two stages of OAuth verification

Verification asks for nine things in turn, but as a change of the state it has two stages only.
`screen` looks at the message, the clock and the consumer's record, and touches nothing but the
identities; `admission` leaves the last word to the replay guard. `verify_run` says that
verification is the one after the other, and laws about verification are derived from it.

- `verify_run`: verification in one equation.
- `verify_ok_iff`: when a message is accepted, and what the state is then.
- `screen_ok_iff`: what a message must satisfy to reach the guard.
-/

namespace Gatehouse.OAuth

variable {σ : Type} {s : AuthSettings} {backend : IdentityBackend σ} {m : Message} {now : Int}

/-- What makes a signed message unique. -/
def Claim.ticket (c : Claim) : Ticket :=
  ⟨c.consumer, c.nonce, c.timestamp⟩

/-- The ticket of a message that makes a claim. -/
def Message.ticket? (m : Message) : Option Ticket :=
  match m.claim with
  | .ok claim => some claim.ticket
  | .error _ => none

theorem Message.ticket?_of_claim {claim : Claim} (h : m.claim = .ok claim) :
    m.ticket? = some claim.ticket := by
  simp [ticket?, h]

/-- Everything that is checked before the guard is asked: the claim of the message and the record
of its consumer, with the identities after the look-up. -/
def screen (s : AuthSettings) (backend : IdentityBackend σ) (m : Message) (now : Int)
    (identities : σ) : Except AuthError (Claim × ConsumerRecord) × σ :=
  match m.claim with
  | .error e => (.error e, identities)
  | .ok claim =>
    if isTimely s.timestampWindow now claim.timestamp then
      match (backend.lookupConsumer claim.consumer).run identities with
      | (.error e, identities) => (.error (consumerError e), identities)
      | (.ok record, identities) =>
        ((checkSignature m claim record).map fun _ => (claim, record), identities)
    else (.error (.timestampRefused claim.timestamp now), identities)

/-- The guard's word on a ticket. Without a guard every ticket is admitted. -/
def admission (guard : Option ReplayGuard) (t : Ticket) (now : Int) : Bool × Option ReplayGuard :=
  match guard with
  | none => (true, none)
  | some g => ((g.check t now).1, some (g.check t now).2)

/-- The principal that a consumer becomes. -/
def principalOf (record : ConsumerRecord) : Principal :=
  ⟨record.key, .oauth, record.authorities⟩

/-- A guard that refuses a ticket is left as it was. -/
theorem admission_of_refused {guard : Option ReplayGuard} {t : Ticket}
    (h : (admission guard t now).1 = false) : (admission guard t now).2 = guard := by
  cases guard with
  | none => rfl
  | some g => exact congrArg some (ReplayGuard.check_of_refused h)

/-- A guard that lets a ticket pass has admitted it. -/
theorem admission_of_admitted {guard : Option ReplayGuard} {t : Ticket}
    (h : (admission guard t now).1 = true) :
    Option.Rel (fun g g' => g.Admits t now g') guard (admission guard t now).2 := by
  cases guard with
  | none => exact .none
  | some g => exact .some (ReplayGuard.admits_check h)

/-! ## Verification in one equation -/

theorem findConsumer_run (key : String) (st : AuthState σ) :
    (findConsumer backend key).run st =
      match (backend.lookupConsumer key).run st.identities with
      | (.error e, identities) => (.error (consumerError e), { st with identities })
      | (.ok record, identities) => (.ok record, { st with identities }) := by
  cases h : (backend.lookupConsumer key).run st.identities with
  | mk answer identities =>
    rw [findConsumer, run_bind_of_ok (Verification.ofBackend_run _ _), h]
    cases answer with
    | ok record => rfl
    | error e => rfl

theorem passGuard_run (t : Ticket) (st : AuthState σ) :
    (passGuard t now).run st =
      (.ok (admission st.guard t now).1, { st with guard := (admission st.guard t now).2 }) := by
  obtain ⟨identities, users, guard⟩ := st
  cases guard with
  | none => rfl
  | some g => rfl

/-- The last stage: the guard's word decides. -/
theorem guarded_run (t : Ticket) (p : Principal) (st : AuthState σ) :
    ((do if ← passGuard t now then return p else throw .nonceReplayed :
        Verification σ Principal)).run st =
      (if (admission st.guard t now).1 then .ok p else .error .nonceReplayed,
        { st with guard := (admission st.guard t now).2 }) := by
  rw [run_bind_of_ok (passGuard_run t st)]
  cases (admission st.guard t now).1 with
  | true => rfl
  | false => rfl

/-- The stages after the timestamp: the consumer, the signature and the guard. -/
theorem timely_run (claim : Claim) (st : AuthState σ) :
    ((do
        let consumer ← findConsumer backend claim.consumer
        (checkSignature m claim consumer : Except AuthError Unit)
        if ← passGuard claim.ticket now then return principalOf consumer
        else throw .nonceReplayed : Verification σ Principal)).run st =
      match (backend.lookupConsumer claim.consumer).run st.identities with
      | (.error e, identities) => (.error (consumerError e), { st with identities })
      | (.ok record, identities) =>
        match checkSignature m claim record with
        | .error e => (.error e, { st with identities })
        | .ok _ =>
          (if (admission st.guard claim.ticket now).1 then .ok (principalOf record)
            else .error .nonceReplayed,
            { st with identities, guard := (admission st.guard claim.ticket now).2 }) := by
  cases hl : (backend.lookupConsumer claim.consumer).run st.identities with
  | mk answer identities =>
    cases answer with
    | error e => rw [run_bind_of_error (by rw [findConsumer_run, hl])]
    | ok record =>
      rw [run_bind_of_ok (by rw [findConsumer_run, hl])]
      dsimp only
      cases checkSignature m claim record with
      | error e => rw [run_bind_of_error (run_check _ _)]
      | ok _ =>
        rw [run_bind_of_ok (run_check _ _)]
        exact guarded_run claim.ticket (principalOf record) { st with identities }

/-- Verification is the screening of the message and then the guard. -/
theorem verify_run (s : AuthSettings) (backend : IdentityBackend σ) (m : Message) (now : Int)
    (st : AuthState σ) :
    (verify s backend m now).run st =
      match screen s backend m now st.identities with
      | (.error e, identities) => (.error e, { st with identities })
      | (.ok (claim, record), identities) =>
        (if (admission st.guard claim.ticket now).1 then .ok (principalOf record)
          else .error .nonceReplayed,
          { st with identities, guard := (admission st.guard claim.ticket now).2 }) := by
  -- both sides branch on the same four things, in the same order
  unfold screen
  cases hc : m.claim with
  | error e => rw [verify, run_bind_of_error (by rw [run_check, hc])]
  | ok claim =>
    rw [verify, run_bind_of_ok (by rw [run_check, hc])]
    by_cases ht : isTimely s.timestampWindow now claim.timestamp = true
    · simp only [ht, if_true]
      refine (timely_run claim st).trans ?_
      cases (backend.lookupConsumer claim.consumer).run st.identities with
      | mk answer identities =>
        cases answer with
        | error e => rfl
        | ok record =>
          dsimp only
          cases checkSignature m claim record with
          | error e => rfl
          | ok _ => rfl
    · simp only [ht, Bool.false_eq_true, if_false]
      rfl

/-- Verification of signed messages has no use for the user cache. -/
theorem users_of_verify (s : AuthSettings) (backend : IdentityBackend σ) (m : Message) (now : Int)
    (st : AuthState σ) : ((verify s backend m now).run st).2.users = st.users := by
  rw [verify_run]
  cases screen s backend m now st.identities with
  | mk screened identities =>
    cases screened with
    | error e => rfl
    | ok evidence => rfl

/-! ## Acceptance -/

/-- A message reaches the guard if it makes a claim, is in time, and is signed with the secret of
the consumer that it names. -/
theorem screen_ok_iff {identities identities' : σ} {claim : Claim} {record : ConsumerRecord} :
    screen s backend m now identities = (.ok (claim, record), identities') ↔
      m.claim = .ok claim ∧ isTimely s.timestampWindow now claim.timestamp = true ∧
      (backend.lookupConsumer claim.consumer).run identities = (.ok record, identities') ∧
      checkSignature m claim record = .ok () := by
  unfold screen
  cases m.claim with
  | error e => simp
  | ok claim' =>
    by_cases ht : isTimely s.timestampWindow now claim'.timestamp = true
    · simp only [ht, if_true]
      cases hl : (backend.lookupConsumer claim'.consumer).run identities with
      | mk answer found =>
        cases answer with
        | error e =>
          constructor
          · intro h
            cases h
          · rintro ⟨⟨⟩, -, h, -⟩
            rw [hl] at h
            cases h
        | ok record' =>
          constructor
          · intro h
            cases hs : checkSignature m claim' record' with
            | error e =>
              simp [hs, Except.map] at h
            | ok _ =>
              simp only [hs, Except.map, Prod.mk.injEq, Except.ok.injEq] at h
              obtain ⟨⟨rfl, rfl⟩, rfl⟩ := h
              exact ⟨rfl, ht, hl, hs⟩
          · rintro ⟨⟨⟩, -, h, hs⟩
            rw [hl] at h
            cases h
            simp [hs, Except.map]
    · simp only [ht, Bool.false_eq_true, if_false]
      constructor
      · intro h
        cases h
      · rintro ⟨⟨⟩, h, -⟩
        exact absurd h ht

/-- A message is accepted if it reaches the guard and its ticket is admitted. -/
theorem verify_ok_iff {st st' : AuthState σ} {p : Principal} :
    (verify s backend m now).run st = (.ok p, st') ↔
      ∃ claim record identities,
        screen s backend m now st.identities = (.ok (claim, record), identities) ∧
        (admission st.guard claim.ticket now).1 = true ∧ p = principalOf record ∧
        st' = { st with identities, guard := (admission st.guard claim.ticket now).2 } := by
  rw [verify_run]
  cases hs : screen s backend m now st.identities with
  | mk outcome identities =>
    cases outcome with
    | error e =>
      constructor
      · intro h
        cases h
      · rintro ⟨_, _, _, ⟨⟩, -⟩
    | ok evidence =>
      obtain ⟨claim, record⟩ := evidence
      constructor
      · intro h
        by_cases ha : (admission st.guard claim.ticket now).1 = true
        · simp only [ha, if_true] at h
          cases h
          exact ⟨claim, record, identities, rfl, ha, rfl, rfl⟩
        · simp only [ha, Bool.false_eq_true, if_false] at h
          cases h
      · rintro ⟨claim', record', identities', ⟨⟩, ha, rfl, rfl⟩
        simp only [ha, if_true]

end Gatehouse.OAuth
