import Gatehouse.Auth.Authentication
import Gatehouse.Proofs.OAuth.Verification

/-!
# States that cannot be told apart

Verification sees the identities through the answers of the backend only. So if these answers do
not change any more, it does not matter how often the backend was asked before: two states with
the same users and the same guard lead to the same outcome, and to two such states again.

The law is shown for the building blocks of verification, and for everything that is composed of
them.

- `Settled`, `IdentityBackend.Settles`: questions and backends with fixed answers.
- `Alike`: states that differ at most in their identities.
- `Insensitive`: computations that cannot tell such states apart.
- `insensitive_authenticate`: authentication is one of them.
-/

namespace Gatehouse

variable {σ α β : Type}

/-- A question that has one answer in all states of a set, and that does not lead out of it. -/
def Settled (I : σ → Prop) (ask : StateM σ α) : Prop :=
  ∃ answer, ∀ i, I i → (ask.run i).1 = answer ∧ I (ask.run i).2

/-- A backend that keeps to its answers. -/
structure IdentityBackend.Settles (backend : IdentityBackend σ) (I : σ → Prop) : Prop where
  loadUser : ∀ name, Settled I (backend.loadUser name)
  lookupConsumer : ∀ key, Settled I (backend.lookupConsumer key)

/-- Two states with the same users and the same guard, and with identities of a set. -/
structure Alike (I : σ → Prop) (st st' : AuthState σ) : Prop where
  users : st.users = st'.users
  guard : st.guard = st'.guard
  left : I st.identities
  right : I st'.identities

/-- A computation that cannot tell such states apart. -/
def Insensitive (I : σ → Prop) (x : Verification σ α) : Prop :=
  ∀ st st', Alike I st st' →
    (x.run st).1 = (x.run st').1 ∧ Alike I (x.run st).2 (x.run st').2

variable {I : σ → Prop}

theorem Settled.answer_eq {ask : StateM σ α} (h : Settled I ask) {i j : σ} (hi : I i)
    (hj : I j) : (ask.run i).1 = (ask.run j).1 := by
  obtain ⟨answer, hanswer⟩ := h
  rw [(hanswer i hi).1, (hanswer j hj).1]

theorem Settled.stays {ask : StateM σ α} (h : Settled I ask) {i : σ} (hi : I i) :
    I (ask.run i).2 := by
  obtain ⟨answer, hanswer⟩ := h
  exact (hanswer i hi).2

theorem Alike.refl {st : AuthState σ} (h : I st.identities) : Alike I st st :=
  ⟨rfl, rfl, h, h⟩

/-! ## Building blocks -/

/-- Whatever has an outcome without looking at the state, and leaves it as it is. -/
theorem insensitive_of_run {x : Verification σ α} {outcome : Except AuthError α}
    (h : ∀ st, x.run st = (outcome, st)) : Insensitive I x := by
  intro st st' halike
  rw [h, h]
  exact ⟨rfl, halike⟩

theorem insensitive_pure (a : α) : Insensitive I (pure a : Verification σ α) :=
  insensitive_of_run fun _ => rfl

theorem insensitive_throw (e : AuthError) : Insensitive I (throw e : Verification σ α) :=
  insensitive_of_run fun _ => rfl

theorem insensitive_check (x : Except AuthError α) :
    Insensitive I (liftM x : Verification σ α) :=
  insensitive_of_run (run_check x)

theorem Insensitive.bind {x : Verification σ α} {f : α → Verification σ β}
    (hx : Insensitive I x) (hf : ∀ a, Insensitive I (f a)) : Insensitive I (x >>= f) := by
  intro st st' halike
  obtain ⟨houtcome, hnext⟩ := hx st st' halike
  rw [run_bind, run_bind]
  -- the second parts start in states that are alike again, or do not start in either run
  cases hrun : x.run st with
  | mk outcome next =>
    cases hrun' : x.run st' with
    | mk outcome' next' =>
      rw [hrun, hrun'] at houtcome hnext
      dsimp only at houtcome
      subst houtcome
      cases outcome with
      | ok a => exact hf a next next' hnext
      | error e => exact ⟨rfl, hnext⟩

theorem insensitive_ofBackend {ask : StateM σ α} (h : Settled I ask) :
    Insensitive I (Verification.ofBackend ask) := by
  intro st st' halike
  rw [Verification.ofBackend_run, Verification.ofBackend_run]
  exact ⟨congrArg Except.ok (h.answer_eq halike.left halike.right),
    halike.users, halike.guard, h.stays halike.left, h.stays halike.right⟩

theorem insensitive_ofCache (use : UserCache → α × UserCache) :
    Insensitive I (Verification.ofCache use) := by
  intro st st' halike
  rw [Verification.ofCache_run, Verification.ofCache_run, halike.users]
  exact ⟨rfl, rfl, halike.guard, halike.left, halike.right⟩

/-! ## Verification -/

variable {backend : IdentityBackend σ}

theorem insensitive_loadUser (h : backend.Settles I) (name : String) (tick : Instant) :
    Insensitive I (Digest.loadUser backend name tick) := by
  refine (insensitive_ofBackend (h.loadUser name)).bind fun answer => ?_
  cases answer with
  | error e => exact insensitive_throw _
  | ok record => exact (insensitive_ofCache _).bind fun _ => insensitive_pure record

theorem insensitive_findUser (h : backend.Settles I) (name : String) (tick : Instant) :
    Insensitive I (Digest.findUser backend name tick) := by
  refine (insensitive_ofCache _).bind fun cached => ?_
  cases cached with
  | some record => exact insensitive_pure _
  | none => exact (insensitive_loadUser h name tick).bind fun _ => insensitive_pure _

theorem insensitive_provenRecord (h : backend.Settles I) (s : AuthSettings)
    (c : Digest.Credentials) (method : String) (tick : Instant) :
    Insensitive I (Digest.provenRecord s backend c method tick) := by
  refine (insensitive_findUser h c.username tick).bind fun ⟨record, fromCache⟩ => ?_
  refine (insensitive_check _).bind fun isProven => ?_
  cases isProven with
  | true => exact insensitive_pure record
  | false =>
    cases fromCache with
    | false => exact insensitive_throw _
    | true =>
      refine (insensitive_loadUser h c.username tick).bind fun fresh => ?_
      refine (insensitive_check _).bind fun isProven => ?_
      cases isProven with
      | true => exact insensitive_pure fresh
      | false => exact insensitive_throw _

theorem insensitive_digest (h : backend.Settles I) (s : AuthSettings) (method header : String)
    (now : Moment) : Insensitive I (Digest.verify s backend method header now) := by
  refine (insensitive_check _).bind fun c => (insensitive_check _).bind fun nonce => ?_
  exact (insensitive_provenRecord h s c method now.tick).bind fun record => insensitive_check _

/-- The guard belongs to what is the same in both states. -/
theorem insensitive_passGuard (t : OAuth.Ticket) (now : Int) :
    Insensitive I (OAuth.passGuard t now : Verification σ Bool) := by
  intro st st' halike
  rw [OAuth.passGuard_run, OAuth.passGuard_run, halike.guard]
  exact ⟨rfl, halike.users, rfl, halike.left, halike.right⟩

theorem insensitive_findConsumer (h : backend.Settles I) (key : String) :
    Insensitive I (OAuth.findConsumer backend key) := by
  refine (insensitive_ofBackend (h.lookupConsumer key)).bind fun answer => ?_
  cases answer with
  | ok record => exact insensitive_pure record
  | error e => exact insensitive_throw _

theorem insensitive_oauth (h : backend.Settles I) (s : AuthSettings) (m : OAuth.Message)
    (now : Int) : Insensitive I (OAuth.verify s backend m now) := by
  refine (insensitive_check _).bind fun claim => ?_
  by_cases htimely : OAuth.isTimely s.timestampWindow now claim.timestamp = true
  · simp only [htimely, Bool.not_true, Bool.false_eq_true, if_false]
    refine (insensitive_findConsumer h claim.consumer).bind fun record => ?_
    refine (insensitive_check _).bind fun _ => ?_
    refine (insensitive_passGuard _ now).bind fun admitted => ?_
    cases admitted with
    | true => exact insensitive_pure _
    | false => exact insensitive_throw _
  · simp only [htimely, Bool.not_false, if_true]
    exact insensitive_throw _

/-- Authentication sees the identities through the answers of the backend only. -/
theorem insensitive_authenticate (h : backend.Settles I) (s : AuthSettings) (r : Request)
    (now : Moment) : Insensitive I (Authentication.authenticate s backend r now) := by
  refine (insensitive_check _).bind fun attempt => ?_
  cases attempt with
  | digest header => exact insensitive_digest h s r.method header now
  | oauth m => exact insensitive_oauth h s m (now.epochMs.tdiv 1000)

end Gatehouse
