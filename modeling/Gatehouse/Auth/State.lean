import Gatehouse.Auth.Settings
import Gatehouse.Identity.Cache
import Gatehouse.OAuth.ReplayGuard

/-!
# The state of authentication

What authentication carries from one request to the next: the state of the identity backend, the
user cache and, if there is one, the replay guard. A verification reads and changes it, and ends
in a principal or in an error.
-/

namespace Gatehouse

/-- What is carried from one request to the next. -/
structure AuthState (σ : Type) where
  identities : σ
  users : UserCache
  guard : Option OAuth.ReplayGuard
deriving Repr, Inhabited

/-- A computation on the state that may fail. Changes made before a failure stay. -/
abbrev Verification (σ α : Type) := ExceptT AuthError (StateM (AuthState σ)) α

/-- The present, on the two clocks that authentication looks at: milliseconds of the calendar,
and a clock that only runs forward. -/
structure Moment where
  epochMs : Int
  tick : Instant
deriving DecidableEq, Repr, Inhabited

namespace Verification

variable {σ α : Type}

/-- Uses the part of the state that belongs to the identity backend. -/
def ofBackend (ask : StateM σ α) : Verification σ α := do
  let state ← get
  let (answer, identities) := ask.run state.identities
  set { state with identities }
  return answer

/-- Uses the user cache. -/
def ofCache (use : UserCache → α × UserCache) : Verification σ α := do
  let state ← get
  let (answer, users) := use state.users
  set { state with users }
  return answer

/-- Only the identities change. -/
theorem ofBackend_run (ask : StateM σ α) (st : AuthState σ) :
    (ofBackend ask).run st =
      (.ok (ask.run st.identities).1, { st with identities := (ask.run st.identities).2 }) :=
  rfl

/-- Only the user cache changes. -/
theorem ofCache_run (use : UserCache → α × UserCache) (st : AuthState σ) :
    (ofCache use : Verification σ α).run st =
      (.ok (use st.users).1, { st with users := (use st.users).2 }) :=
  rfl

end Verification

end Gatehouse
