import Gatehouse.Name
import Gatehouse.Table

/-!
# Identities

Who may authenticate, and where that is looked up.

- `UserRecord` and `ConsumerRecord`: what is known about a Digest user and an OAuth consumer.
- `IdentityBackend σ`: a source of records with a state of its own. It may answer differently
  from one call to the next, and it may fail.
- `Directory`: records kept in memory.
- `Registry`: a directory that can be out of service and counts how often it is asked.
- `Principal`: an authenticated caller.
-/

namespace Gatehouse

/-- A Digest user. The password is plain, or a hash that already covers user name and realm. -/
structure UserRecord where
  username : String
  password : String
  active : Bool
  groups : List String
deriving DecidableEq, Repr, Inhabited

/-- An OAuth consumer. -/
structure ConsumerRecord where
  key : String
  secret : String
  authorities : List String
deriving DecidableEq, Repr, Inhabited

/-- Why a record could not be had. -/
inductive IdentityError where
  | notFound (name : String)
  | unavailable (reason : String)
deriving DecidableEq, Repr, Inhabited

/-- The wording of the error. -/
def IdentityError.message : IdentityError → String
  | .notFound name => "identity not found: " ++ name
  | .unavailable reason => "identity backend unavailable: " ++ reason

/-- A source of records; `σ` is what it carries from one call to the next. -/
structure IdentityBackend (σ : Type) where
  loadUser : String → StateM σ (Except IdentityError UserRecord)
  lookupConsumer : String → StateM σ (Except IdentityError ConsumerRecord)

/-! ## Records in memory -/

/-- Users by name and consumers by key. -/
structure Directory where
  users : Table String UserRecord
  consumers : Table String ConsumerRecord
deriving DecidableEq, Repr, Inhabited

namespace Directory

/-- The directory without records. -/
def empty : Directory :=
  ⟨.empty, .empty⟩

/-- Adds a user, in place of one with the same name. -/
def withUser (d : Directory) (user : UserRecord) : Directory :=
  { d with users := d.users.put user.username user }

/-- Adds a consumer, in place of one with the same key. -/
def withConsumer (d : Directory) (consumer : ConsumerRecord) : Directory :=
  { d with consumers := d.consumers.put consumer.key consumer }

/-- Adds an account for both schemes: its key is the user name and its secret the password. -/
def withAccount (d : Directory) (key secret : String) (groups : List String) : Directory :=
  (d.withUser ⟨key, secret, true, groups⟩).withConsumer ⟨key, secret, groups⟩

/-- The user of the given name. -/
def user (d : Directory) (name : String) : Except IdentityError UserRecord :=
  match d.users.get? name with
  | some record => .ok record
  | none => .error (.notFound name)

/-- The consumer of the given key. -/
def consumer (d : Directory) (key : String) : Except IdentityError ConsumerRecord :=
  match d.consumers.get? key with
  | some record => .ok record
  | none => .error (.notFound key)

end Directory

/-- A directory in service: its records, the reason for an outage if there is one, and the number
of calls so far. -/
structure Registry where
  contents : Directory
  outage : Option String
  calls : Nat
deriving DecidableEq, Repr, Inhabited

namespace Registry

/-- A directory in service that has not been asked yet. -/
def ofDirectory (contents : Directory) : Registry :=
  ⟨contents, none, 0⟩

/-- Counts a call, and answers it unless there is an outage. -/
def answer {α : Type} (look : Directory → Except IdentityError α) :
    StateM Registry (Except IdentityError α) := fun r =>
  (match r.outage with
    | some reason => .error (.unavailable reason)
    | none => look r.contents,
   { r with calls := r.calls + 1 })

/-- The registry as a source of records. -/
def backend : IdentityBackend Registry where
  loadUser name := answer (·.user name)
  lookupConsumer key := answer (·.consumer key)

end Registry

/-! ## Authenticated callers -/

/-- The two ways to authenticate. -/
inductive Scheme where
  | digest
  | oauth
deriving DecidableEq, Repr, Inhabited

/-- The name of a scheme, as it stands in headers. -/
def Scheme.text : Scheme → String
  | .digest => "Digest"
  | .oauth => "OAuth"

/-- An authenticated caller. -/
structure Principal where
  name : String
  scheme : Scheme
  authorities : List String
deriving DecidableEq, Repr, Inhabited

namespace Principal

/-- The key under which decisions about the caller are kept. -/
def consumerKey (p : Principal) : ConsumerKey :=
  ⟨p.name⟩

/-- Whether the caller was granted an authority. -/
def hasAuthority (p : Principal) (authority : String) : Bool :=
  p.authorities.contains authority

end Principal

end Gatehouse
