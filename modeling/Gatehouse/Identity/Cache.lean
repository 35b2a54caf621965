import Gatehouse.Identity.Basic

/-!
# The user cache

User records that were loaded a short while ago.

- `UserCache.off`: keeps nothing.
- `UserCache.keeping`: keeps each record for a fixed time to live. A record that has outlived it
  is dropped when it is looked up, and until then it still counts.

Times are instants of a clock that only runs forward, in nanoseconds.
-/

namespace Gatehouse

/-- Nanoseconds on a clock that only runs forward. -/
abbrev Instant := Nat

/-- The nanoseconds of a number of milliseconds. -/
def millis (n : Nat) : Nat :=
  n * 1000000

/-- The nanoseconds of a number of seconds. -/
def seconds (n : Nat) : Nat :=
  n * 1000000000

/-- A record and when it was stored. -/
structure CachedUser where
  record : UserRecord
  storedAt : Instant
deriving DecidableEq, Repr, Inhabited

/-- Recently loaded user records. -/
inductive UserCache where
  | off
  | keeping (ttl : Nat) (entries : Table String CachedUser)
deriving DecidableEq, Repr, Inhabited

namespace UserCache

/-- An empty cache whose records live for `ttl` nanoseconds. -/
def ofTtl (ttl : Nat) : UserCache :=
  .keeping ttl .empty

/-- Whether an entry is still alive at an instant. -/
def isAlive (ttl : Nat) (entry : CachedUser) (now : Instant) : Bool :=
  now - entry.storedAt < ttl

/-- The record of a user if it is alive; a dead one is dropped. -/
def get (cache : UserCache) (name : String) (now : Instant) : Option UserRecord × UserCache :=
  match cache with
  | .off => (none, .off)
  | .keeping ttl entries =>
    match entries.get? name with
    | none => (none, .keeping ttl entries)
    | some entry =>
      if isAlive ttl entry now then (some entry.record, .keeping ttl entries)
      else (none, .keeping ttl (entries.erase name))

/-- Stores a record under the name that it carries. -/
def put (cache : UserCache) (record : UserRecord) (now : Instant) : UserCache :=
  match cache with
  | .off => .off
  | .keeping ttl entries => .keeping ttl (entries.put record.username ⟨record, now⟩)

/-- Drops the record of a user. -/
def remove (cache : UserCache) (name : String) : UserCache :=
  match cache with
  | .off => .off
  | .keeping ttl entries => .keeping ttl (entries.erase name)

/-- The number of records, dead ones included. -/
def size : UserCache → Nat
  | .off => 0
  | .keeping _ entries => entries.size

end UserCache

end Gatehouse
