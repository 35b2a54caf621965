import Gatehouse.Table
import Gatehouse.Text.Numeral

/-!
# Replay protection

A signed request may be accepted once only. The guard remembers what it has accepted for as long
as the timestamp of it could still be accepted.

- `ReplayGuard.check`: accepts and remembers a request, or recognises it.
- `ReplayGuard.purge`: forgets what has expired. After a fixed number of accepted requests that
  happens by itself.

Instants count seconds of the calendar and have 64 bits; sums are cut off at the end of the range.
-/

namespace Gatehouse.OAuth

/-- What makes a request unique. -/
structure Ticket where
  consumer : String
  nonce : String
  timestamp : Int
deriving DecidableEq, Repr, Inhabited

/-- What has been accepted and until when it is remembered. -/
structure ReplayGuard where
  /-- How long a timestamp is accepted, in seconds. -/
  window : Int
  /-- After how many accepted requests expired ones are forgotten. -/
  purgeInterval : Nat
  /-- The number of requests accepted so far. There is no bound on it here; a counter of a fixed
  width starts again at zero when it is full, which shifts the moments of the purges only. -/
  recorded : Nat
  seen : Table Ticket Int
deriving DecidableEq, Repr, Inhabited

namespace ReplayGuard

/-- After how many accepted requests expired ones are forgotten, unless said otherwise. -/
def defaultPurgeInterval : Nat :=
  1024

/-- A guard that has seen nothing, for a window of so many seconds. -/
def ofWindow (windowSecs : Nat) : ReplayGuard :=
  ⟨min (windowSecs : Int) Numeral.maxSigned, defaultPurgeInterval, 0, .empty⟩

/-- The guard with another interval; one of zero means one. -/
def withPurgeInterval (g : ReplayGuard) (interval : Nat) : ReplayGuard :=
  { g with purgeInterval := max interval 1 }

/-- Until when a request with the given timestamp is remembered. -/
def expiry (g : ReplayGuard) (timestamp : Int) : Int :=
  Numeral.clampSigned (timestamp + g.window)

/-- Forgets what has expired. -/
def purge (g : ReplayGuard) (now : Int) : ReplayGuard :=
  { g with seen := g.seen.retain fun _ expiresAt => now < expiresAt }

/-- How many remembered requests have expired. -/
def expiredCount (g : ReplayGuard) (now : Int) : Nat :=
  g.seen.size - (g.purge now).seen.size

/-- Whether a request is remembered. -/
def remembers (g : ReplayGuard) (t : Ticket) (now : Int) : Bool :=
  match g.seen.get? t with
  | some expiresAt => now < expiresAt
  | none => false

/-- Remembers a request. -/
def record (g : ReplayGuard) (t : Ticket) : ReplayGuard :=
  { g with seen := g.seen.put t (g.expiry t.timestamp), recorded := g.recorded + 1 }

/-- Whether a request is new; a new one is remembered from now on. -/
def check (g : ReplayGuard) (t : Ticket) (now : Int) : Bool × ReplayGuard :=
  if g.remembers t now then (false, g)
  else
    let g := g.record t
    (true, if g.recorded % g.purgeInterval = 0 then g.purge now else g)

end ReplayGuard

end Gatehouse.OAuth
