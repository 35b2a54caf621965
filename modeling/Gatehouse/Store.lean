import Gatehouse.Name
import Gatehouse.Table

/-!
# A store by module and consumer

State that is kept apart for every module and consumer.

- `Store.access`: the live value of a scope. A missing value is created, and one that is no
  longer live is replaced on the spot; liveness is asked at most once.
- `Store.retain`, `Store.removeModule`, `Store.reset`: ways to drop values. The first two count.
-/

namespace Gatehouse

/-- At most one value for each module and consumer. -/
abbrev Store (α : Type) := Table Scope α

namespace Store

variable {α : Type}

/-- How an access found the value that it answers with. -/
inductive Found where
  /-- A live value was there. -/
  | live
  /-- The value that was there is replaced. -/
  | renewed
  /-- No value was there. -/
  | created
deriving DecidableEq, Repr, Inhabited

/-- How often the liveness of a value had to be asked. -/
def Found.judged : Found → Nat
  | .live => 1
  | .renewed => 1
  | .created => 0

/-- The live value of a scope, with the store after the access. -/
def access (s : Store α) (scope : Scope) (isLive : α → Bool) (fresh : α) :
    α × Found × Store α :=
  match s.get? scope with
  | some v => if isLive v then (v, .live, s) else (fresh, .renewed, s.put scope fresh)
  | none => (fresh, .created, s.put scope fresh)

/-- Keeps the values that satisfy a test, and counts the others. -/
def keepOnly (s : Store α) (keep : Scope → α → Bool) : Nat × Store α :=
  let kept := s.retain keep
  (s.size - kept.size, kept)

/-- Drops every value of a module, and counts them. -/
def removeModule (s : Store α) (m : ModuleName) : Nat × Store α :=
  s.keepOnly fun scope _ => scope.module ≠ m

/-- Drops everything. -/
def reset (_ : Store α) : Store α :=
  Table.empty

end Store

end Gatehouse
