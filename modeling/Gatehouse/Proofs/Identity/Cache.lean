import Gatehouse.Identity.Cache

/-!
# What the user cache keeps

A condition that holds of every entry of the user cache is kept by look-ups and removals, and by
storing a record that satisfies it. A record that is found satisfies it, and has not outlived its
time.
-/

namespace Gatehouse.UserCache

variable {ttl : Nat} {P Q : String → CachedUser → Prop} {cache : UserCache}

/-- All entries satisfy a condition, and live for the given time. -/
def Keeps (ttl : Nat) (P : String → CachedUser → Prop) : UserCache → Prop
  | .off => True
  | .keeping ttl' entries =>
    ttl' = ttl ∧ ∀ name entry, entries.get? name = some entry → P name entry

theorem keeps_ofTtl (ttl : Nat) (P : String → CachedUser → Prop) : (ofTtl ttl).Keeps ttl P :=
  ⟨rfl, nofun⟩

theorem Keeps.mono (hle : ∀ name entry, P name entry → Q name entry) (h : cache.Keeps ttl P) :
    cache.Keeps ttl Q := by
  cases cache with
  | off => trivial
  | keeping ttl' entries => exact ⟨h.1, fun name entry hget => hle _ _ (h.2 name entry hget)⟩

theorem Keeps.get (h : cache.Keeps ttl P) (name : String) (now : Instant) :
    (cache.get name now).2.Keeps ttl P := by
  cases cache with
  | off => trivial
  | keeping ttl' entries =>
    simp only [UserCache.get]
    split
    · exact h
    · split
      · exact h
      · refine ⟨h.1, fun name' entry hget => h.2 name' entry ?_⟩
        rw [Table.get?_erase] at hget
        split at hget
        · cases hget
        · exact hget

/-- A record that is found has not outlived its time. -/
theorem Keeps.found (h : cache.Keeps ttl P) {name : String} {now : Instant} {record : UserRecord}
    (hget : (cache.get name now).1 = some record) :
    ∃ storedAt, P name ⟨record, storedAt⟩ ∧ now < storedAt + ttl := by
  cases cache with
  | off => cases hget
  | keeping ttl' entries =>
    simp only [UserCache.get] at hget
    split at hget
    · cases hget
    · next entry hentry =>
      split at hget
      · next halive =>
        cases hget
        rw [isAlive, decide_eq_true_eq, h.1] at halive
        have hlt : ∀ a b c : Nat, a - b < c → a < b + c := by omega
        exact ⟨entry.storedAt, h.2 _ _ hentry, hlt _ _ _ halive⟩
      · cases hget

theorem Keeps.put (h : cache.Keeps ttl P) {record : UserRecord} {now : Instant}
    (hrecord : P record.username ⟨record, now⟩) : (cache.put record now).Keeps ttl P := by
  cases cache with
  | off => trivial
  | keeping ttl' entries =>
    refine ⟨h.1, fun name entry hget => ?_⟩
    rw [Table.get?_put] at hget
    split at hget
    · next hname =>
      cases hget
      rw [← hname]
      exact hrecord
    · exact h.2 name entry hget

theorem Keeps.remove (h : cache.Keeps ttl P) (name : String) : (cache.remove name).Keeps ttl P := by
  cases cache with
  | off => trivial
  | keeping ttl' entries =>
    refine ⟨h.1, fun name' entry hget => h.2 name' entry ?_⟩
    rw [Table.get?_erase] at hget
    split at hget
    · cases hget
    · exact hget

end Gatehouse.UserCache
