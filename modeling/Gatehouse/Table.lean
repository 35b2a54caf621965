/-!
# Tables

Finite maps as lists of keys and values, in the order in which the keys were first put. Every key
occurs once, so that the list of entries and the map from keys to values tell the same.

- `get?`: the view through which tables are compared.
- `put`, `erase`, `retain`: the changes. Each has a lemma that says what it does to the view.
- `size`: the number of entries.
-/

namespace Gatehouse

/-- A finite map. -/
structure Table (κ α : Type) where
  entries : List (κ × α)
  /-- Every key occurs once. -/
  nodup : (entries.map Prod.fst).Nodup
deriving Repr, DecidableEq

namespace Table

variable {κ α : Type}

/-- The table without entries. -/
def empty : Table κ α :=
  ⟨[], List.nodup_nil⟩

instance : Inhabited (Table κ α) :=
  ⟨empty⟩

/-- The number of entries. -/
def size (t : Table κ α) : Nat :=
  t.entries.length

/-- Whether there is no entry. -/
def isEmpty (t : Table κ α) : Bool :=
  t.entries.isEmpty

/-- Keeps the entries that satisfy a test. -/
def retain (keep : κ → α → Bool) (t : Table κ α) : Table κ α where
  entries := t.entries.filter fun (k, v) => keep k v
  nodup := t.nodup.sublist (List.filter_sublist.map Prod.fst)

variable [DecidableEq κ]

/-- The value of a key in a list of entries. -/
def find (k : κ) : List (κ × α) → Option α
  | [] => none
  | (k', v) :: rest => if k' = k then some v else find k rest

/-- The value of a key. -/
def get? (t : Table κ α) (k : κ) : Option α :=
  find k t.entries

/-- Entries with a key set to a value: in its place, or at the end. -/
def putEntry (k : κ) (v : α) : List (κ × α) → List (κ × α)
  | [] => [(k, v)]
  | (k', v') :: rest => if k' = k then (k, v) :: rest else (k', v') :: putEntry k v rest

/-- The keys after a key was set: the same ones, or one more at the end. -/
theorem keys_putEntry (k : κ) (v : α) (entries : List (κ × α)) :
    (putEntry k v entries).map Prod.fst =
      if k ∈ entries.map Prod.fst then entries.map Prod.fst
      else entries.map Prod.fst ++ [k] := by
  induction entries with
  | nil => simp [putEntry]
  | cons e rest ih =>
    by_cases h : e.1 = k
    · simp [putEntry, h]
    · simp only [putEntry, h, if_false, List.map_cons, ih, List.mem_cons, Ne.symm h, false_or]
      split <;> simp

theorem nodup_putEntry (k : κ) (v : α) {entries : List (κ × α)}
    (h : (entries.map Prod.fst).Nodup) : ((putEntry k v entries).map Prod.fst).Nodup := by
  rw [keys_putEntry]
  split
  · exact h
  · next hk =>
    refine List.nodup_append.2 ⟨h, by simp, fun a ha b hb => ?_⟩
    rintro rfl
    exact hk (List.mem_singleton.1 hb ▸ ha)

/-- Sets the value of a key. -/
def put (t : Table κ α) (k : κ) (v : α) : Table κ α :=
  ⟨putEntry k v t.entries, nodup_putEntry k v t.nodup⟩

/-- Drops the entry of a key. -/
def erase (t : Table κ α) (k : κ) : Table κ α :=
  t.retain fun k' _ => k' ≠ k

/-! ## The view of each operation -/

@[simp] theorem get?_empty (k : κ) : (empty : Table κ α).get? k = none := rfl

theorem find_putEntry (k k' : κ) (v : α) (entries : List (κ × α)) :
    find k' (putEntry k v entries) = if k = k' then some v else find k' entries := by
  induction entries with
  | nil => simp [putEntry, find]
  | cons e rest ih =>
    by_cases h : e.1 = k <;> by_cases h' : k = k' <;> simp_all [putEntry, find]

/-- Setting a key changes the value of that key only. -/
@[simp] theorem get?_put (t : Table κ α) (k k' : κ) (v : α) :
    (t.put k v).get? k' = if k = k' then some v else t.get? k' :=
  find_putEntry k k' v t.entries

/-- A key that does not occur has no value. -/
theorem find_eq_none {k : κ} {entries : List (κ × α)} (h : k ∉ entries.map Prod.fst) :
    find k entries = none := by
  induction entries with
  | nil => rfl
  | cons e rest ih =>
    simp only [List.map_cons, List.mem_cons, not_or] at h
    rw [find, if_neg (Ne.symm h.1), ih h.2]

theorem find_eq_some_iff {k : κ} {v : α} {entries : List (κ × α)}
    (h : (entries.map Prod.fst).Nodup) : find k entries = some v ↔ (k, v) ∈ entries := by
  induction entries with
  | nil => simp [find]
  | cons e rest ih =>
    obtain ⟨k', v'⟩ := e
    simp only [List.map_cons, List.nodup_cons] at h
    by_cases hk : k' = k
    · subst hk
      have hrest : (k', v) ∉ rest := fun hmem => h.1 (List.mem_map_of_mem hmem)
      simp [find, hrest, eq_comm]
    · simp [find, hk, ih h.2, Ne.symm hk]

/-- The entries of a table are the keys with their values. -/
theorem get?_eq_some_iff {t : Table κ α} {k : κ} {v : α} :
    t.get? k = some v ↔ (k, v) ∈ t.entries :=
  find_eq_some_iff t.nodup

theorem find_filter (keep : κ → α → Bool) (k : κ) {entries : List (κ × α)}
    (h : (entries.map Prod.fst).Nodup) :
    find k (entries.filter fun (k, v) => keep k v) = (find k entries).filter (keep k) := by
  induction entries with
  | nil => rfl
  | cons e rest ih =>
    obtain ⟨k', v⟩ := e
    simp only [List.map_cons, List.nodup_cons] at h
    by_cases hk : k' = k
    · subst hk
      cases hv : keep k' v with
      | true => simp [find, hv, Option.filter]
      | false => simp [find, hv, Option.filter, ih h.2, find_eq_none h.1]
    · cases hv : keep k' v <;> simp [find, hv, hk, ih h.2]

/-- Keeping some entries keeps the values that satisfy the test. -/
@[simp] theorem get?_retain (keep : κ → α → Bool) (t : Table κ α) (k : κ) :
    (t.retain keep).get? k = (t.get? k).filter (keep k) :=
  find_filter keep k t.nodup

/-- Dropping a key changes the value of that key only. -/
@[simp] theorem get?_erase (t : Table κ α) (k k' : κ) :
    (t.erase k).get? k' = if k' = k then none else t.get? k' := by
  by_cases h : k' = k <;> cases hv : t.get? k' <;> simp [erase, h, hv]

end Table

end Gatehouse
