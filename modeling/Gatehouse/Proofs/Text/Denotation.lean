import Gatehouse.Text.Numeral
import Mathlib.Data.Nat.Digits.Defs

/-!
# What a numeral denotes

The reader of numerals goes through the digits from the first one on. What a numeral denotes is told
without it: digits stand for a sum of powers of ten, with the last digit for the ones, and a sign
may stand in front of them.

- `Denotes`: the texts that denote an integer, and which one.
- `signed?_eq_some_iff`: the reader takes these texts, if the integer is in the range.
-/

namespace Gatehouse.Numeral

/-! ## Numerals -/

/-- One or more decimal digits. -/
structure IsDigits (s : List Char) : Prop where
  ne_nil : s ≠ []
  isDigit : ∀ c ∈ s, c.isDigit = true

/-- The number that digits stand for, the last one for the ones. -/
def value (s : List Char) : Nat :=
  Nat.ofDigits 10 (s.reverse.map fun c => c.toNat - 48)

/-- The integer that a text denotes: digits, with at most one sign in front of them. -/
inductive Denotes : List Char → Int → Prop where
  | plain {s : List Char} (h : IsDigits s) : Denotes s (value s)
  | plus {s : List Char} (h : IsDigits s) : Denotes ('+' :: s) (value s)
  | minus {s : List Char} (h : IsDigits s) : Denotes ('-' :: s) (-(value s : Int))

variable {s : List Char}

/-! ## Digits -/

theorem value_cons (c : Char) (s : List Char) :
    value (c :: s) = (c.toNat - 48) * 10 ^ s.length + value s := by
  rw [value, List.reverse_cons, List.map_append, Nat.ofDigits_append, List.map_singleton,
    Nat.ofDigits_singleton, List.length_map, List.length_reverse, value]
  ring

theorem digit?_eq_some_iff {c : Char} {d : Nat} :
    digit? c = some d ↔ c.isDigit = true ∧ c.toNat - 48 = d := by
  rw [digit?, Char.isDigit_iff_toNat, Option.ite_none_right_eq_some, Option.some.injEq]
  rfl

/-- Digits that are read on from a number are written behind it. -/
theorem digitsFrom?_eq_some_iff {n m : Nat} :
    digitsFrom? n s = some m ↔
      (∀ c ∈ s, c.isDigit = true) ∧ n * 10 ^ s.length + value s = m := by
  induction s generalizing n with
  | nil =>
    show some n = some m ↔ _ ∧ n * 1 + 0 = m
    rw [Option.some.injEq, Nat.mul_one, Nat.add_zero, and_iff_right (List.forall_mem_nil _)]
  | cons c s ih =>
    rw [digitsFrom?, List.forall_mem_cons]
    by_cases hc : c.isDigit = true
    · have hvalue : (n * 10 + (c.toNat - 48)) * 10 ^ s.length + value s =
          n * 10 ^ (c :: s).length + value (c :: s) := by
        rw [value_cons, List.length_cons]
        ring
      rw [digit?_eq_some_iff.2 ⟨hc, rfl⟩]
      dsimp only
      rw [ih, hvalue, and_iff_right hc]
    · have hnone : digit? c = none :=
        Option.eq_none_iff_forall_ne_some.2 fun d hd => hc (digit?_eq_some_iff.1 hd).1
      rw [hnone]
      simp only [reduceCtorEq, hc, false_and]

theorem digits?_eq_some_iff {n : Nat} : digits? s = some n ↔ IsDigits s ∧ value s = n := by
  cases s with
  | nil => exact ⟨nofun, fun h => absurd rfl h.1.ne_nil⟩
  | cons c s =>
    rw [digits?, digitsFrom?_eq_some_iff, Nat.zero_mul, Nat.zero_add]
    · exact ⟨fun h => ⟨⟨List.cons_ne_nil c s, h.1⟩, h.2⟩, fun h => ⟨h.1.isDigit, h.2⟩⟩
    · nofun

/-! ## Signs -/

/-- No digits begin with a sign. -/
theorem IsDigits.ne_sign {c : Char} (h : IsDigits (c :: s)) : c ≠ '-' ∧ c ≠ '+' := by
  have hc := h.isDigit c List.mem_cons_self
  constructor
  · rintro rfl
    exact absurd hc (by decide)
  · rintro rfl
    exact absurd hc (by decide)

theorem denotes_minus_iff {t : Int} :
    Denotes ('-' :: s) t ↔ IsDigits s ∧ -(value s : Int) = t := by
  constructor
  · rintro (h | _ | h)
    · exact absurd rfl h.ne_sign.1
    · exact ⟨h, rfl⟩
  · rintro ⟨h, rfl⟩
    exact .minus h

theorem denotes_plus_iff {t : Int} :
    Denotes ('+' :: s) t ↔ IsDigits s ∧ (value s : Int) = t := by
  constructor
  · rintro (h | h | _)
    · exact absurd rfl h.ne_sign.2
    · exact ⟨h, rfl⟩
  · rintro ⟨h, rfl⟩
    exact .plus h

theorem denotes_plain_iff {t : Int} (hminus : ∀ rest, s ≠ '-' :: rest)
    (hplus : ∀ rest, s ≠ '+' :: rest) : Denotes s t ↔ IsDigits s ∧ (value s : Int) = t := by
  constructor
  · rintro (h | _ | _)
    · exact ⟨h, rfl⟩
    · exact absurd rfl (hplus _)
    · exact absurd rfl (hminus _)
  · rintro ⟨h, rfl⟩
    exact .plain h

/-- A numeral consists of digits and signs. -/
theorem Denotes.mem {t : Int} (h : Denotes s t) {c : Char} (hc : c ∈ s) :
    c = '+' ∨ c = '-' ∨ c.isDigit = true := by
  cases h with
  | plain h => exact .inr (.inr (h.isDigit c hc))
  | plus h => exact (List.mem_cons.1 hc).imp_right fun hrest => .inr (h.isDigit c hrest)
  | minus h =>
    rcases List.mem_cons.1 hc with hsign | hrest
    · exact .inr (.inl hsign)
    · exact .inr (.inr (h.isDigit c hrest))

/-! ## The reader -/

/-- What is made of the value of digits. -/
theorem map_digits?_eq_some_iff {f : Int → Int} {t : Int} :
    Option.map f (do let n ← digits? s; pure (n : Int)) = some t ↔
      IsDigits s ∧ f (value s) = t := by
  simp only [Option.pure_def, Option.bind_eq_bind, Option.map_eq_some_iff,
    Option.bind_eq_some_iff, digits?_eq_some_iff, Option.some.injEq]
  constructor
  · rintro ⟨i, ⟨n, ⟨hdigits, rfl⟩, rfl⟩, ht⟩
    exact ⟨hdigits, ht⟩
  · rintro ⟨hdigits, ht⟩
    exact ⟨_, ⟨_, ⟨hdigits, rfl⟩, rfl⟩, ht⟩

/-- A number is read if it is in the range, and as what the text denotes. -/
theorem signed?_eq_some_iff {t : Int} :
    signed? s = some t ↔ Denotes s t ∧ minSigned ≤ t ∧ t ≤ maxSigned := by
  unfold signed?
  rw [Option.filter_eq_some_iff, decide_eq_true_iff]
  refine and_congr_left fun _ => ?_
  split
  · exact map_digits?_eq_some_iff.trans denotes_minus_iff.symm
  · exact map_digits?_eq_some_iff.trans denotes_plus_iff.symm
  · next hminus hplus =>
    exact map_digits?_eq_some_iff.trans (denotes_plain_iff hminus hplus).symm

end Gatehouse.Numeral
