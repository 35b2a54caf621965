import Gatehouse.Text.Hex
import Gatehouse.Text.Numeral

/-!
# Numerals that are read back

The text of a number is read back as the number, and consists of digits. So it can stand between
signs that are not digits, and nobody takes one for the other.

- `digits?_ofNat`, `signed?_ofInt`: what was written is read.
- `mem_ofInt`, `Hex.mem_ofBytes`: the characters that numerals and hexadecimal codes are made of.
-/

namespace Gatehouse.Numeral

/-! ## Digits -/

theorem digit?_digitChar {d : Nat} (h : d < 10) : digit? d.digitChar = some d := by
  have hval := Nat.toNat_digitChar_of_lt_ten h
  rw [digit?, hval, if_pos ⟨Nat.le_add_right 48 d, Nat.add_le_add_left (Nat.le_of_lt_succ h) 48⟩,
    Nat.add_sub_cancel_left]

/-- Reading goes on where it stopped. -/
theorem digitsFrom?_append (n : Nat) (s t : List Char) :
    digitsFrom? n (s ++ t) = (digitsFrom? n s).bind fun m => digitsFrom? m t := by
  induction s generalizing n with
  | nil => rfl
  | cons c s ih =>
    rw [List.cons_append, digitsFrom?, digitsFrom?]
    cases digit? c with
    | none => rfl
    | some d => exact ih _

theorem digitsFrom?_ofNat (n : Nat) : digitsFrom? 0 (ofNat n) = some n := by
  -- the digits are written from the last one backwards, and read from the first one on
  induction n using Nat.strongRecOn with
  | ind n ih =>
    by_cases hsmall : n < 10
    · rw [ofNat, Nat.toDigits_of_lt_base hsmall, digitsFrom?, digit?_digitChar hsmall]
      exact congrArg some (Nat.zero_add n)
    · have hbase : 10 ≤ n := Nat.le_of_not_lt hsmall
      have hlast : n % 10 < 10 := Nat.mod_lt n (by decide)
      have hrest := ih (n / 10) (Nat.div_lt_self (by omega) (by decide))
      rw [ofNat] at hrest
      rw [ofNat, Nat.toDigits_of_base_le (by decide) hbase, digitsFrom?_append, hrest,
        Option.bind_some, digitsFrom?, digit?_digitChar hlast]
      exact congrArg some (Nat.div_add_mod' n 10)

theorem mem_ofNat {c : Char} {n : Nat} (h : c ∈ ofNat n) : c.isDigit = true :=
  Nat.isDigit_of_mem_toDigits (by decide) (by decide) h

theorem ofNat_ne_nil (n : Nat) : ofNat n ≠ [] := by
  intro hnil
  have hread := digitsFrom?_ofNat n
  rw [hnil] at hread
  cases hread
  cases hnil

theorem digits?_ofNat (n : Nat) : digits? (ofNat n) = some n := by
  have hread := digitsFrom?_ofNat n
  cases hs : ofNat n with
  | nil => exact absurd hs (ofNat_ne_nil n)
  | cons c rest =>
    rw [hs] at hread
    exact hread

/-! ## Signs -/

/-- A numeral consists of digits, with a minus sign in front of negative ones. -/
theorem mem_ofInt {c : Char} {i : Int} (h : c ∈ ofInt i) : c = '-' ∨ c.isDigit = true := by
  cases i with
  | ofNat n => exact .inr (mem_ofNat h)
  | negSucc n => exact (List.mem_cons.1 h).imp_right mem_ofNat

/-- A text of digits has no sign. -/
theorem signed?_ofNat (n : Nat) :
    signed? (ofNat n) = (some (n : Int)).filter fun i => minSigned ≤ i ∧ i ≤ maxSigned := by
  have hdigits := digits?_ofNat n
  unfold signed?
  split
  · next rest hs => exact absurd (mem_ofNat (hs ▸ List.mem_cons_self : '-' ∈ ofNat n)) (by decide)
  · next rest hs => exact absurd (mem_ofNat (hs ▸ List.mem_cons_self : '+' ∈ ofNat n)) (by decide)
  · rw [hdigits]
    rfl

/-- A number in the range is read back. -/
theorem signed?_ofInt {i : Int} (hlow : minSigned ≤ i) (hhigh : i ≤ maxSigned) :
    signed? (ofInt i) = some i := by
  cases i with
  | ofNat n =>
    rw [ofInt, signed?_ofNat, Option.filter_some, if_pos (decide_eq_true ⟨hlow, hhigh⟩)]
    rfl
  | negSucc n =>
    rw [ofInt, signed?, digits?_ofNat]
    show (some (Int.negSucc n)).filter _ = _
    rw [Option.filter_some, if_pos (decide_eq_true ⟨hlow, hhigh⟩)]

end Gatehouse.Numeral

namespace Gatehouse.Hex

theorem digit_alphabet {n : Nat} (h : n < 16) :
    digit n ∈ "0123456789abcdef".toList := by
  have hall : ∀ n < 16, digit n ∈ "0123456789abcdef".toList := by decide
  exact hall n h

/-- A hexadecimal code consists of digits. -/
theorem mem_ofBytes {c : Char} {bytes : Bytes} (h : c ∈ ofBytes bytes) :
    c ∈ "0123456789abcdef".toList := by
  obtain ⟨b, -, hc⟩ := List.mem_flatMap.1 h
  have hb := b.toNat_lt
  rcases List.mem_cons.1 hc with rfl | hlow
  · exact digit_alphabet (by omega)
  · rw [List.mem_singleton.1 hlow]
    exact digit_alphabet (Nat.mod_lt _ (by decide))

end Gatehouse.Hex
