import Gatehouse.Text.Utf8

/-!
# Hexadecimal digits

- `digit`: a digit in lower or upper case.
- `value?`: what a digit of either case stands for.
- `ofBytes`: two lower-case digits for each byte.
-/

namespace Gatehouse.Hex

/-- The lower-case digit for a number below sixteen. -/
def digit (n : Nat) : Char :=
  Char.ofNat (if n < 10 then 48 + n else 87 + n)

/-- The upper-case digit for a number below sixteen. -/
def upperDigit (n : Nat) : Char :=
  Char.ofNat (if n < 10 then 48 + n else 55 + n)

/-- The value of a digit of either case, given by its code. -/
def value? (n : Nat) : Option Nat :=
  if 48 ≤ n ∧ n ≤ 57 then some (n - 48)
  else if 97 ≤ n ∧ n ≤ 102 then some (n - 87)
  else if 65 ≤ n ∧ n ≤ 70 then some (n - 55)
  else none

/-- Two lower-case digits for each byte. -/
def ofBytes (bytes : Bytes) : List Char :=
  bytes.flatMap fun b => [digit (b.toNat / 16), digit (b.toNat % 16)]

/-- A number in lower-case digits without leading zeros. -/
def ofNat (n : Nat) : List Char :=
  Nat.toDigits 16 n

end Gatehouse.Hex
