/-!
# Decimal numerals

Reading whole numbers of bounded size: an optional sign, then digits, within the range.

- `unsigned?`: a natural number below `2 ^ 64`, with an optional plus sign.
- `signed?`: an integer from `-2 ^ 63` up to `2 ^ 63 - 1`, with an optional sign.
- `clampSigned`: the nearest integer in the signed range, which is what saturating sums mean.
-/

namespace Gatehouse.Numeral

/-- The greatest signed 64-bit integer. -/
def maxSigned : Int := 9223372036854775807

/-- The least signed 64-bit integer. -/
def minSigned : Int := -9223372036854775808

/-- The greatest unsigned 64-bit integer. -/
def maxUnsigned : Nat := 18446744073709551615

/-- The value of a digit. -/
def digit? (c : Char) : Option Nat :=
  if 48 ≤ c.toNat ∧ c.toNat ≤ 57 then some (c.toNat - 48) else none

/-- Reads on a number of which the digits so far have the value `n`. -/
def digitsFrom? (n : Nat) : List Char → Option Nat
  | [] => some n
  | c :: rest =>
    match digit? c with
    | some d => digitsFrom? (n * 10 + d) rest
    | none => none

/-- The value of one or more digits. -/
def digits? : List Char → Option Nat
  | [] => none
  | s => digitsFrom? 0 s

/-- Reads an unsigned 64-bit integer. -/
def unsigned? (s : List Char) : Option Nat :=
  let unsignedPart := match s with
    | '+' :: rest => rest
    | s => s
  (digits? unsignedPart).filter (· ≤ maxUnsigned)

/-- Reads a signed 64-bit integer. -/
def signed? (s : List Char) : Option Int :=
  let value := match s with
    | '-' :: rest => (digits? rest).map fun n => -(n : Int)
    | '+' :: rest => (digits? rest).map fun n => (n : Int)
    | s => (digits? s).map fun n => (n : Int)
  value.filter fun i => minSigned ≤ i ∧ i ≤ maxSigned

/-- The nearest integer in the signed 64-bit range. -/
def clampSigned (i : Int) : Int :=
  max minSigned (min i maxSigned)

/-- The decimal text of a natural number. -/
def ofNat (n : Nat) : List Char :=
  Nat.toDigits 10 n

/-- The decimal text of an integer: a minus sign for negative ones, and no plus sign. -/
def ofInt : Int → List Char
  | .ofNat n => ofNat n
  | .negSucc n => '-' :: ofNat (n + 1)

end Gatehouse.Numeral
