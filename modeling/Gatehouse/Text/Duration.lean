import Gatehouse.Text.Numeral

/-!
# Lengths of time in words

A length of time is written in the largest unit of which it holds at least one, with the rest as
decimals: `1.5s`, `250ms`, `1.000001ms`, `0ns`.
-/

namespace Gatehouse.Text

/-- A text without its trailing zeros. -/
def withoutTrailingZeros (s : List Char) : List Char :=
  (s.reverse.dropWhile (· == '0')).reverse

/-- A number in digits, filled up with leading zeros. -/
def padded (width n : Nat) : List Char :=
  let ds := Numeral.ofNat n
  List.replicate (width - ds.length) '0' ++ ds

/-- The quotient by a power of ten as a decimal number without trailing zeros. -/
def decimalQuotient (n places : Nat) : List Char :=
  let whole := Numeral.ofNat (n / Nat.pow 10 places)
  match withoutTrailingZeros (padded places (n % Nat.pow 10 places)) with
  | [] => whole
  | decimals => whole ++ '.' :: decimals

/-- The text of a number of nanoseconds. -/
def duration (nanos : Nat) : String :=
  String.ofList
    (if nanos ≥ 1000000000 then decimalQuotient nanos 9 ++ ['s']
    else if nanos ≥ 1000000 then decimalQuotient nanos 6 ++ ['m', 's']
    else if nanos ≥ 1000 then decimalQuotient nanos 3 ++ ['\u00b5', 's']
    else decimalQuotient nanos 0 ++ ['n', 's'])

end Gatehouse.Text
