import Gatehouse.Binary64.Basic
import Gatehouse.Text.Duration

/-!
# The shortest decimal text of a number of double precision

The digits are the fewest that read back to the number, and among equally few the nearest to it.
They are searched for with exact arithmetic: for one digit, two digits and so on, the two decimal
neighbours of the number with so many digits are tried. Seventeen digits suffice for every number
of double precision; a number that should need more would get its exact value.

- `Decimal`: digits and the place of the point.
- `Binary64.shortest`: the digits of a number.
- `Binary64.text`: the text, positional for numbers of moderate size, otherwise with an exponent.
-/

namespace Gatehouse

/-- The decimal number `digits * 10 ^ exponent`. -/
structure Decimal where
  digits : Nat
  exponent : Int
deriving DecidableEq, Repr, Inhabited

namespace Binary64

/-- The number of double precision that is nearest to a decimal number. -/
def ofDecimal (d : Decimal) : Binary64 :=
  ofRatio (d.digits * Nat.pow 10 d.exponent.toNat) (Nat.pow 10 (-d.exponent).toNat)

/-- The least power of ten above `num / den`, which is not zero. For a number below one the digits
of its inverse are counted. -/
def decimalOrder (num den : Nat) : Int :=
  if den ≤ num then (Numeral.ofNat (num / den)).length
  else 1 - (Numeral.ofNat ((den - 1) / num)).length

/-- The neighbours of `num / den` among the multiples of `10 ^ exponent`, the nearer one first. -/
def neighbours (num den : Nat) (exponent : Int) : List Decimal :=
  let n := num * Nat.pow 10 (-exponent).toNat
  let d := den * Nat.pow 10 exponent.toNat
  let near := divNearest n d
  let far := if near = n / d then near + 1 else n / d
  [⟨near, exponent⟩, ⟨far, exponent⟩]

/-- The shortest decimal number that reads back to the number without its sign, which is not
zero. -/
def shortest (x : Binary64) : Decimal :=
  let order := decimalOrder x.numerator x.denominator
  let candidates := (List.range 17).flatMap fun n : Nat =>
    neighbours x.numerator x.denominator (order - (n + 1 : Nat))
  match candidates.find? (ofDecimal · = x.withSign false) with
  | some d => d
  | none => ⟨x.numerator * Nat.pow 5 (-x.exponent).toNat, -(-x.exponent).toNat⟩

/-- The text of `0.ds * 10 ^ point`, where the first of the digits is not a zero. -/
def layout (ds : List Char) (point : Int) : List Char :=
  if 0 < point ∧ point ≤ 16 then
    let n := point.toNat
    let decimals := if n < ds.length then ds.drop n else ['0']
    ds.take n ++ List.replicate (n - ds.length) '0' ++ '.' :: decimals
  else if -5 < point ∧ point ≤ 0 then
    '0' :: '.' :: List.replicate (-point).toNat '0' ++ ds
  else
    match ds with
    | [] => []
    | [d] => d :: 'e' :: Numeral.ofInt (point - 1)
    | d :: rest => d :: '.' :: rest ++ 'e' :: Numeral.ofInt (point - 1)

/-- The text of a number: always with a point or an exponent, and of a zero with its sign. -/
def text (x : Binary64) : List Char :=
  let magnitude :=
    if x.isZero then "0.0".toList
    else
      let d := x.shortest
      let ds := Numeral.ofNat d.digits
      layout (Text.withoutTrailingZeros ds) (d.exponent + ds.length)
  if x.negative then '-' :: magnitude else magnitude

end Binary64

end Gatehouse
