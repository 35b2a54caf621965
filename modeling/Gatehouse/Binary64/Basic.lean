/-!
# Numbers of double precision

A number of double precision is a whole number of at most 53 bits times a power of two, and the
power is at least `2 ^ (-1074)`. Every operation is defined as the exact result, rounded once to
the nearest such number, and of two equally near ones to the even one. Exact results are ratios of
natural numbers, so nothing is lost on the way to the rounding.

- `Binary64`: a number with its sign.
- `Binary64.ofRatio`: the number nearest to a ratio. It has no upper limit; `isFinite` tells
  whether the result is within the range of the format.
- `mul`, `div`: product and quotient.
- `scaled`: a number times a power of ten, in the steps in which a decimal text is read. Because a
  step may round, the result is not always the number nearest to the text.
-/

namespace Gatehouse

/-- A number of double precision, `significand * 2 ^ exponent` with a sign of its own. -/
structure Binary64 where
  negative : Bool
  significand : Nat
  exponent : Int
deriving DecidableEq, Repr, Inhabited

namespace Binary64

/-! ## Rounding -/

/-- The least exponent. -/
def minExponent : Int := -1074

/-- The greatest exponent within the range of the format. -/
def maxExponent : Int := 971

/-- The whole number nearest to `num / den`; of two equally near ones the even one. -/
def divNearest (num den : Nat) : Nat :=
  let q := num / den
  let twice := 2 * (num % den)
  if twice < den then q
  else if twice = den ∧ q % 2 = 0 then q
  else q + 1

/-- The number of times that `2 ^ e` fits into `num / den`, to the nearest. -/
def quotientAt (num den : Nat) (e : Int) : Nat :=
  divNearest (num * Nat.pow 2 (-e).toNat) (den * Nat.pow 2 e.toNat)

/-- The exponent of the highest power of two that is at most `num / den`. The difference of the
logarithms is this exponent or one more. -/
def binaryOrder (num den : Nat) : Int :=
  let d : Int := (Nat.log2 num : Int) - (Nat.log2 den : Int)
  if den * Nat.pow 2 d.toNat ≤ num * Nat.pow 2 (-d).toNat then d else d - 1

/-- Zero without a minus sign. -/
def zero : Binary64 :=
  ⟨false, 0, minExponent⟩

/-- The number nearest to `num / den`, whose significand has 53 bits unless that takes an exponent
below the least one. Rounding up may carry into a bit more, and then the significand is halved. -/
def ofRatio (num den : Nat) : Binary64 :=
  if num = 0 then zero
  else
    let wanted := binaryOrder num den - 52
    let e := if wanted < minExponent then minExponent else wanted
    let n := quotientAt num den e
    if n = Nat.pow 2 53 then ⟨false, Nat.pow 2 52, e + 1⟩ else ⟨false, n, e⟩

/-- Whether a number is within the range of the format. -/
def isFinite (x : Binary64) : Bool :=
  x.exponent ≤ maxExponent

/-! ## Operations -/

/-- Whether a number is zero, of either sign. -/
def isZero (x : Binary64) : Bool :=
  x.significand == 0

/-- The numerator of the exact value without the sign. -/
def numerator (x : Binary64) : Nat :=
  x.significand * Nat.pow 2 x.exponent.toNat

/-- The denominator of the exact value. -/
def denominator (x : Binary64) : Nat :=
  Nat.pow 2 (-x.exponent).toNat

/-- The same number with the given sign. -/
def withSign (negative : Bool) (x : Binary64) : Binary64 :=
  { x with negative := negative }

/-- The product of two numbers. -/
def mul (x y : Binary64) : Binary64 :=
  (ofRatio (x.numerator * y.numerator) (x.denominator * y.denominator)).withSign
    (x.negative != y.negative)

/-- The quotient of a number by one that is not zero. -/
def div (x y : Binary64) : Binary64 :=
  (ofRatio (x.numerator * y.denominator) (x.denominator * y.numerator)).withSign
    (x.negative != y.negative)

/-! ## Powers of ten -/

/-- The greatest power of ten within the range of the format. -/
def maxPower : Nat := 308

/-- A power of ten. -/
def tenTo (places : Nat) : Binary64 :=
  ofRatio (Nat.pow 10 places) 1

/-- Divides by a power of ten, `10 ^ 308` at a time. Zero stays as it is. -/
def divTenTo (x : Binary64) (places : Nat) : Binary64 :=
  if places ≤ maxPower then x.div (tenTo places)
  else if x.isZero then x
  else divTenTo (x.div (tenTo maxPower)) (places - maxPower)
termination_by places
decreasing_by simp only [maxPower] at *; omega

/-- The number times a power of ten, unless that is out of range. -/
def scaled (x : Binary64) : Int → Option Binary64
  | .negSucc n => some (x.divTenTo (n + 1))
  | .ofNat n =>
    if n ≤ maxPower then (some (x.mul (tenTo n))).filter isFinite
    else if x.isZero then some x
    else none

end Binary64

end Gatehouse
