import Gatehouse.Binary64.Shortest
import Gatehouse.Text.Numeral

/-!
# JSON numbers

A number without point and exponent is kept whole if it fits 64 bits. Any other number is kept in
double precision. Of its digits only the first ones count, as many as fit 64 bits; the digits left
out before the point are made up for by the exponent.

- `Number`: a number.
- `Number.ofLiteral`: the number that is meant by the parts of a literal, unless it is out of range.
- `Number.render`: its text.
-/

namespace Gatehouse.Json

/-- A number: a whole one, or one of double precision. -/
inductive Number where
  | whole (n : Int)
  | double (x : Binary64)
deriving DecidableEq, Repr, Inhabited

namespace Number

/-- Appends digits to a number for as long as it fits 64 bits. Also counts the digits that are left
out, which are all from the first one that does not fit. -/
def append (n : Nat) : List Char → Nat × Nat
  | [] => (n, 0)
  | c :: rest =>
    let longer := n * 10 + (Numeral.digit? c).getD 0
    if longer ≤ Numeral.maxUnsigned then append longer rest else (n, rest.length + 1)

/-- The value of digits that end in an exponent, in double precision. Digits after the point go on
from those before it, even if some of those were left out. -/
def scaled (negative : Bool) (whole places : List Char) (power : Int) : Option Number :=
  let (n, spare) := append 0 whole
  let (m, ignored) := append n places
  let exponent := (spare : Int) - (places.length - ignored : Nat) + power
  ((Binary64.ofRatio m 1).scaled exponent).map fun x => double (x.withSign negative)

/-- The number meant by a literal with the given digits before the point, digits after the point
and exponent. A minus sign makes a number of double precision out of a zero, which has a sign then,
and out of a number below `-2 ^ 63`. -/
def ofLiteral (negative : Bool) (whole : List Char) (places : Option (List Char))
    (power : Option Int) : Option Number :=
  match places, power, append 0 whole with
  | none, none, (n, 0) =>
    if !negative then some (.whole n)
    else if n = 0 ∨ -(n : Int) < Numeral.minSigned then
      some (.double ((Binary64.ofRatio n 1).withSign true))
    else some (.whole (-n))
  | _, _, _ => scaled negative whole (places.getD []) (power.getD 0)

/-- The text of a number. -/
def render : Number → List Char
  | .whole n => Numeral.ofInt n
  | .double x => x.text

end Number

end Gatehouse.Json
