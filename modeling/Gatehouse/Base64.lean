import Gatehouse.Text.Utf8

/-!
# Base64

Bytes in the standard alphabet of RFC 4648, with padding.

- `encode`: three bytes as four characters; one or two bytes at the end as two or three
  characters and padding.
- `decode`: reads exactly what `encode` writes. Missing padding, spare bits that are not zero and
  every character outside the alphabet are refused.
-/

namespace Gatehouse.Base64

/-- The character for a number below 64. -/
def sextet (n : Nat) : Char :=
  if n < 26 then Char.ofNat (65 + n)
  else if n < 52 then Char.ofNat (71 + n)
  else if n < 62 then Char.ofNat (n - 4)
  else if n = 62 then '+'
  else '/'

/-- The number that a character stands for. -/
def value? (c : Char) : Option Nat :=
  let n := c.toNat
  if 65 ≤ n ∧ n ≤ 90 then some (n - 65)
  else if 97 ≤ n ∧ n ≤ 122 then some (n - 71)
  else if 48 ≤ n ∧ n ≤ 57 then some (n + 4)
  else if c = '+' then some 62
  else if c = '/' then some 63
  else none

/-- The text of a byte list. -/
def encode : Bytes → List Char
  | [] => []
  | [a] =>
    let n := a.toNat
    [sextet (n / 4), sextet (n % 4 * 16), '=', '=']
  | [a, b] =>
    let n := a.toNat * 256 + b.toNat
    [sextet (n / 1024), sextet (n / 16 % 64), sextet (n % 16 * 4), '=']
  | a :: b :: c :: rest =>
    let n := (a.toNat * 256 + b.toNat) * 256 + c.toNat
    sextet (n / 262144) :: sextet (n / 4096 % 64) :: sextet (n / 64 % 64) :: sextet (n % 64)
      :: encode rest

/-- One byte from two characters; the four spare bits have to be zero. -/
def oneByte? (a b : Char) : Option Bytes := do
  let x ← value? a
  let y ← value? b
  if y % 16 = 0 then some [UInt8.ofNat (x * 4 + y / 16)] else none

/-- Two bytes from three characters; the two spare bits have to be zero. -/
def twoBytes? (a b c : Char) : Option Bytes := do
  let x ← value? a
  let y ← value? b
  let z ← value? c
  if z % 4 = 0 then
    some [UInt8.ofNat (x * 4 + y / 16), UInt8.ofNat (y % 16 * 16 + z / 4)]
  else none

/-- Three bytes from four characters. -/
def threeBytes? (a b c d : Char) : Option Bytes := do
  let x ← value? a
  let y ← value? b
  let z ← value? c
  let w ← value? d
  some [UInt8.ofNat (x * 4 + y / 16), UInt8.ofNat (y % 16 * 16 + z / 4),
    UInt8.ofNat (z % 4 * 64 + w)]

/-- The last four characters, which may be padded. -/
def lastGroup? (a b c d : Char) : Option Bytes :=
  if d = '=' then
    if c = '=' then oneByte? a b else twoBytes? a b c
  else threeBytes? a b c d

/-- The bytes that a text stands for. -/
def decode : List Char → Option Bytes
  | [] => some []
  | [a, b, c, d] => lastGroup? a b c d
  | a :: b :: c :: d :: rest => do
    let bytes ← threeBytes? a b c d
    let more ← decode rest
    some (bytes ++ more)
  | _ => none

end Gatehouse.Base64
