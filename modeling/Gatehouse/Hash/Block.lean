import Gatehouse.Text.Utf8

/-!
# Messages in blocks

What the two hash functions share: a message is closed by a one bit, zeros and its length in
bits, cut into blocks of 64 bytes, and each block is folded into the running state.

- `closed`: the message with its closing bytes, a whole number of blocks.
- `chunks`: the pieces of a list of a given length.
- `rotateLeft`: rotation of a 32-bit word.
-/

namespace Gatehouse.Hash

/-- The pieces of a list of `n + 1` elements each; the last one may be shorter. -/
def chunks {α : Type} (n : Nat) (xs : List α) : List (List α) :=
  match xs with
  | [] => []
  | x :: rest => (x :: rest.take n) :: chunks n (rest.drop n)
termination_by xs.length
decreasing_by simp only [List.length_cons, List.length_drop]; omega

/-- The least significant `count` bytes of a number, the lowest first. -/
def lowBytes : Nat → Nat → Bytes
  | 0, _ => []
  | count + 1, n => UInt8.ofNat (n % 256) :: lowBytes count (n / 256)

/-- The number that bytes spell, the lowest first. -/
def ofLowBytes : Bytes → Nat
  | [] => 0
  | b :: rest => b.toNat + 256 * ofLowBytes rest

/-- The number of zero bytes between the one bit and the length. -/
def gap (length : Nat) : Nat :=
  (119 - length % 64) % 64

/-- A message with its closing bytes; `length8` writes the length in eight bytes. -/
def closed (length8 : Nat → Bytes) (message : Bytes) : Bytes :=
  message ++ 0x80 :: List.replicate (gap message.length) 0 ++ length8 (message.length * 8)

/-- Rotation of a word to the left. -/
def rotateLeft (x n : UInt32) : UInt32 :=
  (x <<< n) ||| (x >>> (32 - n))

end Gatehouse.Hash
