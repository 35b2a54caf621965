import Gatehouse.Hash.Block

/-!
# MD5

The 16-byte message digest of RFC 1321.

- `State.absorb`: one block of sixteen words, in 64 rounds.
- `md5`: the digest of a byte list.
-/

namespace Gatehouse.Hash.Md5

/-- The four words that are carried from block to block. -/
structure State where
  a : UInt32
  b : UInt32
  c : UInt32
  d : UInt32
deriving DecidableEq, Repr

/-- The state before the first block. -/
def initial : State :=
  ⟨0x67452301, 0xefcdab89, 0x98badcfe, 0x10325476⟩

/-- The constants of the rounds: the binary places of `|sin (i + 1)|`. -/
def constants : Array UInt32 :=
  #[0xd76aa478, 0xe8c7b756, 0x242070db, 0xc1bdceee, 0xf57c0faf, 0x4787c62a,
    0xa8304613, 0xfd469501, 0x698098d8, 0x8b44f7af, 0xffff5bb1, 0x895cd7be,
    0x6b901122, 0xfd987193, 0xa679438e, 0x49b40821, 0xf61e2562, 0xc040b340,
    0x265e5a51, 0xe9b6c7aa, 0xd62f105d, 0x02441453, 0xd8a1e681, 0xe7d3fbc8,
    0x21e1cde6, 0xc33707d6, 0xf4d50d87, 0x455a14ed, 0xa9e3e905, 0xfcefa3f8,
    0x676f02d9, 0x8d2a4c8a, 0xfffa3942, 0x8771f681, 0x6d9d6122, 0xfde5380c,
    0xa4beea44, 0x4bdecfa9, 0xf6bb4b60, 0xbebfbc70, 0x289b7ec6, 0xeaa127fa,
    0xd4ef3085, 0x04881d05, 0xd9d4d039, 0xe6db99e5, 0x1fa27cf8, 0xc4ac5665,
    0xf4292244, 0x432aff97, 0xab9423a7, 0xfc93a039, 0x655b59c3, 0x8f0ccc92,
    0xffeff47d, 0x85845dd1, 0x6fa87e4f, 0xfe2ce6e0, 0xa3014314, 0x4e0811a1,
    0xf7537e82, 0xbd3af235, 0x2ad7d2bb, 0xeb86d391]

/-- How far round `i` rotates. -/
def rotation (i : Nat) : UInt32 :=
  let amounts : List UInt32 := match i / 16 with
    | 0 => [7, 12, 17, 22]
    | 1 => [5, 9, 14, 20]
    | 2 => [4, 11, 16, 23]
    | _ => [6, 10, 15, 21]
  amounts.getD (i % 4) 0

/-- The mixing function of round `i`, and the word of the block that it takes. -/
def mixing (i : Nat) (s : State) : UInt32 × Nat :=
  match i / 16 with
  | 0 => ((s.b &&& s.c) ||| (~~~s.b &&& s.d), i)
  | 1 => ((s.d &&& s.b) ||| (~~~s.d &&& s.c), (5 * i + 1) % 16)
  | 2 => (s.b ^^^ s.c ^^^ s.d, (3 * i + 5) % 16)
  | _ => (s.c ^^^ (s.b ||| ~~~s.d), (7 * i) % 16)

/-- Round `i` on a block of sixteen words. -/
def round (block : Array UInt32) (s : State) (i : Nat) : State :=
  let (mixed, g) := mixing i s
  let sum := s.a + mixed + constants.getD i 0 + block.getD g 0
  ⟨s.d, s.b + rotateLeft sum (rotation i), s.b, s.c⟩

/-- Takes one block into the state. -/
def State.absorb (s : State) (block : Array UInt32) : State :=
  let t := (List.range 64).foldl (round block) s
  ⟨s.a + t.a, s.b + t.b, s.c + t.c, s.d + t.d⟩

/-- The sixteen words of a block, lowest byte first. -/
def words (block : Bytes) : Array UInt32 :=
  ((chunks 3 block).map fun w => UInt32.ofNat (ofLowBytes w)).toArray

/-- The bytes of a state, lowest byte first. -/
def State.toBytes (s : State) : Bytes :=
  [s.a, s.b, s.c, s.d].flatMap fun w => lowBytes 4 w.toNat

end Gatehouse.Hash.Md5

namespace Gatehouse.Hash

/-- The MD5 digest of a byte list. -/
def md5 (message : Bytes) : Bytes :=
  ((chunks 63 (closed (lowBytes 8) message)).foldl
    (fun s block => s.absorb (Md5.words block)) Md5.initial).toBytes

end Gatehouse.Hash
