import Gatehouse.Hash.Block

/-!
# SHA-1 and its keyed form

The 20-byte digest of RFC 3174, and HMAC (RFC 2104) over it.

- `schedule`: the eighty words that a block expands to.
- `sha1`: the digest of a byte list.
- `hmacSha1`: the code that authenticates a message under a key.
-/

namespace Gatehouse.Hash.Sha1

/-- The five words that are carried from block to block. -/
structure State where
  a : UInt32
  b : UInt32
  c : UInt32
  d : UInt32
  e : UInt32
deriving DecidableEq, Repr

/-- The state before the first block. -/
def initial : State :=
  ⟨0x67452301, 0xefcdab89, 0x98badcfe, 0x10325476, 0xc3d2e1f0⟩

/-- The sixteen words of a block, highest byte first. -/
def words (block : Bytes) : Array UInt32 :=
  ((chunks 3 block).map fun w => UInt32.ofNat (ofLowBytes w.reverse)).toArray

/-- The eighty words of a block: each later one mixes four earlier ones. -/
def schedule (block : Array UInt32) : Array UInt32 :=
  (List.range' 16 64).foldl
    (fun w i => w.push (rotateLeft
      (w.getD (i - 3) 0 ^^^ w.getD (i - 8) 0 ^^^ w.getD (i - 14) 0 ^^^ w.getD (i - 16) 0) 1))
    block

/-- The mixing function and the constant of round `i`. -/
def mixing (i : Nat) (s : State) : UInt32 × UInt32 :=
  match i / 20 with
  | 0 => ((s.b &&& s.c) ||| (~~~s.b &&& s.d), 0x5a827999)
  | 1 => (s.b ^^^ s.c ^^^ s.d, 0x6ed9eba1)
  | 2 => ((s.b &&& s.c) ||| (s.b &&& s.d) ||| (s.c &&& s.d), 0x8f1bbcdc)
  | _ => (s.b ^^^ s.c ^^^ s.d, 0xca62c1d6)

/-- Round `i` on the eighty words of a block. -/
def round (w : Array UInt32) (s : State) (i : Nat) : State :=
  let (mixed, constant) := mixing i s
  ⟨rotateLeft s.a 5 + mixed + s.e + constant + w.getD i 0, s.a, rotateLeft s.b 30, s.c, s.d⟩

/-- Takes one block into the state. -/
def State.absorb (s : State) (block : Array UInt32) : State :=
  let t := (List.range 80).foldl (round (schedule block)) s
  ⟨s.a + t.a, s.b + t.b, s.c + t.c, s.d + t.d, s.e + t.e⟩

/-- The bytes of a state, highest byte first. -/
def State.toBytes (s : State) : Bytes :=
  [s.a, s.b, s.c, s.d, s.e].flatMap fun w => (lowBytes 4 w.toNat).reverse

end Gatehouse.Hash.Sha1

namespace Gatehouse.Hash

/-- The SHA-1 digest of a byte list. -/
def sha1 (message : Bytes) : Bytes :=
  ((chunks 63 (closed (fun n => (lowBytes 8 n).reverse) message)).foldl
    (fun s block => s.absorb (Sha1.words block)) Sha1.initial).toBytes

/-- A key as one block: longer keys are hashed first, shorter ones filled with zeros. -/
def hmacKey (key : Bytes) : Bytes :=
  let short := if key.length > 64 then sha1 key else key
  short ++ List.replicate (64 - short.length) 0

/-- The code that authenticates a message under a key. -/
def hmacSha1 (key message : Bytes) : Bytes :=
  let block := hmacKey key
  sha1 (block.map (· ^^^ 0x5c) ++ sha1 (block.map (· ^^^ 0x36) ++ message))

end Gatehouse.Hash
