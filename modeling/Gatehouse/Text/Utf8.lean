/-!
# UTF-8

Texts as bytes, and bytes as texts.

- `Utf8.encode`: the bytes of a text.
- `Utf8.scan`: what a byte list spells, a symbol at a time. A malformed run (the longest start of
  a well-formed sequence that the next byte breaks, or a byte that starts none) is one gap.
- `Utf8.decode?` and `Utf8.decodeLossy` are two views of `scan`: the first refuses gaps, the
  second writes the replacement character for each.

The reader keeps one open sequence and takes one byte at a time, so that it is a fold over the
bytes and its laws are inductions on them.
-/

namespace Gatehouse

/-- Bytes, as they travel in headers and bodies. -/
abbrev Bytes := List UInt8

namespace Utf8

/-- The UTF-8 bytes of a text. -/
def encode (s : List Char) : Bytes :=
  s.flatMap String.utf8EncodeChar

/-- The UTF-8 bytes of a string. -/
def ofString (s : String) : Bytes :=
  encode s.toList

/-- A sequence that has begun: how many bytes are still wanted, the bits read so far, and the
range that the next byte has to lie in. -/
structure Pending where
  wanted : Nat
  code : Nat
  lower : Nat
  upper : Nat
deriving DecidableEq, Repr

/-- What one byte means where a character may begin. -/
inductive Lead where
  | whole (c : Char)
  | opens (p : Pending)
  | stray
deriving DecidableEq, Repr

/-- Reads the first byte of a character. The ranges for the second byte leave out overlong
forms, surrogates and code points beyond U+10FFFF. -/
def lead (b : UInt8) : Lead :=
  let n := b.toNat
  if n < 0x80 then .whole (Char.ofNat n)
  else if n < 0xC2 then .stray
  else if n < 0xE0 then .opens ⟨1, n - 0xC0, 0x80, 0xBF⟩
  else if n = 0xE0 then .opens ⟨2, 0, 0xA0, 0xBF⟩
  else if n = 0xED then .opens ⟨2, 0xD, 0x80, 0x9F⟩
  else if n < 0xF0 then .opens ⟨2, n - 0xE0, 0x80, 0xBF⟩
  else if n = 0xF0 then .opens ⟨3, 0, 0x90, 0xBF⟩
  else if n < 0xF4 then .opens ⟨3, n - 0xF0, 0x80, 0xBF⟩
  else if n = 0xF4 then .opens ⟨3, 4, 0x80, 0x8F⟩
  else .stray

/-- One byte where a character may begin: the symbols that are complete, and what stays open. -/
def start (b : UInt8) : List (Option Char) × Option Pending :=
  match lead b with
  | .whole c => ([some c], none)
  | .opens p => ([], some p)
  | .stray => ([none], none)

/-- One byte inside an open sequence. A byte outside the wanted range closes the sequence as a
gap and is read afresh. -/
def continued (p : Pending) (b : UInt8) : List (Option Char) × Option Pending :=
  let n := b.toNat
  if p.lower ≤ n ∧ n ≤ p.upper then
    let code := p.code * 64 + (n - 0x80)
    if p.wanted ≤ 1 then ([some (Char.ofNat code)], none)
    else ([], some ⟨p.wanted - 1, code, 0x80, 0xBF⟩)
  else
    let (symbols, open?) := start b
    (none :: symbols, open?)

/-- Reads on from an open sequence, or from a place where a character may begin. -/
def scanFrom : Option Pending → Bytes → List (Option Char)
  | none, [] => []
  | some _, [] => [none]
  | none, b :: rest => (start b).1 ++ scanFrom (start b).2 rest
  | some p, b :: rest => (continued p b).1 ++ scanFrom (continued p b).2 rest

/-- The symbols that a byte list spells; `none` stands for a malformed run. -/
def scan (bytes : Bytes) : List (Option Char) :=
  scanFrom none bytes

/-- The text that well-formed bytes spell, and nothing for malformed ones. -/
def decode? (bytes : Bytes) : Option (List Char) :=
  (scan bytes).mapM id

/-- The text that bytes spell, with U+FFFD for each malformed run. -/
def decodeLossy (bytes : Bytes) : List Char :=
  (scan bytes).map fun c => c.getD '\uFFFD'

end Utf8

end Gatehouse
