import Gatehouse.Text.Hex

/-!
# Percent encoding

Characters as they are, or each byte of them as a percent sign and two hexadecimal digits.

- `encodeWith keep`: characters that `keep` admits stay, all others are written byte by byte in
  upper-case digits.
- `decodeBytes`: undoes the escapes; a percent sign that two digits do not follow stays.
- `decode`: reads a text that was percent encoded, a plus sign standing for a space.
- `oauthEncode`: the encoding of signed names and values, which keeps the unreserved characters.
-/

namespace Gatehouse.Percent

/-- Whether a character is a letter or digit of ASCII. -/
def isAlphanumeric (c : Char) : Bool :=
  c.isAlphanum

/-- The escape of one byte. -/
def escape (b : UInt8) : List Char :=
  ['%', Hex.upperDigit (b.toNat / 16), Hex.upperDigit (b.toNat % 16)]

/-- One character, as it is or escaped. -/
def encodeChar (keep : Char → Bool) (c : Char) : List Char :=
  if keep c then [c] else (String.utf8EncodeChar c).flatMap escape

/-- A text in which only the characters that `keep` admits stay as they are. -/
def encodeWith (keep : Char → Bool) (s : List Char) : List Char :=
  s.flatMap (encodeChar keep)

/-- Bytes with their escapes undone. -/
def decodeBytes : Bytes → Bytes
  | [] => []
  | [a] => [a]
  | [a, b] => [a, b]
  | a :: b :: c :: rest =>
    if a = 0x25 then
      match Hex.value? b.toNat, Hex.value? c.toNat with
      | some high, some low => UInt8.ofNat (high * 16 + low) :: decodeBytes rest
      | _, _ => a :: decodeBytes (b :: c :: rest)
    else a :: decodeBytes (b :: c :: rest)

/-- Bytes with every plus sign replaced by a space. -/
def plusToSpace (bytes : Bytes) : Bytes :=
  bytes.map fun b => if b = 0x2B then 0x20 else b

/-- Reads an encoded text: a plus sign is a space, escapes are undone, and bytes that are not
UTF-8 become U+FFFD. -/
def decode (s : List Char) : List Char :=
  Utf8.decodeLossy (decodeBytes (plusToSpace (Utf8.encode s)))

/-- Whether a character is unreserved: a letter, a digit, or one of four marks. -/
def isUnreserved (c : Char) : Bool :=
  isAlphanumeric c || c == '-' || c == '_' || c == '.' || c == '~'

/-- The encoding of signed names and values. -/
def oauthEncode (s : List Char) : List Char :=
  encodeWith isUnreserved s

end Gatehouse.Percent
