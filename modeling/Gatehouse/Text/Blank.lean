/-!
# Blank characters

The Unicode property White_Space, and trimming by it.

- `isBlank`: the 25 characters with the property.
- `trim`: a text without the blanks at its two ends.
- `allBlank`: a text that holds nothing else.
-/

namespace Gatehouse.Text

/-- Whether a character has the Unicode property White_Space. -/
def isBlank (c : Char) : Bool :=
  let n := c.toNat
  (9 ≤ n && n ≤ 13) || n == 0x20 || n == 0x85 || n == 0xA0 || n == 0x1680
    || (0x2000 ≤ n && n ≤ 0x200A) || n == 0x2028 || n == 0x2029 || n == 0x202F
    || n == 0x205F || n == 0x3000

/-- A text without its leading blanks. -/
def trimStart (s : List Char) : List Char :=
  s.dropWhile isBlank

/-- A text without its trailing blanks. -/
def trimEnd (s : List Char) : List Char :=
  (s.reverse.dropWhile isBlank).reverse

/-- A text without the blanks at its two ends. -/
def trim (s : List Char) : List Char :=
  trimEnd (trimStart s)

/-- Whether a text is empty or holds blanks only. -/
def allBlank (s : String) : Bool :=
  s.toList.all isBlank

end Gatehouse.Text
