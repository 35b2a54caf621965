import Gatehouse.Text.Hex
import Gatehouse.Text.Printable

/-!
# Quoted text

Texts as error messages show them: between double quotes, with everything that could mislead the
eye escaped.

- Quotes, backslashes and the common controls have escapes of two characters.
- Every other character that is combining or has no printed form is written by its number.
-/

namespace Gatehouse.Text

/-- The escape that writes a character by its number. -/
def numberEscape (c : Char) : List Char :=
  ['\\', 'u', '\x7b'] ++ Hex.ofNat c.toNat ++ ['\x7d']

/-- How one character is written between quotes. -/
def quotedChar (c : Char) : List Char :=
  match c with
  | '\x00' => ['\\', '0']
  | '\t' => ['\\', 't']
  | '\r' => ['\\', 'r']
  | '\n' => ['\\', 'n']
  | '"' => ['\\', '"']
  | '\\' => ['\\', '\\']
  | c => if isCombining c || !isPrintable c then numberEscape c else [c]

/-- A text between double quotes, escaped. -/
def quoted (s : String) : String :=
  String.ofList ('"' :: s.toList.flatMap quotedChar ++ ['"'])

end Gatehouse.Text
