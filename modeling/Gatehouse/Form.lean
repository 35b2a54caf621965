import Gatehouse.Percent
import Gatehouse.Text.Split

/-!
# Form-encoded parameters

Lists of names and values in the format of `application/x-www-form-urlencoded`.

- `Param`: a name and a value, in the order of the text.
- `parse`: pieces between ampersands, cut at the first equals sign; empty pieces are skipped.
- `render`: the inverse writer.
-/

namespace Gatehouse

/-- A named value of a request. -/
structure Param where
  name : String
  value : String
deriving DecidableEq, Repr, Inhabited

namespace Form

/-- The name and value of one piece; a piece without equals sign has an empty value. -/
def readPair (piece : List Char) : Param :=
  let (name, value) := (Text.splitOnce '=' piece).getD (piece, [])
  ⟨String.ofList (Percent.decode name), String.ofList (Percent.decode value)⟩

/-- The parameters of a form-encoded text. -/
def parse (s : List Char) : List Param :=
  ((Text.split '&' s).filter fun piece => !piece.isEmpty).map readPair

/-- Whether a character stays as it is in a form. -/
def stays (c : Char) : Bool :=
  Percent.isAlphanumeric c || c == '*' || c == '-' || c == '.' || c == '_'

/-- One character of a name or value. -/
def encodeChar (c : Char) : List Char :=
  if c = ' ' then ['+'] else Percent.encodeChar stays c

/-- A name or value. -/
def encode (s : List Char) : List Char :=
  s.flatMap encodeChar

/-- One name and value. -/
def renderPair (p : Param) : List Char :=
  encode p.name.toList ++ '=' :: encode p.value.toList

/-- The form-encoded text of parameters. -/
def render (params : List Param) : List Char :=
  Text.join ['&'] (params.map renderPair)

end Form

end Gatehouse
