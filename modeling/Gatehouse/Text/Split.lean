/-!
# Splitting and joining

Pieces of a text between separators.

- `split` and `join`: every separator cuts; joining gives the text back.
- `splitOnce`: only the first separator cuts.
- `splitOutsideQuotes`: separators inside double quotes do not cut.
- `unquote`: takes off the quotes around a piece.
-/

namespace Gatehouse.Text

/-- Puts a character in front of the first piece. -/
def consHead (c : Char) : List (List Char) → List (List Char)
  | [] => [[c]]
  | piece :: pieces => (c :: piece) :: pieces

/-- The pieces of a text between separators; a text without separator is one piece. -/
def split (sep : Char) : List Char → List (List Char)
  | [] => [[]]
  | c :: rest => if c = sep then [] :: split sep rest else consHead c (split sep rest)

/-- The pieces of a text, written one after the other with separators between them. -/
def join (sep : List Char) : List (List Char) → List Char
  | [] => []
  | [piece] => piece
  | piece :: pieces => piece ++ sep ++ join sep pieces

/-- What stands before and after the first separator. -/
def splitOnce (sep : Char) : List Char → Option (List Char × List Char)
  | [] => none
  | c :: rest =>
    if c = sep then some ([], rest)
    else (splitOnce sep rest).map fun (before, after) => (c :: before, after)

/-- The pieces of a text between separators, reading from inside or outside quotes. -/
def splitQuotedFrom (sep : Char) : Bool → List Char → List (List Char)
  | _, [] => [[]]
  | quoted, c :: rest =>
    if c = '"' then consHead c (splitQuotedFrom sep (!quoted) rest)
    else if c = sep ∧ quoted = false then [] :: splitQuotedFrom sep quoted rest
    else consHead c (splitQuotedFrom sep quoted rest)

/-- The pieces of a text between the separators that stand outside double quotes. An unclosed
quote reaches to the end of the text. -/
def splitOutsideQuotes (sep : Char) (s : List Char) : List (List Char) :=
  splitQuotedFrom sep false s

/-- A text without the quotes around it, if there are two. -/
def unquote (s : List Char) : List Char :=
  match s with
  | '"' :: rest => if rest.getLast? = some '"' then rest.dropLast else s
  | s => s

/-- A text without the given first characters, if it starts with them. -/
def dropStart? : List Char → List Char → Option (List Char)
  | [], s => some s
  | _ :: _, [] => none
  | p :: ps, c :: s => if p = c then dropStart? ps s else none

end Gatehouse.Text
