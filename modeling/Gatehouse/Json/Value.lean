import Gatehouse.Json.Number
import Gatehouse.Text.Hex
import Gatehouse.Text.Split

/-!
# JSON values

Values of arbitrary shape, and their compact text.

- `Value`: a JSON value. Members of an object are kept in ascending order of their names, each
  name once (`Value.ofMembers`).
- `Value.render`: the text without any blanks.
-/

namespace Gatehouse.Json

/-- A JSON value. -/
inductive Value where
  | null
  | bool (b : Bool)
  | number (n : Number)
  | string (s : String)
  | array (items : List Value)
  | object (members : List (String × Value))
deriving Repr, Inhabited

/-- Puts a named value into an ascending list; an earlier one of that name is replaced. -/
def putMember {α : Type} (name : String) (value : α) : List (String × α) → List (String × α)
  | [] => [(name, value)]
  | (n, v) :: rest =>
    if name < n then (name, value) :: (n, v) :: rest
    else if name = n then (name, value) :: rest
    else (n, v) :: putMember name value rest

/-- Named values in ascending order of the names; of two with one name the later one stays. -/
def sortMembers {α : Type} (members : List (String × α)) : List (String × α) :=
  members.foldl (fun sorted (name, value) => putMember name value sorted) []

/-- The object with the given members. -/
def Value.ofMembers (members : List (String × Value)) : Value :=
  .object (sortMembers members)

/-- A whole number as a value. -/
def Value.ofNat (n : Nat) : Value :=
  .number (.whole n)

/-- How one character is written in a string: quotes, backslashes and controls are escaped. -/
def escapeChar (c : Char) : List Char :=
  match c with
  | '"' => ['\\', '"']
  | '\\' => ['\\', '\\']
  | '\n' => ['\\', 'n']
  | '\r' => ['\\', 'r']
  | '\t' => ['\\', 't']
  | '\x08' => ['\\', 'b']
  | '\x0c' => ['\\', 'f']
  | c =>
    if c.toNat < 0x20 then
      ['\\', 'u', '0', '0', Hex.digit (c.toNat / 16), Hex.digit (c.toNat % 16)]
    else [c]

/-- A string between quotes. -/
def renderString (s : String) : List Char :=
  '"' :: s.toList.flatMap escapeChar ++ ['"']

mutual

/-- The compact text of a value. -/
def Value.render : Value → List Char
  | .null => "null".toList
  | .bool true => "true".toList
  | .bool false => "false".toList
  | .number n => n.render
  | .string s => renderString s
  | .array items => '[' :: renderItems items ++ [']']
  | .object members => '\x7b' :: renderMembers members ++ ['\x7d']

/-- The texts of values, separated by commas. -/
def renderItems : List Value → List Char
  | [] => []
  | [v] => v.render
  | v :: rest => v.render ++ ',' :: renderItems rest

/-- The texts of named values, separated by commas. -/
def renderMembers : List (String × Value) → List Char
  | [] => []
  | [(name, v)] => renderString name ++ ':' :: v.render
  | (name, v) :: rest => renderString name ++ ':' :: v.render ++ ',' :: renderMembers rest

end

/-- The compact text of a value, as a string. -/
def Value.text (v : Value) : String :=
  String.ofList v.render

end Gatehouse.Json
