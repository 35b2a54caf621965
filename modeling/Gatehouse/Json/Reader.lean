import Gatehouse.Json.Value

/-!
# Reading JSON into typed data

A reader takes what it wants from the front of a text and stops at the first problem. There are
three kinds of problem (`Fault`): the text ends early, it is not JSON, or it is JSON of another
shape than wanted.

- `Reader`: a step of reading; it keeps the rest of the text and the levels of nesting left.
- `string`, `bool`, `unsigned`, `optional`, `list`, `members`: readers of the basic shapes.
- `value`: any value, nested to at most 127 levels.
- `record`: a structure, given as an object or as an array of its fields. Unknown names are
  skipped, repeated and missing ones are a problem of shape.
- `document`: runs a reader on a whole text.
-/

namespace Gatehouse.Json

/-- Why a text could not be read. -/
inductive Fault where
  /-- The text ends early. -/
  | ended
  /-- The text is not JSON. -/
  | malformed
  /-- The text is JSON so far, but not of the wanted shape. -/
  | unsuitable
deriving DecidableEq, Repr, Inhabited

/-- The usual word for each kind of problem. -/
def Fault.category : Fault → String
  | .ended => "eof"
  | .malformed => "syntax"
  | .unsuitable => "data"

/-- Where reading has come to: the rest of the text, and how many levels may still be opened. -/
structure Cursor where
  rest : List Char
  depth : Nat
deriving Repr, Inhabited

/-- A step of reading. -/
abbrev Reader (α : Type) := StateT Cursor (Except Fault) α

namespace Reader

/-! ## Characters -/

/-- The rest of the text. -/
def remaining : Reader (List Char) := do
  return (← get).rest

/-- Goes on to the given rest. -/
def moveTo (rest : List Char) : Reader Unit :=
  modify fun cursor => ⟨rest, cursor.depth⟩

/-- Whether a character may stand between tokens. -/
def isGap (c : Char) : Bool :=
  c == ' ' || c == '\n' || c == '\t' || c == '\r'

/-- The next character that is not a gap, without taking it. -/
def peek : Reader (Option Char) := do
  let rest := (← remaining).dropWhile isGap
  moveTo rest
  return rest.head?

/-- The next character that is not a gap; the text must not end here. -/
def peekOr (fault : Fault) : Reader Char := do
  match ← peek with
  | some c => return c
  | none => throw fault

/-- Takes one character. -/
def drop : Reader Unit := do
  moveTo ((← remaining).drop 1)

/-- Takes the given letters. -/
def letters : List Char → Reader Unit
  | [] => return
  | c :: more => do
    match ← remaining with
    | [] => throw .ended
    | d :: rest =>
      if c = d then do
        moveTo rest
        letters more
      else throw .malformed

/-! ## Strings -/

/-- Four hexadecimal digits at the front of a text. -/
def hexFour (s : List Char) : Except Fault (Nat × List Char) :=
  if (Utf8.encode (s.take 4)).length < 4 then .error .ended
  else match s with
    | a :: b :: c :: d :: rest =>
      match Hex.value? a.toNat, Hex.value? b.toNat, Hex.value? c.toNat, Hex.value? d.toNat with
      | some w, some x, some y, some z => .ok (((w * 16 + x) * 16 + y) * 16 + z, rest)
      | _, _, _, _ => .error .malformed
    | _ => .error .malformed

/-- The second half of a pair of escapes that together name one character. -/
def lowSurrogate (s : List Char) : Except Fault (Nat × List Char) :=
  match s with
  | [] => .error .ended
  | ['\\'] => .error .ended
  | '\\' :: 'u' :: rest =>
    match hexFour rest with
    | .error fault => .error fault
    | .ok (n, rest) => if 0xDC00 ≤ n ∧ n ≤ 0xDFFF then .ok (n, rest) else .error .malformed
  | _ => .error .malformed

/-- The character named by the digits after `\u`. Halves of a pair have to come together, unless
the text is only skipped. -/
def numbered (skipping : Bool) (s : List Char) : Except Fault (Char × List Char) :=
  match hexFour s with
  | .error fault => .error fault
  | .ok (n, rest) =>
    if skipping then .ok ('\uFFFD', rest)
    else if 0xDC00 ≤ n ∧ n ≤ 0xDFFF then .error .malformed
    else if 0xD800 ≤ n ∧ n ≤ 0xDBFF then
      match lowSurrogate rest with
      | .error fault => .error fault
      | .ok (low, rest) =>
        .ok (Char.ofNat (0x10000 + (n - 0xD800) * 0x400 + (low - 0xDC00)), rest)
    else .ok (Char.ofNat n, rest)

/-- The character that an escape stands for; the backslash has been read. -/
def escaped (skipping : Bool) (s : List Char) : Except Fault (Char × List Char) :=
  match s with
  | [] => .error .ended
  | '"' :: rest => .ok ('"', rest)
  | '\\' :: rest => .ok ('\\', rest)
  | '/' :: rest => .ok ('/', rest)
  | 'b' :: rest => .ok ('\x08', rest)
  | 'f' :: rest => .ok ('\x0c', rest)
  | 'n' :: rest => .ok ('\n', rest)
  | 'r' :: rest => .ok ('\r', rest)
  | 't' :: rest => .ok ('\t', rest)
  | 'u' :: rest => numbered skipping rest
  | _ => .error .malformed

/-- The characters up to the closing quote, in reverse, and what follows it. Every step takes at
least one character, so the text itself serves as the supply of steps. -/
def charsFrom (skipping : Bool) :
    List Char → List Char → List Char → Except Fault (List Char × List Char)
  | [], _, _ => .error .ended
  | _ :: _, _, [] => .error .ended
  | _ :: steps, seen, c :: rest =>
    if c = '"' then .ok (seen, rest)
    else if c = '\\' then
      match escaped skipping rest with
      | .error fault => .error fault
      | .ok (d, rest) => charsFrom skipping steps (d :: seen) rest
    else if c.toNat < 0x20 then .error .malformed
    else charsFrom skipping steps (c :: seen) rest

/-- The rest of a string whose opening quote has been read. -/
def stringTail (skipping : Bool) : Reader String := do
  let s ← remaining
  let (reversed, rest) ← (charsFrom skipping s [] s : Except Fault _)
  moveTo rest
  return String.ofList reversed.reverse

/-! ## Numbers -/

/-- The digits at the front of the text. -/
def digits : Reader (List Char) := do
  let s ← remaining
  moveTo (s.dropWhile Char.isDigit)
  return s.takeWhile Char.isDigit

/-- One or more digits. The end of the text in their place is a problem of its own, except in a
number that is only skipped. -/
def someDigits (skipping : Bool) : Reader (List Char) := do
  match ← digits with
  | [] => throw (if !skipping && (← remaining).isEmpty then .ended else .malformed)
  | ds => return ds

/-- The digits before the point: a zero alone, or digits that do not start with one. -/
def leadingDigits (skipping : Bool) : Reader (List Char) := do
  match ← someDigits skipping with
  | '0' :: _ :: _ => throw .malformed
  | ds => return ds

/-- The value of a list of digits. -/
def valueOf (ds : List Char) : Nat :=
  (Numeral.digitsFrom? 0 ds).getD 0

/-- An exponent, if there is one. -/
def exponent (skipping : Bool) : Reader (Option Int) := do
  match ← remaining with
  | c :: rest =>
    if c = 'e' ∨ c = 'E' then do
      moveTo rest
      match ← remaining with
      | '-' :: rest => do
        moveTo rest
        return some (-(valueOf (← someDigits skipping) : Int))
      | '+' :: rest => do
        moveTo rest
        return some (valueOf (← someDigits skipping))
      | _ => return some (valueOf (← someDigits skipping))
    else return none
  | [] => return none

/-- Digits after a point, if there is one. -/
def fraction (skipping : Bool) : Reader (Option (List Char)) := do
  match ← remaining with
  | '.' :: rest => do
    moveTo rest
    return some (← someDigits skipping)
  | _ => return none

/-- A number, which must not be out of range unless it is only skipped. -/
def number (skipping : Bool) : Reader Number := do
  let negative ← match ← remaining with
    | '-' :: rest => do
      moveTo rest
      pure true
    | _ => pure false
  let whole ← leadingDigits skipping
  let places ← fraction skipping
  let power ← exponent skipping
  match Number.ofLiteral negative whole places power with
  | some n => return n
  | none => if skipping then return default else throw .malformed

/-! ## Between the elements -/

/-- Reads inside one more level of nesting. -/
def nested {α : Type} (inner : Reader α) : Reader α := do
  let cursor ← get
  if cursor.depth ≤ 1 then throw .malformed
  set ({ cursor with depth := cursor.depth - 1 } : Cursor)
  let result ← inner
  modify fun after => ⟨after.rest, cursor.depth⟩
  return result

/-- Whether another element of an array follows. -/
def hasElement (first : Bool) : Reader Bool := do
  let c ← peekOr .ended
  if c = ']' then return false
  else if first then return true
  else if c = ',' then do
    drop
    let d ← peekOr .ended
    if d = ']' then throw .malformed else return true
  else throw .malformed

/-- The end of an array. -/
def endArray : Reader Unit := do
  let c ← peekOr .ended
  if c = ']' then drop else throw .malformed

/-- Whether another name of an object follows. -/
def hasName (first : Bool) : Reader Bool := do
  let c ← peekOr .ended
  if c = '\x7d' then return false
  else if first then
    if c = '"' then return true else throw .malformed
  else if c = ',' then do
    drop
    let d ← peekOr .ended
    if d = '"' then return true else throw .malformed
  else throw .malformed

/-- The end of an object. -/
def endObject : Reader Unit := do
  let c ← peekOr .ended
  if c = '\x7d' then drop else throw .malformed

/-- A name of an object, whose quote is next. -/
def name (skipping : Bool) : Reader String := do
  drop
  stringTail skipping

/-- The value that belongs to a name, after a colon. -/
def named {α : Type} (inner : Reader α) : Reader α := do
  let c ← peekOr .ended
  if c = ':' then drop else throw .malformed
  inner

/-- Reads elements of an array while there are any. Each takes at least one character, so the text
itself serves as the supply of steps, and with the steps the text is at its end. -/
def elementsFrom {α : Type} (item : Reader α) : List Char → List α → Reader (List α)
  | [], _ => throw .ended
  | _ :: steps, seen => do
    if ← hasElement seen.isEmpty then
      elementsFrom item steps ((← item) :: seen)
    else return seen.reverse

/-- The elements of an array whose bracket has been read, up to its end. -/
def elements {α : Type} (item : Reader α) : Reader (List α) := do
  let items ← elementsFrom item (← remaining) []
  endArray
  return items

/-- Reads members of an object while there are any, folding them into a state. What a member
reads starts at the colon. -/
def membersFrom {σ : Type} (skipping : Bool) (member : String → σ → Reader σ) :
    List Char → Bool → σ → Reader σ
  | [], _, _ => throw .ended
  | _ :: steps, first, state => do
    if ← hasName first then
      let n ← name skipping
      membersFrom skipping member steps false (← member n state)
    else return state

/-- The members of an object whose bracket has been read, folded into a state. -/
def foldMembers {σ : Type} (skipping : Bool) (member : String → σ → Reader σ) (state : σ) :
    Reader σ := do
  membersFrom skipping member (← remaining) true state

/-! ## Values of any shape -/

/-- Skips a value, however deeply it is nested. Every level takes at least one character. -/
def skipFrom : List Char → Reader Unit
  | [] => throw .ended
  | _ :: steps => do
    let c ← peekOr .ended
    if c = 'n' then letters "null".toList
    else if c = 't' then letters "true".toList
    else if c = 'f' then letters "false".toList
    else if c = '"' then do
      drop
      let _ ← stringTail true
    else if c = '-' ∨ c.isDigit then do
      let _ ← number true
    else if c = '[' then do
      drop
      let _ ← elements (skipFrom steps)
    else if c = '\x7b' then do
      drop
      foldMembers true (fun _ _ => named (skipFrom steps)) ()
      endObject
    else throw .malformed

/-- Skips a value. -/
def skip : Reader Unit := do
  skipFrom (← remaining)

/-- Reads a value of at most the given nesting. -/
def valueFrom : Nat → Reader Value
  | 0 => throw .malformed
  | levels + 1 => do
    let c ← peekOr .ended
    if c = 'n' then do
      letters "null".toList
      return .null
    else if c = 't' then do
      letters "true".toList
      return .bool true
    else if c = 'f' then do
      letters "false".toList
      return .bool false
    else if c = '"' then do
      drop
      return .string (← stringTail false)
    else if c = '-' ∨ c.isDigit then return .number (← number false)
    else if c = '[' then do
      drop
      return .array (← nested (elements (valueFrom levels)))
    else if c = '\x7b' then do
      drop
      let seen ← nested do
        let seen ← foldMembers false
          (fun n seen => return (n, ← named (valueFrom levels)) :: seen) []
        endObject
        return seen
      return .ofMembers seen.reverse
    else throw .malformed

/-- Reads a value of any shape. -/
def value : Reader Value := do
  valueFrom ((← get).depth + 1)

/-- The problem of a value of another shape than wanted: its first token still has to be
well-formed. -/
def mismatch {α : Type} : Reader α := do
  let c ← peekOr .ended
  if c = 'n' then letters "null".toList
  else if c = 't' then letters "true".toList
  else if c = 'f' then letters "false".toList
  else if c = '"' then do
    drop
    let _ ← stringTail false
  else if c = '-' ∨ c.isDigit then do
    let _ ← number false
  else if c = '[' ∨ c = '\x7b' then pure ()
  else throw .malformed
  throw .unsuitable

/-! ## Wanted shapes -/

/-- A string. -/
def string : Reader String := do
  if (← peekOr .ended) = '"' then do
    drop
    stringTail false
  else mismatch

/-- A truth value. -/
def bool : Reader Bool := do
  let c ← peekOr .ended
  if c = 't' then do
    letters "true".toList
    return true
  else if c = 'f' then do
    letters "false".toList
    return false
  else mismatch

/-- A natural number below `2 ^ 64`, without point or exponent. -/
def unsigned : Reader Nat := do
  let c ← peekOr .ended
  if c.isDigit then
    match ← number false with
    | .whole n => return n.toNat
    | .double _ => throw .unsuitable
  else mismatch

/-- A value that may be null. -/
def optional {α : Type} (inner : Reader α) : Reader (Option α) := do
  match ← peek with
  | some 'n' => do
    letters "null".toList
    return none
  | _ => return some (← inner)

/-- A list of values of one shape. -/
def list {α : Type} (item : Reader α) : Reader (List α) := do
  if (← peekOr .ended) = '[' then do
    drop
    nested (elements item)
  else mismatch

/-- An object with values of one shape, in ascending order of the names. -/
def members {α : Type} (item : Reader α) : Reader (List (String × α)) := do
  if (← peekOr .ended) = '\x7b' then do
    drop
    let seen ← nested do
      let seen ← foldMembers false (fun n seen => return (n, ← named item) :: seen) []
      endObject
      return seen
    return sortMembers seen.reverse
  else mismatch

/-- A list of exactly two values. -/
def pair {α β : Type} (first : Reader α) (second : Reader β) : Reader (α × β) := do
  if (← peekOr .ended) = '[' then do
    drop
    nested do
      if !(← hasElement true) then throw .unsuitable
      let a ← first
      if !(← hasElement false) then throw .unsuitable
      let b ← second
      endArray
      return (a, b)
  else mismatch

/-! ## Records -/

/-- A field of a record under construction: its name, whether it may be left out, and how its
value is read into the record. -/
structure RecordField (σ : Type) where
  name : String
  optional : Bool
  read : Reader (σ → σ)

/-- A field that must be given. -/
def RecordField.required {σ α : Type} (name : String) (inner : Reader α) (put : α → σ → σ) :
    RecordField σ :=
  ⟨name, false, return put (← inner)⟩

/-- A field that keeps its starting value when it is left out. -/
def RecordField.withDefault {σ α : Type} (name : String) (inner : Reader α) (put : α → σ → σ) :
    RecordField σ :=
  ⟨name, true, return put (← inner)⟩

/-- Reads the fields of a record from an array, in their order. -/
def fieldsInOrder {σ : Type} : Bool → List (RecordField σ) → σ → Reader σ
  | _, [], record => return record
  | first, field :: rest, record => do
    if ← hasElement first then
      let put ← field.read
      fieldsInOrder false rest (put record)
    else if field.optional then fieldsInOrder first rest record
    else throw .unsuitable

/-- Reads one member of a record, given as an object; `seen` holds the names met so far. -/
def readMember {σ : Type} (fields : List (RecordField σ)) (n : String) (state : List String × σ) :
    Reader (List String × σ) := do
  match fields.find? (·.name == n) with
  | none => do
    named skip
    return state
  | some field =>
    if state.1.contains n then throw .unsuitable
    let put ← named field.read
    return (n :: state.1, put state.2)

/-- A record with the given fields, starting from default values. -/
def record {σ : Type} (fields : List (RecordField σ)) (start : σ) : Reader σ := do
  let c ← peekOr .ended
  if c = '[' then do
    drop
    nested do
      let result ← fieldsInOrder true fields start
      endArray
      return result
  else if c = '\x7b' then do
    drop
    nested do
      let (seen, result) ← foldMembers false (readMember fields) ([], start)
      if fields.all fun field => field.optional || seen.contains field.name then
        endObject
        return result
      else throw .unsuitable
  else mismatch

end Reader

/-- Runs a reader on a whole text, after which nothing but gaps may follow. -/
def document {α : Type} (reader : Reader α) (text : String) : Except Fault α := do
  let (result, cursor) ← reader.run ⟨text.toList, 128⟩
  if cursor.rest.all Reader.isGap then .ok result else .error .malformed

end Gatehouse.Json
