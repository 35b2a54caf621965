import Gatehouse.Text.Numeral
import Gatehouse.Text.Split
import Gatehouse.Text.Utf8

/-!
# Request targets

The addresses that a request line can hold: a path with an optional query, an asterisk, an
authority alone, or an absolute address with scheme, authority, path and query. A fragment may
be written and is forgotten.

- `Uri`: the parts of an address.
- `Uri.parse`: reads an address.
- `Uri.AuthorityState`: the rules for an authority, read from left to right.
- `Uri.host` and `Uri.port`: the parts of an authority.
-/

namespace Gatehouse

/-- The parts of an address. The scheme and the authority are absent in a mere path; the path is
empty if the address is an authority alone. -/
structure Uri where
  scheme : Option String
  authority : Option String
  path : String
  query : Option String
deriving DecidableEq, Repr, Inhabited

namespace Uri

/-! ## Schemes -/

/-- Whether a character may stand in a scheme. -/
def isSchemeChar (c : Char) : Bool :=
  c.isAlphanum || c == '+' || c == '-' || c == '.' || c == '~'

/-- Whether a text starts with another one, in any letter case. -/
def startsWith (s start : List Char) : Bool :=
  (s.take start.length).map Char.toLower == start

/-- The scheme of an address and what follows the two slashes. There is none if the characters
before the first colon are not those of a scheme; an overlong one is refused. -/
def splitScheme (s : List Char) : Option (Option (List Char) × List Char) :=
  if startsWith s "http://".toList then some (some "http".toList, s.drop 7)
  else if startsWith s "https://".toList then some (some "https".toList, s.drop 8)
  else
    let scheme := s.takeWhile isSchemeChar
    match s.dropWhile isSchemeChar with
    | ':' :: '/' :: '/' :: rest =>
      if scheme.length > 64 then none
      else if s.length ≤ 3 then some (none, s)
      else some (some scheme, rest)
    | _ => some (none, s)

/-! ## Authorities -/

/-- Whether a character may stand in an authority without further rules. -/
def isPlainAuthorityChar (c : Char) : Bool :=
  c.isAlphanum || "!$&'()*+,-.;=_~".toList.contains c

/-- What has been read of an authority: the colons in a row, whether brackets were opened and
closed, whether a percent sign is pending, and whether the last character was an at sign. -/
structure AuthorityState where
  colons : Nat
  opened : Bool
  closed : Bool
  percent : Bool
  endsInAt : Bool
deriving DecidableEq, Repr, Inhabited

/-- The state before the first character. -/
def AuthorityState.initial : AuthorityState :=
  ⟨0, false, false, false, false⟩

/-- Takes one character into the state, or refuses it. -/
def AuthorityState.step (st : AuthorityState) (c : Char) : Option AuthorityState :=
  let st := { st with endsInAt := false }
  match c with
  | ':' => if st.colons ≥ 8 then none else some { st with colons := st.colons + 1 }
  | '[' => if st.percent || st.opened then none else some { st with opened := true }
  | ']' =>
    if !st.opened || st.closed then none
    else some { st with closed := true, colons := 0, percent := false }
  | '@' => some { st with colons := 0, percent := false, endsInAt := true }
  | '%' => some { st with percent := true }
  | c => if isPlainAuthorityChar c then some st else none

/-- Whether an authority may end in this state. -/
def AuthorityState.accepts (st : AuthorityState) : Bool :=
  st.opened == st.closed && st.colons ≤ 1 && !st.endsInAt && !st.percent

/-- Whether a character ends an authority. -/
def endsAuthority (c : Char) : Bool :=
  c == '/' || c == '?' || c == '#'

/-- Whether a text without the ending characters is an authority; the empty text is one. -/
def isAuthority (s : List Char) : Bool :=
  match s.foldlM AuthorityState.step AuthorityState.initial with
  | some st => st.accepts
  | none => false

/-- The authority at the front of a text, and what follows it. -/
def splitAuthority (s : List Char) : Option (List Char × List Char) :=
  let authority := s.takeWhile fun c => !endsAuthority c
  if isAuthority authority then some (authority, s.dropWhile fun c => !endsAuthority c) else none

/-- What stands after the last of a separator; the whole text if there is none. -/
def afterLast (sep : Char) (s : List Char) : List Char :=
  (s.reverse.takeWhile (· ≠ sep)).reverse

/-- The host of an authority. Brackets belong to it. -/
def host (authority : List Char) : List Char :=
  let hostPort := afterLast '@' authority
  match hostPort with
  | '[' :: _ => hostPort.takeWhile (· ≠ ']') ++ [']']
  | _ => hostPort.takeWhile (· ≠ ':')

/-- Reads a port number. -/
def readPort (s : List Char) : Option Nat :=
  (Numeral.unsigned? s).filter (· ≤ 65535)

/-- The port of an authority: what follows its last colon, if that is a number. -/
def port (authority : List Char) : Option Nat :=
  if authority.contains ':' then readPort (afterLast ':' authority) else none

/-! ## Paths and queries -/

/-- Whether a character may stand in a path. Control characters may not, and neither may the delete
character, U+007F; what is not ASCII may. -/
def isPathChar (c : Char) : Bool :=
  let n := c.toNat
  n == 0x21 || (0x24 ≤ n && n ≤ 0x3B) || n == 0x3D || (0x40 ≤ n && n ≤ 0x5F)
    || (0x61 ≤ n && n ≤ 0x7A) || n == 0x7C || n == 0x7E
    || c == '"' || c == '\x7b' || c == '\x7d' || n ≥ 0x80

/-- Whether a character may stand in a query. The delete character may not stand here either. -/
def isQueryChar (c : Char) : Bool :=
  let n := c.toNat
  n == 0x21 || (0x24 ≤ n && n ≤ 0x3B) || n == 0x3D || (0x3F ≤ n && n ≤ 0x7E) || n ≥ 0x80

/-- A text up to its fragment. -/
def withoutFragment (s : List Char) : List Char :=
  s.takeWhile (· ≠ '#')

/-- The path and the query of what follows an authority. -/
def splitTarget (s : List Char) : Option (List Char × Option (List Char)) :=
  let s := withoutFragment s
  let path := s.takeWhile (· ≠ '?')
  let query := match s.dropWhile (· ≠ '?') with
    | [] => none
    | _ :: query => some query
  if path.all isPathChar && (query.getD []).all isQueryChar then some (path, query) else none

/-- An address with a path, which is a slash if nothing is written. -/
def ofTarget (scheme authority : Option (List Char)) (target : List Char) : Option Uri :=
  (splitTarget target).map fun (path, query) =>
    { scheme := scheme.map String.ofList
      authority := authority.map String.ofList
      path := if path.isEmpty then "/" else String.ofList path
      query := query.map String.ofList }

/-! ## Addresses -/

/-- The greatest number of bytes in an address. -/
def maxSize : Nat :=
  65534

/-- An address that is neither a path nor an asterisk. -/
def parseFull (s : List Char) : Option Uri := do
  let (scheme, rest) ← splitScheme s
  let (authority, target) ← splitAuthority rest
  match scheme with
  | none =>
    if target.isEmpty then some ⟨none, some (String.ofList authority), "", none⟩ else none
  | some scheme =>
    if authority.isEmpty then none else ofTarget (some scheme) (some authority) target

/-- Reads an address. -/
def parse (text : String) : Option Uri :=
  let s := text.toList
  if (Utf8.encode s).length > maxSize then none
  else match s with
    | [] => none
    | ['*'] => some ⟨none, none, "*", none⟩
    | '/' :: _ => ofTarget none none s
    | _ => parseFull s

/-- The text of an address. -/
def render (u : Uri) : String :=
  (u.scheme.map (· ++ "://")).getD "" ++ u.authority.getD "" ++ u.path
    ++ (u.query.map ("?" ++ ·)).getD ""

end Uri

end Gatehouse
