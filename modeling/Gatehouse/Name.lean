import Gatehouse.Json.Reader
import Gatehouse.Text.Blank
import Gatehouse.Text.Quoted

/-!
# Names of modules and consumers

A module is a business capability with access rules of its own; a consumer is an authenticated
caller. Both are known by name.

- `ModuleName.ofString`: module names hold something other than blanks, and no slash.
- `ConsumerKey`: any text.
- `Scope`: the pair of both, the key under which decisions are kept.
-/

namespace Gatehouse

/-- The name of a module. -/
structure ModuleName where
  text : String
deriving DecidableEq, Repr, Inhabited

/-- The refusal of a text as a module name. -/
structure InvalidModuleName where
  name : String
deriving DecidableEq, Repr, Inhabited

/-- The wording of the refusal. -/
def InvalidModuleName.message (e : InvalidModuleName) : String :=
  "invalid module name: " ++ Text.quoted e.name
    ++ " (must be non-empty and must not contain '/')"

/-- Whether a text can be the name of a module. -/
def ModuleName.isValid (name : String) : Bool :=
  !Text.allBlank name && !name.toList.contains '/'

/-- The module of the given name. -/
def ModuleName.ofString (name : String) : Except InvalidModuleName ModuleName :=
  if isValid name then .ok ⟨name⟩ else .error ⟨name⟩

/-- The key of a consumer: a Digest user name or an OAuth consumer key. -/
structure ConsumerKey where
  text : String
deriving DecidableEq, Repr, Inhabited

/-- A module and a consumer. -/
structure Scope where
  module : ModuleName
  consumer : ConsumerKey
deriving DecidableEq, Repr, Inhabited

/-- Reads a scope from an array of two texts; the module name is not checked. -/
def Scope.reader : Json.Reader Scope := do
  let (m, c) ← Json.Reader.pair .string .string
  return ⟨⟨m⟩, ⟨c⟩⟩

/-- The array of the two names. -/
def Scope.toJson (s : Scope) : Json.Value :=
  .array [.string s.module.text, .string s.consumer.text]

end Gatehouse
