import Gatehouse.Json.Reader
import Gatehouse.Table
import Gatehouse.Text.Blank

/-!
# Permissions on resources

A permission names a class of resources, one resource of it, and an action. Each of the three may
be the wildcard `ALL`; blank names are read as the wildcard.

- `ResourcePermission.of`: the permission of three names.
- `ResourcePermission.covers`: a granted permission covers a requested one if they agree in every
  field, where a wildcard on either side agrees with everything.
- `GroupRules`: what the members of each group of a module are permitted.
-/

namespace Gatehouse

/-- A resource class, a resource and an action. -/
structure ResourcePermission where
  resourceClass : String
  resourceId : String
  action : String
deriving DecidableEq, Repr, Inhabited

namespace ResourcePermission

/-- The name that stands for every name. -/
def wildcard : String :=
  "ALL"

/-- A name as a field of a permission: a blank one is the wildcard. -/
def field (name : String) : String :=
  if Text.allBlank name then wildcard else name

/-- The permission of three names. -/
def of (resourceClass resourceId action : String) : ResourcePermission :=
  ⟨field resourceClass, field resourceId, field action⟩

/-- The permission for everything. -/
def all : ResourcePermission :=
  of wildcard wildcard wildcard

/-- The permission for an action on every resource. -/
def everywhere (action : String) : ResourcePermission :=
  of wildcard wildcard action

/-- Whether two fields agree. -/
def agree (granted requested : String) : Bool :=
  granted == wildcard || requested == wildcard || granted == requested

/-- Whether a granted permission covers a requested one. -/
def covers (granted requested : ResourcePermission) : Bool :=
  agree granted.resourceClass requested.resourceClass
    && agree granted.resourceId requested.resourceId
    && agree granted.action requested.action

/-- The three names, separated by colons. -/
def text (p : ResourcePermission) : String :=
  p.resourceClass ++ ":" ++ p.resourceId ++ ":" ++ p.action

/-- The three names. -/
def names (p : ResourcePermission) : List String :=
  [p.resourceClass, p.resourceId, p.action]

open Json.Reader in
/-- The fields of the JSON form. -/
def fields : List (RecordField ResourcePermission) :=
  [.withDefault "resourceClass" string fun v p => { p with resourceClass := v },
   .withDefault "resourceId" string fun v p => { p with resourceId := v },
   .withDefault "action" string fun v p => { p with action := v }]

/-- Reads the JSON form, in which every field may be left out. -/
def reader : Json.Reader ResourcePermission := do
  let p ← Json.Reader.record fields ⟨"", "", ""⟩
  return of p.resourceClass p.resourceId p.action

/-- The JSON form. -/
def toJson (p : ResourcePermission) : Json.Value :=
  .ofMembers [("resourceClass", .string p.resourceClass), ("resourceId", .string p.resourceId),
    ("action", .string p.action)]

end ResourcePermission

/-- What the members of each group are permitted. -/
abbrev GroupRules := Table String (List ResourcePermission)

namespace GroupRules

/-- Whether there are rules for a group. -/
def hasGroup (rules : GroupRules) (group : String) : Bool :=
  (rules.get? group).isSome

/-- Whether some rule covers a requested permission. -/
def grant (rules : GroupRules) (requested : ResourcePermission) : Bool :=
  rules.entries.any fun (_, granted) => granted.any (·.covers requested)

end GroupRules

end Gatehouse
