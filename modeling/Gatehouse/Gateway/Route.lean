import Gatehouse.Access.Question
import Gatehouse.Text.Split

/-!
# Routes

What a request is about, by its method and path. Empty segments of the path do not count.

| Method | Path | Route |
|--------|------|-------|
| `GET` | `/health` | is the gateway alive? |
| `GET` | `/modules/M/actions/A` | may the caller perform the action? |
| `GET` | `/modules/M/groups/G` | is the caller in the group? |
| `GET` | `/modules/M/resources/C/I[/A]` | may the caller access the resource? |
| `POST` | `/_admin/modules/M/events/A` | something happened to the module |
-/

namespace Gatehouse

/-- What a request is about. -/
inductive Route where
  | health
  | check (module : String) (query : AccessQuery)
  | event (module action : String)
  | notFound
deriving DecidableEq, Repr, Inhabited

namespace Route

/-- The segments of a path that are not empty. -/
def segments (path : String) : List String :=
  ((Text.split '/' path.toList).filter fun s => !s.isEmpty).map String.ofList

/-- The route of a `GET` request. -/
def ofGet : List String → Route
  | ["health"] => .health
  | ["_health"] => .health
  | ["modules", m, "actions", action] => .check m (.action action)
  | ["modules", m, "groups", group] => .check m (.group group)
  | ["modules", m, "resources", c, i] =>
    .check m (.resource (.of c i ResourcePermission.wildcard))
  | ["modules", m, "resources", c, i, action] => .check m (.resource (.of c i action))
  | _ => .notFound

/-- The route of a `POST` request. -/
def ofPost : List String → Route
  | ["_admin", "modules", m, "events", action] => .event m action
  | _ => .notFound

/-- The route of a request. -/
def of (method path : String) : Route :=
  if method = "GET" then ofGet (segments path)
  else if method = "POST" then ofPost (segments path)
  else .notFound

end Route

end Gatehouse
