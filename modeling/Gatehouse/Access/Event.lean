import Gatehouse.Name

/-!
# Module events

What happens to a module while the gateway runs. When a module stops or its access rules change,
decisions about it may no longer hold.
-/

namespace Gatehouse

/-- What happened to a module. -/
inductive ModuleAction where
  | start
  | startFailed
  | stop
  | securityChanged
deriving DecidableEq, Repr, Inhabited

/-- The refusal of a text as the name of an action. -/
structure UnknownModuleAction where
  name : String
deriving DecidableEq, Repr, Inhabited

/-- The wording of the refusal. -/
def UnknownModuleAction.message (e : UnknownModuleAction) : String :=
  "unknown module action: " ++ e.name

namespace ModuleAction

/-- The name of an action. -/
def text : ModuleAction → String
  | .start => "START"
  | .startFailed => "START_FAILED"
  | .stop => "STOP"
  | .securityChanged => "SECURITY_CHANGED"

/-- The action of the given name. -/
def ofText (name : String) : Except UnknownModuleAction ModuleAction :=
  match [start, startFailed, stop, securityChanged].find? fun action => action.text == name with
  | some action => .ok action
  | none => .error ⟨name⟩

/-- Whether decisions about the module may no longer hold. -/
def invalidatesSecurity : ModuleAction → Bool
  | .stop => true
  | .securityChanged => true
  | _ => false

end ModuleAction

end Gatehouse
