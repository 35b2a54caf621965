import Gatehouse.Access.Entitlements

/-!
# Scripted backends

A permission backend that follows a script, to see how decisions fare when things go wrong: it
fails, answers too late, has modules invalidated while it is being asked, or asks back.

- `Cue`: which lookups a line of the script is for, and how often.
- `Trouble`: what happens then.
- `Scripted`: entitlements and a script. At each lookup the first line that fits is used; what
  the entitlements say is answered afterwards, unless the lookup failed.
-/

namespace Gatehouse

/-- What goes wrong. -/
inductive Trouble where
  /-- The lookup fails. -/
  | fail (error : BackendError)
  /-- The answer comes after the deadline. -/
  | late
  /-- A module is invalidated during the lookup. -/
  | invalidate (module : ModuleName)
  /-- The entitlements change before they are looked up. -/
  | replace (contents : Entitlements)
  /-- The backend asks back during the lookup. -/
  | ask (scope : Scope) (inquiry : Inquiry)
deriving Repr, Inhabited

/-- Which lookups a line of the script is for. What is left open fits every lookup. -/
structure Cue where
  kind : Option String
  subject : Option String
  module : Option String
  consumer : Option String
deriving DecidableEq, Repr, Inhabited

/-- Whether something that may be left open fits. -/
def fitsOpen (wanted : Option String) (found : String) : Bool :=
  match wanted with
  | none => true
  | some w => w == found

/-- Whether a lookup is one that a line of the script is for. -/
def Cue.fits (cue : Cue) (l : Lookup) : Bool :=
  fitsOpen cue.kind l.question.kind && fitsOpen cue.subject l.question.subject
    && fitsOpen cue.module l.scope.module.text && fitsOpen cue.consumer l.scope.consumer.text

/-- A line of a script. Without a number of uses it can be used forever. -/
structure ScriptLine where
  cue : Cue
  uses : Option Nat
  trouble : Trouble
deriving Repr, Inhabited

/-- A line after it has been used once more. -/
def ScriptLine.used (line : ScriptLine) : ScriptLine :=
  { line with uses := line.uses.map (· - 1) }

/-- The trouble at a lookup, if there is any, and the script that remains. -/
def nextTrouble (l : Lookup) : List ScriptLine → Option Trouble × List ScriptLine
  | [] => (none, [])
  | line :: rest =>
    if line.uses ≠ some 0 ∧ line.cue.fits l then (some line.trouble, line.used :: rest)
    else
      let (trouble, rest) := nextTrouble l rest
      (trouble, line :: rest)

/-- Entitlements and a script. -/
structure Scripted where
  contents : Entitlements
  script : List ScriptLine
deriving Repr, Inhabited

namespace Scripted

/-- What the entitlements say, so many nanoseconds after the last command. -/
def conclusion (l : Lookup) (elapsed : Nat) :
    List Reply → Scripted → Conclusion l.question.Answer × Scripted :=
  fun _ s => (⟨elapsed, .ok (s.contents.answer l.scope l.question)⟩, s)

/-- What happens at a lookup. -/
def reaction (l : Lookup) (trouble : Option Trouble) : Reaction Scripted l.question.Answer :=
  match trouble with
  | some (.fail error) => .immediate (.error error)
  | some .late => ⟨[], conclusion l (l.deadline + 1 - l.now)⟩
  | some (.invalidate m) => ⟨[.invalidate m], conclusion l 0⟩
  | some (.ask scope inquiry) => ⟨[.ask scope inquiry], conclusion l 0⟩
  | some (.replace _) => ⟨[], conclusion l 0⟩
  | none => ⟨[], conclusion l 0⟩

/-- The contents after a lookup has begun. -/
def contentsAfter (s : Scripted) (trouble : Option Trouble) : Entitlements :=
  match trouble with
  | some (.replace contents) => contents
  | _ => s.contents

/-- The script as a backend. -/
def backend : PermissionBackend Scripted where
  react l s :=
    let (trouble, script) := nextTrouble l s.script
    (reaction l trouble, ⟨s.contentsAfter trouble, script⟩)

end Scripted

end Gatehouse
