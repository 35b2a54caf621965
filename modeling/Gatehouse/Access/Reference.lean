import Gatehouse.Access.Backend

/-!
# Access without a cache

What the answers ought to be if nothing is remembered and nothing goes wrong: a function of what
the backend answers to the single lookups.

- `Reference.holds`: the answer to any question, given the answers to all lookups.
-/

namespace Gatehouse.Reference

/-- The answers of a backend about one scope. -/
abbrev Answers := (q : Question) → q.Answer

/-- Membership of a group: the backend says so, or there are rules for the group. -/
def inGroup (answers : Answers) (group : String) : Bool :=
  answers (.group group) || (answers .rules).hasGroup group

/-- Access to a resource: the backend says so, or a rule covers it. -/
def mayAccess (answers : Answers) (requested : ResourcePermission) : Bool :=
  answers (.resource requested) || (answers .rules).grant requested

/-- An action: the backend says so, or it is allowed on every resource. -/
def mayPerform (answers : Answers) (action : String) : Bool :=
  answers (.action action) || mayAccess answers (.everywhere action)

/-- The answer to any question. -/
def holds (answers : Answers) : (q : Question) → q.Answer
  | .action name => mayPerform answers name
  | .group name => inGroup answers name
  | .resource permission => mayAccess answers permission
  | .rules => answers .rules
  | .attributes => answers .attributes
  | .identity => answers .identity

end Gatehouse.Reference
