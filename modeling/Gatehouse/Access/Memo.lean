import Gatehouse.Access.Question

/-!
# Remembered answers

One slot for each question: empty, being filled, or filled with an answer.

- `Memo.get`: the slot of a question; the view through which memos are compared.
- `Memo.set`: changes the slot of one question.
-/

namespace Gatehouse

/-- The place of one answer. -/
inductive Slot (α : Type) where
  | empty
  /-- Someone is finding out the answer. -/
  | loading
  | filled (answer : α)
deriving DecidableEq, Repr, Inhabited

/-- The answers that are remembered. -/
structure Memo where
  get : (q : Question) → Slot q.Answer

namespace Memo

/-- Nothing is remembered. -/
def empty : Memo :=
  ⟨fun _ => .empty⟩

/-- The memo with the slot of one question changed. -/
def set (m : Memo) (q : Question) (slot : Slot q.Answer) : Memo where
  get q' := if h : q = q' then h ▸ slot else m.get q'

@[simp] theorem get_set_self (m : Memo) (q : Question) (slot : Slot q.Answer) :
    (m.set q slot).get q = slot := by
  simp [set]

theorem get_set_ne (m : Memo) {q q' : Question} (slot : Slot q.Answer) (h : q ≠ q') :
    (m.set q slot).get q' = m.get q' := by
  simp [set, h]

end Memo

end Gatehouse
