import Mathlib.Tactic.Common

/-!
# Programs of atomic actions

A process is a program whose actions are atomic on a shared state, and that may pick
values which nothing here decides (an answer of another system, a clock). Between two
actions of one process others may run, so a process is moved one action at a time
(`Process.Move`). What holds of every action that a process can still take (`Process.Only`)
holds of the process it becomes.
-/

namespace IncidentRelay

/-- A program over a signature of actions: `A β` are the actions that answer with a `β`. -/
inductive Process (A : Type → Type) (α : Type) : Type 1 where
  | ret (a : α)
  | act {β : Type} (a : A β) (k : β → Process A α)
  | pick {β : Type} (k : β → Process A α)

namespace Process

variable {A : Type → Type} {α γ σ : Type}

def bind : Process A α → (α → Process A γ) → Process A γ
  | ret a, f => f a
  | act a k, f => act a fun b => (k b).bind f
  | pick k, f => pick fun b => (k b).bind f

instance : Monad (Process A) where
  pure := ret
  bind := bind

/-- One action. -/
def perform (a : A α) : Process A α := act a ret

/-- A value from outside. -/
def ask : Process A α := pick ret

/-- One move of a process on the shared state. -/
inductive Move (exec : {β : Type} → A β → σ → β × σ) : σ → Process A α → σ → Process A α → Prop
  | act {β : Type} {s : σ} (a : A β) (k : β → Process A α) :
      Move exec s (.act a k) (exec a s).2 (k (exec a s).1)
  | pick {β : Type} {s : σ} (k : β → Process A α) (b : β) : Move exec s (.pick k) s (k b)

/-- Every action that the process can still take has the property, whatever it is
answered. -/
def Only (P : {β : Type} → A β → Prop) : Process A α → Prop
  | ret _ => True
  | act a k => P a ∧ ∀ b, (k b).Only P
  | pick k => ∀ b, (k b).Only P

/-- What a process may do is left to it after a move. -/
theorem Only.move {exec : {β : Type} → A β → σ → β × σ} {P : {β : Type} → A β → Prop} {s t : σ}
    {p q : Process A α} (h : p.Only P) (hmove : Move exec s p t q) : q.Only P := by
  cases hmove with
  | act a k => exact h.2 _
  | pick k b => exact h b

end Process

end IncidentRelay
