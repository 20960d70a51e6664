/-!
Tasks: programs that ask their surroundings for one effect after the other.

A task is data, so that one text has several readings: it runs by itself against surroundings of
any kind, and it runs step by step among others.
-/

namespace ZonePropagation

inductive Task (Effect : Type) (Reply : Effect → Type) (α : Type) where
  | done (value : α)
  | perform (effect : Effect) (next : Reply effect → Task Effect Reply α)

namespace Task

variable {Effect : Type} {Reply : Effect → Type} {α β : Type}

def andThen : Task Effect Reply α → (α → Task Effect Reply β) → Task Effect Reply β
  | .done value, follow => follow value
  | .perform effect next, follow => .perform effect fun reply => (next reply).andThen follow

instance : Monad (Task Effect Reply) where
  pure := .done
  bind := andThen

def ask (effect : Effect) : Task Effect Reply (Reply effect) :=
  .perform effect .done

/-- Runs a task by itself: every effect is answered before the next one is asked for. -/
def run {m : Type → Type} [Monad m] (answer : (effect : Effect) → m (Reply effect)) :
    Task Effect Reply α → m α
  | .done value => pure value
  | .perform effect next => do
      let reply ← answer effect
      (next reply).run answer

end Task

end ZonePropagation
