import Chip8.Fault

/-!
Actions on a state that may fail part way. What an action did before it failed stays done: it
returns the state it leaves both with an answer and with a fault.
-/

namespace Chip8

/-- An action on a state of type `σ` with an answer of type `α` or a fault. -/
def Attempt (σ α : Type) : Type := σ → Except Fault α × σ

namespace Attempt

variable {σ τ α β : Type}

instance : Monad (Attempt σ) where
  pure a := fun s => (.ok a, s)
  bind x f := fun s =>
    match x s with
    | (.ok a, s) => f a s
    | (.error e, s) => (.error e, s)

def fail (e : Fault) : Attempt σ α := fun s => (.error e, s)

/-- Answers with a view of the state. -/
def view (f : σ → α) : Attempt σ α := fun s => (.ok (f s), s)

/-- Changes the state and cannot fail. -/
def update (f : σ → σ) : Attempt σ Unit := fun s => (.ok (), f s)

/-- Asks a question that leaves the state alone and may be refused. -/
def ask (f : σ → Except Fault α) : Attempt σ α := fun s => (f s, s)

/-- Replaces the state unless the replacement is refused. -/
def replace (f : σ → Except Fault σ) : Attempt σ Unit := fun s =>
  match f s with
  | .ok s' => (.ok (), s')
  | .error e => (.error e, s)

@[simp] theorem pure_apply (a : α) (s : σ) : (pure a : Attempt σ α) s = (.ok a, s) := rfl

@[simp] theorem bind_apply (x : Attempt σ α) (f : α → Attempt σ β) (s : σ) :
    (x >>= f) s =
      match x s with
      | (.ok a, s) => f a s
      | (.error e, s) => (.error e, s) := rfl

@[simp] theorem fail_apply (e : Fault) (s : σ) : (fail e : Attempt σ α) s = (.error e, s) := rfl

@[simp] theorem view_apply (f : σ → α) (s : σ) : view f s = (.ok (f s), s) := rfl

@[simp] theorem update_apply (f : σ → σ) (s : σ) : update f s = (.ok (), f s) := rfl

@[simp] theorem ask_apply (f : σ → Except Fault α) (s : σ) : ask f s = (f s, s) := rfl

end Attempt

end Chip8
