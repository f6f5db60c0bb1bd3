import Chip8.Attempt

/-!
What an action keeps: properties of the state that it leaves true, whether it fails or not. One
action after another keeps what both keep (`Keeps.bind`). The same holds of a transitive relation
between the states before and after an action (`Leads.bind`), of actions that fail only in ways
that stop the processor (`Halting.bind`), and of actions that cannot tell related states apart
(`Respects.bind`). All four are `Closed`, which is what a loop needs to have a property that its
body has.
-/

namespace Chip8.Attempt

variable {σ α β : Type} {P : σ → Prop}

theorem map_apply (f : α → β) (x : Attempt σ α) (s : σ) :
    (f <$> x) s = ((x s).1.map f, (x s).2) := by
  have composed : f <$> x = x >>= fun a => pure (f a) := rfl
  rw [composed, bind_apply]
  cases x s with
  | mk result s' =>
      cases result with
      | ok a => rfl
      | error e => rfl

/-- An action leaves a property of the state true, whether it fails or not. -/
def Keeps (P : σ → Prop) (x : Attempt σ α) : Prop := ∀ s, P s → P (x s).2

theorem keeps_pure (a : α) : (pure a : Attempt σ α).Keeps P := fun _ h => h

theorem keeps_fail (e : Fault) : (fail e : Attempt σ α).Keeps P := fun _ h => h

theorem keeps_view (f : σ → α) : (view f).Keeps P := fun _ h => h

/-- What both parts of a sequence keep, the sequence keeps. -/
theorem Keeps.bind {x : Attempt σ α} {f : α → Attempt σ β} (hx : x.Keeps P)
    (hf : ∀ a, (f a).Keeps P) : (x >>= f).Keeps P := by
  intro s h
  have first := hx s h
  rw [bind_apply]
  cases run : x s with
  | mk result s' =>
      rw [run] at first
      cases result with
      | ok a => exact hf a s' first
      | error e => exact first

/-- An action leads from each state to one that a relation allows, whether it fails or not. -/
def Leads (R : σ → σ → Prop) (x : Attempt σ α) : Prop := ∀ s, R s (x s).2

/-- One action after another leads where a transitive relation allows if each of them does. -/
theorem Leads.bind {R : σ → σ → Prop} {x : Attempt σ α} {f : α → Attempt σ β} (hx : x.Leads R)
    (hf : ∀ a, (f a).Leads R) (trans : ∀ {s t u}, R s t → R t u → R s u) :
    (x >>= f).Leads R := by
  intro s
  have first := hx s
  rw [bind_apply]
  cases run : x s with
  | mk result s' =>
      rw [run] at first
      cases result with
      | ok a => exact trans first (hf a s')
      | error e => exact first

/-- Where a property of the state holds, an action leaves it true and fails only with a fault that
stops the processor. -/
def Halting (P : σ → Prop) (x : Attempt σ α) : Prop :=
  ∀ s, P s → P (x s).2 ∧ ∀ e, (x s).1 = .error e → e.halts = true

/-- An action that cannot fail has only to keep the property. -/
theorem Keeps.halting {x : Attempt σ α} (hx : x.Keeps P) (answers : ∀ s, ∃ a, (x s).1 = .ok a) :
    x.Halting P := by
  intro s h
  constructor
  · exact hx s h
  · intro e fault
    obtain ⟨a, ok⟩ := answers s
    rw [ok] at fault
    cases fault

/-- A sequence of actions that fail only in ways that stop the processor fails only so. -/
theorem Halting.bind {x : Attempt σ α} {f : α → Attempt σ β} (hx : x.Halting P)
    (hf : ∀ a, (f a).Halting P) : (x >>= f).Halting P := by
  intro s h
  have first := hx s h
  rw [bind_apply]
  cases run : x s with
  | mk result s' =>
      rw [run] at first
      cases result with
      | ok a => exact hf a s' first.1
      | error e =>
          constructor
          · exact first.1
          · intro e' fault
            cases fault
            exact first.2 e rfl

/-- An action does not tell related states apart: it answers them alike and leaves them related. -/
def Respects (R : σ → σ → Prop) (x : Attempt σ α) : Prop :=
  ∀ s t, R s t → (x s).1 = (x t).1 ∧ R (x s).2 (x t).2

/-- Actions that cannot tell related states apart cannot do so one after the other. -/
theorem Respects.bind {R : σ → σ → Prop} {x : Attempt σ α} {f : α → Attempt σ β}
    (hx : x.Respects R) (hf : ∀ a, (f a).Respects R) : (x >>= f).Respects R := by
  intro s t related
  have first := hx s t related
  rw [bind_apply, bind_apply]
  cases run : x s with
  | mk result s' =>
      cases run' : x t with
      | mk result' t' =>
          rw [run, run'] at first
          obtain ⟨rfl, after⟩ := first
          cases result with
          | ok a => exact hf a s' t' after
          | error e => exact ⟨rfl, after⟩

/-- A property that holds of actions that do nothing, and of one action after another if it holds of
both. -/
structure Closed (Q : {α : Type} → Attempt σ α → Prop) : Prop where
  pure {α : Type} (a : α) : Q (Pure.pure a)
  bind {α β : Type} {x : Attempt σ α} {f : α → Attempt σ β} : Q x → (∀ a, Q (f a)) → Q (x >>= f)

theorem closed_keeps : Closed fun {_} (x : Attempt σ _) => x.Keeps P :=
  ⟨keeps_pure, Keeps.bind⟩

theorem closed_leads {R : σ → σ → Prop} (refl : ∀ s, R s s)
    (trans : ∀ {s t u}, R s t → R t u → R s u) : Closed fun {_} (x : Attempt σ _) => x.Leads R :=
  ⟨fun _ => refl, fun hx hf => hx.bind hf trans⟩

theorem closed_respects {R : σ → σ → Prop} : Closed fun {_} (x : Attempt σ _) => x.Respects R :=
  ⟨fun _ _ _ related => ⟨rfl, related⟩, Respects.bind⟩

theorem closed_halting : Closed fun {_} (x : Attempt σ _) => x.Halting P :=
  ⟨fun a => (keeps_pure a).halting fun _ => ⟨a, rfl⟩, Halting.bind⟩

end Chip8.Attempt
