/-!
# Actions on a device

An action runs on the state of a device and either answers or fails. What a failed action has done up
to the failure stays done: the state is kept in both cases.
-/

namespace FrontPanel

set_option autoImplicit false

/-- A computation on a state `σ` that answers an `α` or fails with an `ε`, and keeps the state. -/
abbrev Action (ε σ α : Type) := EStateM ε σ α

namespace Action

variable {ε ε' σ τ α : Type}

def after (x : Action ε σ α) (s : σ) : σ :=
  match x s with
  | .ok _ t => t
  | .error _ t => t

def outcome (x : Action ε σ α) (s : σ) : Except ε α :=
  match x s with
  | .ok a _ => .ok a
  | .error e _ => .error e

def within (get : τ → σ) (put : σ → τ → τ) (x : Action ε σ α) : Action ε τ α := fun t =>
  match x (get t) with
  | .ok a s => .ok a (put s t)
  | .error e s => .error e (put s t)

def failingAs (f : ε → ε') (x : Action ε σ α) : Action ε' σ α := fun s =>
  match x s with
  | .ok a t => .ok a t
  | .error e t => .error (f e) t

/-- Runs an action with a closing step that happens whether it answers or fails. -/
def closing (x : Action ε σ α) (close : σ → σ) : Action ε σ α := fun s =>
  match x s with
  | .ok a t => .ok a (close t)
  | .error e t => .error e (close t)

def ofExcept (r : Except ε α) : Action ε σ α := fun s =>
  match r with
  | .ok a => .ok a s
  | .error e => .error e s

@[simp] theorem after_within (get : τ → σ) (put : σ → τ → τ) (x : Action ε σ α) (t : τ) :
    (x.within get put).after t = put (x.after (get t)) t := by
  simp only [after, within]
  cases x (get t) <;> rfl

@[simp] theorem after_failingAs (f : ε → ε') (x : Action ε σ α) (s : σ) :
    (x.failingAs f).after s = x.after s := by
  simp only [after, failingAs]
  cases x s <;> rfl

end Action

end FrontPanel
