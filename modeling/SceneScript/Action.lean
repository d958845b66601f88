import SceneScript.Log.Record

/-! # Actions

An action works on a state, writes log records and may fail. What it did to the state and the log
before it failed stays done, so a failing action shows exactly how far it got.
-/
namespace SceneScript

/-- The outcome of an action: its answer, the state after it, and what it logged. -/
structure Outcome (ε σ α : Type) where
  result : Except ε α
  state : σ
  log : List LogRecord

/-- A stateful computation that logs and may fail. -/
def Action (ε σ α : Type) := σ → Outcome ε σ α

namespace Action
variable {ε σ τ α β : Type}

def run (a : Action ε σ α) (s : σ) : Outcome ε σ α := a s

protected def pure (x : α) : Action ε σ α := fun s => ⟨.ok x, s, []⟩

/-- Go on with the answer of an action, or stop where it failed. -/
protected def bind (a : Action ε σ α) (f : α → Action ε σ β) : Action ε σ β := fun s =>
  match a s with
  | ⟨.ok x, s', log⟩ =>
    let rest := f x s'
    ⟨rest.result, rest.state, log ++ rest.log⟩
  | ⟨.error e, s', log⟩ => ⟨.error e, s', log⟩

instance : Monad (Action ε σ) where
  pure := Action.pure
  bind := Action.bind

def get : Action ε σ σ := fun s => ⟨.ok s, s, []⟩

def set (s : σ) : Action ε σ Unit := fun _ => ⟨.ok (), s, []⟩

def modify (f : σ → σ) : Action ε σ Unit := fun s => ⟨.ok (), f s, []⟩

def log (level : LogLevel) (message : String) : Action ε σ Unit :=
  fun s => ⟨.ok (), s, [⟨level, message⟩]⟩

def fail (e : ε) : Action ε σ α := fun s => ⟨.error e, s, []⟩

/-- Stop unless a computation without effects gave an answer. -/
def ofExcept (x : Except ε α) : Action ε σ α := fun s => ⟨x, s, []⟩

def mapError {δ : Type} (f : ε → δ) (a : Action ε σ α) : Action δ σ α := fun s =>
  let o := a s
  ⟨o.result.mapError f, o.state, o.log⟩

def onPart (part : σ → τ) (put : τ → σ → σ) (a : Action ε τ α) : Action ε σ α := fun s =>
  let o := a (part s)
  ⟨o.result, put o.state s, o.log⟩

end Action
end SceneScript
