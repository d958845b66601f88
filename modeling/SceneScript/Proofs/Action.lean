import SceneScript.Action
import SceneScript.Proofs.Result

/-! # What actions do

An action is followed through its steps by three tools: equations for the answer and the state of
each step, the statement that a part of the state stays as it is, and the statement that the answer
and the error are of some form, whatever the state.
-/
namespace SceneScript.Action
variable {ε δ σ τ υ α β : Type}

theorem bind_ok {a : Action ε σ α} {f : α → Action ε σ β} {s s' : σ} {x : α}
    {log : List LogRecord} (h : a s = ⟨.ok x, s', log⟩) :
    (a >>= f) s = ⟨(f x s').result, (f x s').state, log ++ (f x s').log⟩ := by
  change Action.bind a f s = _
  simp [Action.bind, h]

theorem bind_error {a : Action ε σ α} {f : α → Action ε σ β} {s s' : σ} {e : ε}
    {log : List LogRecord} (h : a s = ⟨.error e, s', log⟩) :
    (a >>= f) s = ⟨.error e, s', log⟩ := by
  change Action.bind a f s = _
  simp [Action.bind, h]

/-- Behind an action that answers without a record a sequence is what follows. -/
theorem bind_silent {a : Action ε σ α} {f : α → Action ε σ β} {s s' : σ} {x : α}
    (h : a s = ⟨.ok x, s', []⟩) : (a >>= f) s = f x s' := by
  rw [bind_ok h]
  rfl

theorem mapError_of_ok {a : Action ε σ α} {s s' : σ} {x : α} {log : List LogRecord}
    (h : a s = ⟨.ok x, s', log⟩) (f : ε → δ) : (a.mapError f) s = ⟨.ok x, s', log⟩ := by
  simp only [mapError, h, Result.mapError_ok]

@[simp] theorem pure_apply (x : α) (s : σ) : (pure x : Action ε σ α) s = ⟨.ok x, s, []⟩ := rfl

@[simp] theorem get_bind (f : σ → Action ε σ β) (s : σ) : (get >>= f) s = f s s := by
  rw [bind_ok (show (get : Action ε σ σ) s = ⟨.ok s, s, []⟩ from rfl)]
  rfl

@[simp] theorem pure_bind (x : α) (f : α → Action ε σ β) (s : σ) :
    ((pure x : Action ε σ α) >>= f) s = f x s := by
  rw [bind_ok (pure_apply x s)]
  rfl

@[simp] theorem modify_bind (g : σ → σ) (f : Unit → Action ε σ β) (s : σ) :
    (modify g >>= f) s = f () (g s) := by
  rw [bind_ok (show (modify g : Action ε σ Unit) s = ⟨.ok (), g s, []⟩ from rfl)]
  rfl

@[simp] theorem set_bind (s' : σ) (f : Unit → Action ε σ β) (s : σ) :
    (set s' >>= f) s = f () s' := by
  rw [bind_ok (show (set s' : Action ε σ Unit) s = ⟨.ok (), s', []⟩ from rfl)]
  rfl

@[simp] theorem ofExcept_ok_bind (x : α) (f : α → Action ε σ β) (s : σ) :
    (ofExcept (.ok x) >>= f) s = f x s := by
  rw [bind_ok (show (ofExcept (.ok x) : Action ε σ α) s = ⟨.ok x, s, []⟩ from rfl)]
  rfl

@[simp] theorem ofExcept_error_bind (e : ε) (f : α → Action ε σ β) (s : σ) :
    (ofExcept (.error e) >>= f) s = ⟨.error e, s, []⟩ :=
  bind_error rfl

@[simp] theorem fail_bind (e : ε) (f : α → Action ε σ β) (s : σ) :
    ((fail e : Action ε σ α) >>= f) s = ⟨.error e, s, []⟩ :=
  bind_error rfl

instance : LawfulMonad (Action ε σ) :=
  LawfulMonad.mk' _
    (fun x => by
      funext s
      change Action.bind x (fun a => Action.pure a) s = x s
      rcases h : x s with ⟨_ | _, s', records⟩ <;> simp [Action.bind, Action.pure, h])
    (fun x f => by
      funext s
      exact pure_bind x f s)
    (fun x f g => by
      funext s
      rcases h : x s with ⟨e | a, s', records⟩
      · rw [bind_error h, bind_error (bind_error h)]
      · rw [bind_ok h]
        rcases hf : f a s' with ⟨e | b, s'', more⟩
        · have hxf : (x >>= f) s = ⟨.error e, s'', records ++ more⟩ := by rw [bind_ok h, hf]
          rw [bind_error hf, bind_error hxf]
        · have hxf : (x >>= f) s = ⟨.ok b, s'', records ++ more⟩ := by rw [bind_ok h, hf]
          simp [bind_ok hf, bind_ok hxf])

/-- Behind an action that answers a sequence goes on with its answer. -/
theorem bind_of_result {a : Action ε σ α} {f : α → Action ε σ β} {s : σ} {x : α}
    (h : (a s).result = .ok x) :
    ((a >>= f) s).result = (f x (a s).state).result ∧
      ((a >>= f) s).state = (f x (a s).state).state := by
  rcases ha : a s with ⟨result, s', records⟩
  rw [ha] at h
  cases h
  rw [bind_ok ha]
  exact ⟨rfl, rfl⟩

/-- A sequence that answers has gone through both of its actions. -/
theorem bind_result_ok {a : Action ε σ α} {f : α → Action ε σ β} {s : σ} {y : β}
    (h : ((a >>= f) s).result = .ok y) :
    ∃ x, (a s).result = .ok x ∧ (f x (a s).state).result = .ok y ∧
      ((a >>= f) s).state = (f x (a s).state).state := by
  rcases ha : a s with ⟨result, s', records⟩
  cases result with
  | ok x =>
    rw [bind_ok ha] at h ⊢
    exact ⟨x, rfl, h, rfl⟩
  | error e =>
    rw [bind_error ha] at h
    cases h

/-- The error of a sequence is the one of its first action or of the second. -/
theorem bind_result_error {a : Action ε σ α} {f : α → Action ε σ β} {s : σ} {e : ε}
    (h : ((a >>= f) s).result = .error e) :
    (a s).result = .error e ∨
      ∃ x, (a s).result = .ok x ∧ (f x (a s).state).result = .error e := by
  rcases ha : a s with ⟨result, s', records⟩
  cases result with
  | ok x =>
    rw [bind_ok ha] at h
    exact .inr ⟨x, rfl, h⟩
  | error e' =>
    rw [bind_error ha] at h
    cases h
    exact .inl rfl

/-- What holds between the states around both actions of a sequence holds around the sequence, if
it can be chained. -/
theorem bind_relates {R : σ → σ → Prop} {a : Action ε σ α} {f : α → Action ε σ β}
    (chain : ∀ {s₁ s₂ s₃}, R s₁ s₂ → R s₂ s₃ → R s₁ s₃) (ha : ∀ s, R s (a s).state)
    (hf : ∀ x s, R s (f x s).state) (s : σ) : R s ((a >>= f) s).state := by
  have hs := ha s
  rcases h : a s with ⟨result, s', records⟩
  rw [h] at hs
  cases result with
  | ok x =>
    rw [bind_ok h]
    exact chain hs (hf x s')
  | error e =>
    rw [bind_error h]
    exact hs

/-- The action leaves a part of the state as it is. -/
def Keeps (a : Action ε σ α) (part : σ → τ) : Prop := ∀ s, part (a s).state = part s

variable {part : σ → τ}

theorem keeps_pure (x : α) : Keeps (pure x : Action ε σ α) part := fun _ => rfl

theorem keeps_fail (e : ε) : Keeps (fail e : Action ε σ α) part := fun _ => rfl

theorem keeps_get : Keeps (get : Action ε σ σ) part := fun _ => rfl

theorem keeps_log (level : LogLevel) (message : String) :
    Keeps (log level message : Action ε σ Unit) part := fun _ => rfl

theorem keeps_ofExcept (x : Except ε α) : Keeps (ofExcept x : Action ε σ α) part := fun _ => rfl

theorem Keeps.bind {a : Action ε σ α} {f : α → Action ε σ β} (ha : a.Keeps part)
    (hf : ∀ x, (f x).Keeps part) : (a >>= f).Keeps part :=
  bind_relates (R := fun s s' => part s' = part s) (fun h₁ h₂ => h₂.trans h₁) ha hf

theorem Keeps.mapError {a : Action ε σ α} (ha : a.Keeps part) (f : ε → δ) :
    (a.mapError f).Keeps part := ha

theorem Keeps.onPart {a : Action ε τ α} {focus : σ → τ} {put : τ → σ → σ} {part : σ → υ}
    (h : ∀ t s, part (put t s) = part s) : (a.onPart focus put).Keeps part := fun _ => h _ _

/-- From every state, the answer and the error are as described. -/
def Meets (a : Action ε σ α) (answers : α → Prop) (fails : ε → Prop) : Prop :=
  ∀ s, Result.Meets (a s).result answers fails

variable {answers : α → Prop} {answers' : β → Prop} {fails : ε → Prop}

theorem meets_any (a : Action ε σ α) : Meets a (fun _ => True) fun _ => True :=
  fun s => (Result.meets_self (a s).result).mono (fun _ _ => trivial) fun _ _ => trivial

theorem meets_pure {x : α} (h : answers x) : Meets (pure x : Action ε σ α) answers fails :=
  fun _ => h

theorem meets_fail {e : ε} (h : fails e) : Meets (fail e : Action ε σ α) answers fails :=
  fun _ => h

theorem meets_get : Meets (get : Action ε σ σ) (fun _ => True) fails := fun _ => trivial

theorem meets_set (s : σ) : Meets (set s : Action ε σ Unit) (fun _ => True) fails :=
  fun _ => trivial

theorem meets_modify (f : σ → σ) : Meets (modify f : Action ε σ Unit) (fun _ => True) fails :=
  fun _ => trivial

theorem meets_log (level : LogLevel) (message : String) :
    Meets (log level message : Action ε σ Unit) (fun _ => True) fails := fun _ => trivial

theorem meets_ofExcept {x : Except ε α} (h : Result.Meets x answers fails) :
    Meets (ofExcept x : Action ε σ α) answers fails := fun _ => h

theorem Meets.bind {a : Action ε σ α} {f : α → Action ε σ β} (ha : a.Meets answers fails)
    (hf : ∀ x, answers x → (f x).Meets answers' fails) : (a >>= f).Meets answers' fails := by
  intro s
  have hs := ha s
  rcases h : a s with ⟨result, s', records⟩
  rw [h] at hs
  cases result with
  | ok x =>
    rw [bind_ok h]
    exact hf x hs s'
  | error e =>
    rw [bind_error h]
    exact hs

theorem Meets.mono {a : Action ε σ α} {answers' : α → Prop} {fails' : ε → Prop}
    (h : a.Meets answers fails) (ha : ∀ x, answers x → answers' x)
    (he : ∀ e, fails e → fails' e) : a.Meets answers' fails' := fun s => (h s).mono ha he

theorem Meets.mapError {a : Action ε σ α} {f : ε → δ} {fails' : δ → Prop}
    (h : a.Meets answers fun e => fails' (f e)) : (a.mapError f).Meets answers fails' :=
  fun s => (h s).mapError

theorem Meets.onPart {a : Action ε τ α} (h : a.Meets answers fails) (focus : σ → τ)
    (put : τ → σ → σ) : (a.onPart focus put).Meets answers fails := fun s => h (focus s)

end SceneScript.Action
