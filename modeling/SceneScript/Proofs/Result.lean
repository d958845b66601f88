import SceneScript.Action

/-! # Answers and errors

A computation that may fail is taken apart at its steps: it answers when every step answers, and
its error is the one of the first step that fails.
-/
namespace SceneScript.Result
universe u v
variable {ε : Type u} {δ : Type u} {α β : Type v}

@[simp] theorem ok_bind (a : α) (f : α → Except ε β) : (Except.ok a >>= f) = f a := rfl

@[simp] theorem error_bind (e : ε) (f : α → Except ε β) : (Except.error e >>= f) = .error e := rfl

@[simp] theorem pure_eq (a : α) : (pure a : Except ε α) = .ok a := rfl

theorem bind_eq_ok {x : Except ε α} {f : α → Except ε β} {b : β} :
    (x >>= f) = .ok b ↔ ∃ a, x = .ok a ∧ f a = .ok b := by
  cases x <;> simp

theorem bind_eq_error {x : Except ε α} {f : α → Except ε β} {e : ε} :
    (x >>= f) = .error e ↔ x = .error e ∨ ∃ a, x = .ok a ∧ f a = .error e := by
  cases x <;> simp

@[simp] theorem mapError_ok (f : ε → δ) (a : α) : (Except.ok a).mapError f = .ok a := rfl

@[simp] theorem mapError_error (f : ε → δ) (e : ε) :
    (Except.error e : Except ε α).mapError f = .error (f e) := rfl

@[simp] theorem mapError_eq_ok {x : Except ε α} {f : ε → δ} {a : α} :
    x.mapError f = .ok a ↔ x = .ok a := by
  cases x <;> simp

@[simp] theorem mapError_eq_error {x : Except ε α} {f : ε → δ} {e : δ} :
    x.mapError f = .error e ↔ ∃ e', x = .error e' ∧ f e' = e := by
  cases x <;> simp

theorem eq_ok_of_toOption {x : Except ε α} {a : α} (h : x.toOption = some a) : x = .ok a := by
  cases x with
  | ok b => rw [show b = a from Option.some.inj h]
  | error e => cases h

/-- Every answer in a list is the one to a member of the list that was asked about. -/
theorem mem_of_mapM {f : α → Except ε β} {xs : List α} {ys : List β} (h : xs.mapM f = .ok ys)
    {y : β} (hy : y ∈ ys) : ∃ x ∈ xs, f x = .ok y := by
  induction xs generalizing ys with
  | nil =>
    cases h
    cases hy
  | cons x rest ih =>
    rw [List.mapM_cons, bind_eq_ok] at h
    obtain ⟨first, hfirst, h⟩ := h
    obtain ⟨others, hothers, h⟩ := bind_eq_ok.mp h
    cases h
    rcases List.mem_cons.mp hy with rfl | hy
    · exact ⟨x, List.mem_cons_self .., hfirst⟩
    · obtain ⟨x', hx', heq⟩ := ih hothers hy
      exact ⟨x', List.mem_cons_of_mem _ hx', heq⟩

/-- From answers that tell what was asked the list is known. -/
theorem map_of_mapM {f : α → Except ε β} {g : β → α} (hg : ∀ x y, f x = .ok y → g y = x)
    {xs : List α} {ys : List β} (h : xs.mapM f = .ok ys) : ys.map g = xs := by
  induction xs generalizing ys with
  | nil =>
    cases h
    rfl
  | cons x rest ih =>
    rw [List.mapM_cons, bind_eq_ok] at h
    obtain ⟨first, hfirst, h⟩ := h
    obtain ⟨others, hothers, h⟩ := bind_eq_ok.mp h
    cases h
    rw [List.map_cons, hg x first hfirst, ih hothers]

/-- The answer and the error are as described. -/
def Meets (x : Except ε α) (answers : α → Prop) (fails : ε → Prop) : Prop :=
  match x with
  | .ok a => answers a
  | .error e => fails e

theorem meets_self (x : Except ε α) : Meets x (fun a => x = .ok a) fun _ => True := by
  cases x with
  | ok a => rfl
  | error e => trivial

variable {answers : α → Prop} {answers' : β → Prop} {fails : ε → Prop}

theorem Meets.of_ok {x : Except ε α} (h : Meets x answers fails) {a : α} (hx : x = .ok a) :
    answers a := by
  subst hx
  exact h

theorem Meets.of_error {x : Except ε α} (h : Meets x answers fails) {e : ε} (hx : x = .error e) :
    fails e := by
  subst hx
  exact h

theorem Meets.bind {x : Except ε α} {f : α → Except ε β} (hx : Meets x answers fails)
    (hf : ∀ a, answers a → Meets (f a) answers' fails) : Meets (x >>= f) answers' fails := by
  cases x with
  | ok a => exact hf a hx
  | error e => exact hx

theorem Meets.mono {x : Except ε α} {answers' : α → Prop} {fails' : ε → Prop}
    (h : Meets x answers fails) (ha : ∀ a, answers a → answers' a)
    (he : ∀ e, fails e → fails' e) : Meets x answers' fails' := by
  cases x with
  | ok a => exact ha a h
  | error e => exact he e h

theorem Meets.mapError {x : Except ε α} {f : ε → δ} {fails' : δ → Prop}
    (h : Meets x answers fun e => fails' (f e)) : Meets (x.mapError f) answers fails' := by
  cases x <;> exact h

end SceneScript.Result
