/-! # Sequences of calls

An object is asked one call after the other. It is known by what it answers, so two objects that
give the same answers to all sequences of calls cannot be told apart. A view of the one as the other
that every call respects is enough for that.
-/
namespace SceneScript
universe u v w

variable {σ : Type u} {τ : Type v} {κ β : Type w}

/-- What a sequence of calls answers. A call gives its answer and the object behind it. -/
def answers (perform : σ → κ → β × σ) : σ → List κ → List β
  | _, [] => []
  | s, call :: calls => (perform s call).1 :: answers perform (perform s call).2 calls

/-- The object behind a sequence of calls. -/
def after (perform : σ → κ → β × σ) (s : σ) (calls : List κ) : σ :=
  calls.foldl (fun s call => (perform s call).2) s

variable {perform : σ → κ → β × σ} {perform' : τ → κ → β × τ}

theorem after_cons (s : σ) (call : κ) (calls : List κ) :
    after perform s (call :: calls) = after perform (perform s call).2 calls := rfl

/-- What every call keeps, a sequence of calls keeps. -/
theorem after_induction {P : σ → Prop} (hstep : ∀ s call, P s → P (perform s call).2) {s : σ}
    (hs : P s) (calls : List κ) : P (after perform s calls) := by
  induction calls generalizing s with
  | nil => exact hs
  | cons call calls ih => exact ih (hstep s call hs)

/-- The view of an object answers what the object does, and is the view of it behind the calls. -/
theorem answers_of_view (view : σ → τ)
    (hstep : ∀ s call, perform' (view s) call = ((perform s call).1, view (perform s call).2))
    (s : σ) (calls : List κ) :
    answers perform' (view s) calls = answers perform s calls ∧
      after perform' (view s) calls = view (after perform s calls) := by
  induction calls generalizing s with
  | nil => exact ⟨rfl, rfl⟩
  | cons call calls ih =>
    obtain ⟨hanswers, hafter⟩ := ih (perform s call).2
    constructor
    · simp only [answers, hstep, hanswers]
    · simpa only [after, List.foldl_cons, hstep] using hafter

end SceneScript
