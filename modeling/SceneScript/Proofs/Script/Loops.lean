import SceneScript.Proofs.Action
import SceneScript.Script.Execute

/-! # Loops with and without a bound

The loop without a bound takes turns, a condition and a body each, until the condition fails to
hold or something goes wrong. A bounded loop does the same as long as it stays within the bound.
Otherwise it takes as many turns as the bound allows, asks once more, and warns.
-/
namespace SceneScript.Script.Run

/-- The warning of a loop that is stopped. -/
def stopped (s : Setting) : LogRecord :=
  ⟨.warn, "Loop in system " ++ SceneScript.Error.quoted s.system ++ " stopped after " ++
    toString s.config.maxLoopIterations ++ " iterations"⟩

/-- What the loop without a bound comes to when it stops in a frame, and how many bodies it has
started by then. -/
inductive Stops (condition : Run Bool) (body : Run Unit) :
    Frame → Nat → Outcome RuntimeError Frame Unit → Prop
  | done {f f' : Frame} {log : List LogRecord} :
    condition f = ⟨.ok false, f', log⟩ → Stops condition body f 0 ⟨.ok (), f', log⟩
  | undecided {f f' : Frame} {e : RuntimeError} {log : List LogRecord} :
    condition f = ⟨.error e, f', log⟩ → Stops condition body f 0 ⟨.error e, f', log⟩
  | failed {f f₁ f₂ : Frame} {e : RuntimeError} {log₁ log₂ : List LogRecord} :
    condition f = ⟨.ok true, f₁, log₁⟩ → body f₁ = ⟨.error e, f₂, log₂⟩ →
      Stops condition body f 1 ⟨.error e, f₂, log₁ ++ log₂⟩
  | turn {f f₁ f₂ : Frame} {n : Nat} {o : Outcome RuntimeError Frame Unit}
    {log₁ log₂ : List LogRecord} :
    condition f = ⟨.ok true, f₁, log₁⟩ → body f₁ = ⟨.ok (), f₂, log₂⟩ →
      Stops condition body f₂ n o →
        Stops condition body f (n + 1) ⟨o.result, o.state, log₁ ++ log₂ ++ o.log⟩

/-- A number of whole turns of the loop, from one frame to another, with what they log. In each
turn the condition is evaluated once and holds, and the body runs once without an error. -/
inductive Turns (condition : Run Bool) (body : Run Unit) :
    Frame → Nat → Frame → List LogRecord → Prop
  | nil (f : Frame) : Turns condition body f 0 f []
  | cons {f f₁ f₂ f₃ : Frame} {n : Nat} {log₁ log₂ log₃ : List LogRecord} :
    condition f = ⟨.ok true, f₁, log₁⟩ → body f₁ = ⟨.ok (), f₂, log₂⟩ →
      Turns condition body f₂ n f₃ log₃ →
        Turns condition body f (n + 1) f₃ (log₁ ++ log₂ ++ log₃)

section
variable {s : Setting} {condition : Run Bool} {body : Run Unit} {f f₁ f₂ : Frame}
  {log log₁ log₂ : List LogRecord} {left : Nat}

theorem loop_done (h : condition f = ⟨.ok false, f₁, log⟩) :
    loop s condition body left f = ⟨.ok (), f₁, log⟩ := by
  cases left with
  | zero => simp [loop, Action.bind_ok h]
  | succ left => simp [loop, Action.bind_ok h]

theorem loop_undecided {e : RuntimeError} (h : condition f = ⟨.error e, f₁, log⟩) :
    loop s condition body left f = ⟨.error e, f₁, log⟩ := by
  cases left with
  | zero => rw [loop, Action.bind_error h]
  | succ left => rw [loop, Action.bind_error h]

theorem loop_failed {e : RuntimeError} (hc : condition f = ⟨.ok true, f₁, log₁⟩)
    (hb : body f₁ = ⟨.error e, f₂, log₂⟩) :
    loop s condition body (left + 1) f = ⟨.error e, f₂, log₁ ++ log₂⟩ := by
  rw [loop, Action.bind_ok hc]
  simp only [if_true]
  rw [Action.bind_error hb]

theorem loop_turn (hc : condition f = ⟨.ok true, f₁, log₁⟩)
    (hb : body f₁ = ⟨.ok (), f₂, log₂⟩) :
    loop s condition body (left + 1) f =
      ⟨(loop s condition body left f₂).result, (loop s condition body left f₂).state,
        log₁ ++ log₂ ++ (loop s condition body left f₂).log⟩ := by
  rw [loop, Action.bind_ok hc]
  simp only [if_true]
  rw [Action.bind_ok hb, List.append_assoc]

theorem loop_capped (h : condition f = ⟨.ok true, f₁, log⟩) :
    loop s condition body 0 f = ⟨.ok (), f₁, log ++ [stopped s]⟩ := by
  rw [loop, Action.bind_ok h]
  rfl

/-- A loop that stops within its bound is not noticed to have one. -/
theorem loop_of_stops {n : Nat} {o : Outcome RuntimeError Frame Unit}
    (h : Stops condition body f n o) (hn : n ≤ left) : loop s condition body left f = o := by
  induction h generalizing left with
  | done hc => exact loop_done hc
  | undecided hc => exact loop_undecided hc
  | failed hc hb =>
    obtain ⟨left, rfl⟩ := Nat.exists_eq_add_of_le' hn
    exact loop_failed hc hb
  | turn hc hb _ ih =>
    obtain ⟨left, rfl⟩ := Nat.exists_eq_add_of_le' (Nat.le_trans (Nat.le_add_left 1 _) hn)
    rw [loop_turn hc hb, ih (Nat.le_of_succ_le_succ hn)]

/-- A loop that takes all turns of its bound and still holds is stopped with a warning. -/
theorem loop_of_turns {n : Nat} (h : Turns condition body f n f₁ log₁)
    (hc : condition f₁ = ⟨.ok true, f₂, log₂⟩) :
    loop s condition body n f = ⟨.ok (), f₂, log₁ ++ log₂ ++ [stopped s]⟩ := by
  induction h with
  | nil => exact loop_capped hc
  | cons hturn hb _ ih =>
    rw [loop_turn hturn hb, ih hc]
    simp only [List.append_assoc]

/-- Either the loop stops within a number of bodies, or it takes so many turns and still holds. -/
theorem stops_or_turns (condition : Run Bool) (body : Run Unit) (n : Nat) (f : Frame) :
    (∃ k ≤ n, ∃ o, Stops condition body f k o) ∨
      ∃ f₁ log₁ f₂ log₂, Turns condition body f n f₁ log₁ ∧
        condition f₁ = ⟨.ok true, f₂, log₂⟩ := by
  induction n generalizing f with
  | zero =>
    rcases hc : condition f with ⟨e | holds, f', log⟩
    · exact .inl ⟨0, Nat.le_refl 0, _, .undecided hc⟩
    · cases holds with
      | false => exact .inl ⟨0, Nat.le_refl 0, _, .done hc⟩
      | true => exact .inr ⟨f, [], f', log, .nil f, hc⟩
  | succ n ih =>
    rcases hc : condition f with ⟨e | holds, f', log⟩
    · exact .inl ⟨0, Nat.zero_le _, _, .undecided hc⟩
    · cases holds with
      | false => exact .inl ⟨0, Nat.zero_le _, _, .done hc⟩
      | true =>
        rcases hb : body f' with ⟨e | ⟨⟩, f'', log'⟩
        · exact .inl ⟨1, Nat.le_add_left 1 n, _, .failed hc hb⟩
        · rcases ih f'' with ⟨k, hk, o, hstops⟩ | ⟨f₁, log₁, f₂, log₂, hturns, hholds⟩
          · exact .inl ⟨k + 1, Nat.succ_le_succ hk, _, .turn hc hb hstops⟩
          · exact .inr ⟨f₁, _, f₂, log₂, .cons hc hb hturns, hholds⟩

/-- The loop stops in one way only. -/
theorem Stops.unique {n n' : Nat} {o o' : Outcome RuntimeError Frame Unit}
    (h : Stops condition body f n o) (h' : Stops condition body f n' o') : n = n' ∧ o = o' := by
  induction h generalizing n' o' with
  | done hc =>
    cases h' with
    | done hc' => cases hc.symm.trans hc'; exact ⟨rfl, rfl⟩
    | undecided hc' | failed hc' _ | turn hc' _ _ => cases hc.symm.trans hc'
  | undecided hc =>
    cases h' with
    | undecided hc' => cases hc.symm.trans hc'; exact ⟨rfl, rfl⟩
    | done hc' | failed hc' _ | turn hc' _ _ => cases hc.symm.trans hc'
  | failed hc hb =>
    cases h' with
    | done hc' | undecided hc' => cases hc.symm.trans hc'
    | failed hc' hb' =>
      cases hc.symm.trans hc'
      cases hb.symm.trans hb'
      exact ⟨rfl, rfl⟩
    | turn hc' hb' _ =>
      cases hc.symm.trans hc'
      cases hb.symm.trans hb'
  | turn hc hb _ ih =>
    cases h' with
    | done hc' | undecided hc' => cases hc.symm.trans hc'
    | failed hc' hb' =>
      cases hc.symm.trans hc'
      cases hb.symm.trans hb'
    | turn hc' hb' h' =>
      cases hc.symm.trans hc'
      cases hb.symm.trans hb'
      obtain ⟨rfl, rfl⟩ := ih h'
      exact ⟨rfl, rfl⟩

/-- A loop that takes so many turns and still holds does not stop within them. -/
theorem Turns.not_stops {n k : Nat} {o : Outcome RuntimeError Frame Unit}
    (h : Turns condition body f n f₁ log₁) (hc : condition f₁ = ⟨.ok true, f₂, log₂⟩)
    (hk : k ≤ n) : ¬Stops condition body f k o := by
  intro hs
  induction h generalizing k o with
  | nil =>
    cases Nat.le_zero.mp hk
    cases hs with
    | done hc' | undecided hc' => cases hc.symm.trans hc'
  | cons hturn hb _ ih =>
    cases hs with
    | done hc' | undecided hc' => cases hturn.symm.trans hc'
    | failed hc' hb' =>
      cases hturn.symm.trans hc'
      cases hb.symm.trans hb'
    | turn hc' hb' hs =>
      cases hturn.symm.trans hc'
      cases hb.symm.trans hb'
      exact ih hc (Nat.le_of_succ_le_succ hk) hs

end

end SceneScript.Script.Run
