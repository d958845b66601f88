import SceneScript.Proofs.Script.Builtins

/-! # What calls do

Most functions only compute a value from their arguments and from who is alive. Of the others one
prints, one draws numbers, and two emit an event, which carries a live entity or none. So a call
that draws no number does the same whatever source of numbers there is.
-/
namespace SceneScript.Script.Builtin

/-- A call is refused, or it runs a function. -/
theorem call_cases (name : String) (args : List Value) :
    (∃ fault, ∀ c, call name c args = Action.fail fault) ∨
      ∃ b ∈ all, b.name = name ∧ ∀ c, call name c args = b.native c args := by
  cases hb : byName? name with
  | none => exact .inl ⟨.unknownBuiltin name, fun c => by simp only [call, hb]⟩
  | some b =>
    cases hc : b.check args with
    | error fault =>
      refine .inl ⟨fault, fun c => ?_⟩
      funext effects
      simp only [call, hb, invoke, hc, Action.ofExcept_error_bind]
      rfl
    | ok _ =>
      refine .inr ⟨b, List.mem_of_find?_eq_some hb, ?_, fun c => ?_⟩
      · simpa using List.find?_some hb
      · funext effects
        simp only [call, hb, invoke, hc, Action.ofExcept_ok_bind]

/-! ### Emitted events -/

/-- The events that a change of the effects adds carry nobody but live entities. -/
def AddsLive (roster : Roster) (before after : Effects) : Prop :=
  ∃ new, after.emitted = before.emitted ++ new ∧
    ∀ event ∈ new, ∀ e ∈ event.entities, roster.isAlive e = true

theorem addsLive_of_emitted {roster : Roster} {before after : Effects}
    (h : after.emitted = before.emitted) : AddsLive roster before after :=
  ⟨[], by simp [h], by simp⟩

theorem AddsLive.trans {roster : Roster} {e₁ e₂ e₃ : Effects} (h₁ : AddsLive roster e₁ e₂)
    (h₂ : AddsLive roster e₂ e₃) : AddsLive roster e₁ e₃ := by
  obtain ⟨new₁, heq₁, hlive₁⟩ := h₁
  obtain ⟨new₂, heq₂, hlive₂⟩ := h₂
  refine ⟨new₁ ++ new₂, by rw [heq₂, heq₁, List.append_assoc], fun event hm => ?_⟩
  exact (List.mem_append.mp hm).elim (hlive₁ event) (hlive₂ event)

theorem queue_addsLive {roster : Roster} {event : Event}
    (h : ∀ e ∈ event.entities, roster.isAlive e = true) (effects : Effects) :
    AddsLive roster effects (queue event effects).state :=
  ⟨[event], rfl, fun _ hm => (List.mem_singleton.mp hm) ▸ h⟩

theorem randint_emitted (c : EventContext) (args : List Value) (effects : Effects) :
    (randint c args effects).state.emitted = effects.emitted := by
  unfold randint
  by_cases h : integerAt args 1 < integerAt args 0
  · simp only [h, if_true]
    rfl
  · simp only [h, if_false, Action.get_bind, Action.set_bind, Action.pure_apply]

theorem emitTo_addsLive (c : EventContext) (args : List Value) (effects : Effects) :
    AddsLive c.roster effects (emitTo c args effects).state := by
  cases he : c.roster.resolve? (entityAt args 2) with
  | none =>
    have h : emitTo c args = Action.fail (.staleEntity (entityAt args 2)) := by
      simp only [emitTo, he]
    rw [h]
    exact addsLive_of_emitted rfl
  | some e =>
    have h : emitTo c args = queue ⟨stringAt args 0, valueAt args 1, [e]⟩ := by
      simp only [emitTo, he]
    rw [h]
    refine queue_addsLive (fun e' hm => ?_) effects
    rw [List.mem_singleton.mp hm]
    exact Roster.isAlive_of_resolve? he

/-- A call emits events for nobody but live entities, whether it succeeds or fails. -/
theorem call_addsLive (name : String) (c : EventContext) (args : List Value) (effects : Effects) :
    AddsLive c.roster effects (call name c args effects).state := by
  rcases call_cases name args with ⟨fault, hf⟩ | ⟨b, hb, _, hn⟩
  · rw [hf c]
    exact addsLive_of_emitted rfl
  · rw [hn c]
    rcases row_cases hb with ⟨f, type, hf⟩ | rfl | rfl | rfl | rfl
    · rw [hf.native]
      exact addsLive_of_emitted rfl
    · exact addsLive_of_emitted rfl
    · exact addsLive_of_emitted (randint_emitted c args effects)
    · exact queue_addsLive (by simp) effects
    · exact emitTo_addsLive c args effects

/-! ### Sources of numbers -/

theorem queue_agrees (event : Event) {e e' : Effects} (h : e.emitted = e'.emitted) :
    (queue event e).result = (queue event e').result ∧ (queue event e).log = (queue event e').log ∧
      (queue event e).state.emitted = (queue event e').state.emitted :=
  ⟨rfl, rfl, congrArg (· ++ [event]) h⟩

/-- A call that draws no number does the same with any source of numbers, for any event. -/
theorem call_agrees {name : String} (hn : name ≠ "randint") {c c' : EventContext}
    (hr : c.roster = c'.roster) (args : List Value) {e e' : Effects} (h : e.emitted = e'.emitted) :
    (call name c args e).result = (call name c' args e').result ∧
      (call name c args e).log = (call name c' args e').log ∧
      (call name c args e).state.emitted = (call name c' args e').state.emitted := by
  rcases call_cases name args with ⟨fault, hf⟩ | ⟨b, hb, rfl, hnative⟩
  · rw [hf c, hf c']
    exact ⟨rfl, rfl, h⟩
  · rw [hnative c, hnative c']
    rcases row_cases hb with ⟨f, type, hf⟩ | rfl | rfl | rfl | rfl
    · simp only [hf.native, hr]
      exact ⟨rfl, rfl, h⟩
    · exact ⟨rfl, rfl, h⟩
    · exact absurd rfl hn
    · exact queue_agrees _ h
    · dsimp only
      unfold emitTo
      rw [hr]
      cases c'.roster.resolve? (entityAt args 2) with
      | none => exact ⟨rfl, rfl, h⟩
      | some target => exact queue_agrees _ h

end SceneScript.Script.Builtin
