import SceneScript.Proofs.Component.Names
import SceneScript.Proofs.Scene.Run

/-! # References to destroyed entities

A reference is a place and knows nothing of who fills it. Once its entity is destroyed the place is
empty, and every write through the reference is refused until the place is filled again: by the
entity that got the number next, with a component of the same name.
-/
namespace SceneScript

namespace ComponentRef

/-- Every way to write through the reference fails because the component is missing, so no store
comes out of it. -/
structure Refuses (r : ComponentRef) (s : Store) : Prop where
  set : ∀ v, r.set s v = .error r.missing
  setMember : ∀ name v, r.setMember s name v = .error r.missing
  setPath : ∀ path v, r.setPath s path v = .error r.missing

theorem isSome_get? (r : ComponentRef) (s : Store) :
    (r.get? s).isSome = s.has r.entity r.component :=
  s.isSome_at? r.entity r.component

/-- A write to a filled place may fail because of the value, but not because of the place. -/
theorem set_ne_missing {r : ComponentRef} {s : Store} (hf : s.has r.entity r.component = true)
    (v : Value) : r.set s v ≠ .error r.missing := by
  rw [← isSome_get?, Option.isSome_iff_exists] at hf
  obtain ⟨old, hold⟩ := hf
  obtain ⟨c, hc, _⟩ := Option.bind_eq_some_iff.mp hold
  simp only [set, hold, Store.add, Store.component, hc, Result.ok_bind, ne_eq,
    Result.bind_eq_error]
  rintro (hi | ⟨a, _, ha⟩)
  · unfold ComponentArray.insert at hi
    split at hi
    · split at hi <;> cases hi
    · cases hi
  · cases ha

/-- Writes are refused exactly as long as the place is empty. -/
theorem refuses_iff {r : ComponentRef} {s : Store} :
    r.Refuses s ↔ s.has r.entity r.component = false := by
  constructor
  · intro h
    rw [Bool.eq_false_iff]
    exact fun hf => set_ne_missing hf .void (h.set .void)
  · intro h
    rw [← isSome_get?, Option.isSome_eq_false_iff, Option.isNone_iff_eq_none] at h
    have hset : ∀ v, r.set s v = .error r.missing := fun v => by simp only [set, h]
    have hvalue : r.value s = .error r.missing := by simp only [value, h]
    refine ⟨hset, fun name v => ?_, fun path v => ?_⟩
    · simp only [setMember, hvalue, Result.error_bind]
    · cases path with
      | nil => exact hset v
      | cons first rest => simp only [setPath, hvalue, Result.error_bind]

end ComponentRef

namespace Scene

theorem has_destroyed {e : Entity} {s : Scene} (h : (destroyEntity e s).result = .ok ())
    (id : ComponentId) : (destroyEntity e s).state.store.has e id = false := by
  unfold destroyEntity at h ⊢
  rw [requireAlive_bind] at h ⊢
  split at h
  · rename_i ha
    rw [if_pos ha, Action.modify_bind]
    exact (Store.has_removeEntity s.store e e id).trans (if_pos rfl)
  · cases h

/-- After its entity was destroyed a reference refuses writes exactly when the run since then has
not filled its place, or has emptied it again. -/
theorem stale_refuses_iff {e : Entity} {s₀ s : Scene} {h : List Change}
    (hd : (destroyEntity e s₀).result = .ok ()) (hr : Run (destroyEntity e s₀).state h s)
    {r : ComponentRef} (he : r.entity = e) :
    r.Refuses s.store ↔ lastWritten h e r.component = none := by
  have hempty : Store.has _ e r.component = (none : Option Value).isSome :=
    has_destroyed hd r.component
  have hhas := hr.steps.has_eq e r.component hempty
  rw [ComponentRef.refuses_iff, he, hhas, lastWritten, Option.isSome_eq_false_iff,
    Option.isNone_iff_eq_none]

/-- One entity that has a name. -/
def tagged : Scene :=
  let s := (createEntity (registerComponent .initial "Tag" { name := "" }).state).state
  (addComponent ⟨0⟩ "Tag" (tagValue "old") s).state

/-- The reference to the name. -/
def tagRef : ComponentRef := ⟨⟨0⟩, ⟨0⟩, "Tag"⟩

/-- The number is in use again, but the new entity has no name to write to. -/
theorem recycled_refuses :
    ∃ s, (destroyEntity ⟨0⟩ tagged).result = .ok () ∧
      Run (destroyEntity ⟨0⟩ tagged).state [] s ∧ s.roster.isAlive ⟨0⟩ = true ∧
      tagRef.Refuses s.store := by
  have hd : (destroyEntity ⟨0⟩ tagged).result = .ok () := rfl
  have h₀ : Run (destroyEntity ⟨0⟩ tagged).state [] _ := .start
  have hr := h₀.succeeded .create (x := ⟨0⟩) rfl
  exact ⟨_, hd, hr, rfl, (stale_refuses_iff hd hr rfl).mpr rfl⟩

/-- Once the new entity has a name as well, the old reference writes to it. -/
theorem recycled_writes :
    (∃ h, Run { name := "" } h tagged) ∧ tagRef ∈ tagged.refs ∧
      (destroyEntity ⟨0⟩ tagged).result = .ok () ∧
      ∃ s h store, Run (destroyEntity ⟨0⟩ tagged).state h s ∧
        s.value? ⟨0⟩ "Tag" = .ok (some (tagValue "new")) ∧
        tagRef.set s.store (tagValue "stale") = .ok store ∧
        { s with store := store }.value? ⟨0⟩ "Tag" = .ok (some (tagValue "stale")) := by
  have h₀ : Run { name := "" } [] _ := .start
  have h₁ := h₀.succeeded (.registerComponent .initial "Tag") (x := ⟨0⟩) rfl
  have h₂ := h₁.succeeded .create (x := ⟨0⟩) rfl
  have h₃ := h₂.succeeded (.add ⟨0⟩ "Tag" (tagValue "old")) (x := ()) rfl
  have hr₀ : Run (destroyEntity ⟨0⟩ tagged).state [] _ := .start
  have hr₁ := hr₀.succeeded .create (x := ⟨0⟩) rfl
  have hr₂ := hr₁.succeeded (.add ⟨0⟩ "Tag" (tagValue "new")) (x := ()) rfl
  exact ⟨⟨_, h₃⟩, List.mem_singleton.mpr rfl, rfl, _, _, _, hr₂, rfl, rfl, rfl⟩

end Scene
end SceneScript
