import SceneScript.Component.Store
import SceneScript.Proofs.Component.Array
import SceneScript.Proofs.Result

/-! # What a store holds

A store is a map from places, an entity and a component number each, to values. Every operation
changes one place or one entity, and a history of the changes tells what each place holds.
-/
namespace SceneScript

/-- A change of the values of a store. -/
inductive Change where
  | wrote (e : Entity) (id : ComponentId) (v : Value)
  | removed (e : Entity) (id : ComponentId)
  | destroyed (e : Entity)

/-- The value in a place after a change, where `old` is the one before. -/
def Change.apply (e : Entity) (id : ComponentId) (old : Option Value) : Change → Option Value
  | .wrote e' id' v => if e = e' ∧ id = id' then some v else old
  | .removed e' id' => if e = e' ∧ id = id' then none else old
  | .destroyed e' => if e = e' then none else old

/-- The value that was written last to a place and neither removed nor destroyed since. -/
def lastWritten (h : List Change) (e : Entity) (id : ComponentId) : Option Value :=
  h.foldl (Change.apply e id) none

@[simp] theorem lastWritten_append (h : List Change) (c : Change) (e : Entity)
    (id : ComponentId) : lastWritten (h ++ [c]) e id = c.apply e id (lastWritten h e id) := by
  simp [lastWritten]

/-- Writes that agree on the value of a place leave this value there, whatever their order is. -/
theorem lastWritten_eq {h : List Change} {e : Entity} {id : ComponentId} {f : Option Value}
    (hw : ∀ c ∈ h, ∃ e id v, c = .wrote e id v) (hf : ∀ v, .wrote e id v ∈ h ↔ f = some v) :
    lastWritten h e id = f := by
  -- at every point the value is there already, or a write of it is still to come
  suffices hs : ∀ (rest : List Change) (old : Option Value),
      (∀ c ∈ rest, ∃ e id v, c = .wrote e id v) → (∀ v, .wrote e id v ∈ rest → f = some v) →
        (old = f ∨ ∃ v, Change.wrote e id v ∈ rest) →
          rest.foldl (Change.apply e id) old = f by
    refine hs h none hw (fun v => (hf v).mp) ?_
    cases hv : f with
    | none => exact .inl rfl
    | some v => exact .inr ⟨v, (hf v).mpr hv⟩
  intro rest
  induction rest with
  | nil =>
    intro old _ _ hold
    simpa using hold
  | cons c rest ih =>
    intro old hwrote hmem hold
    obtain ⟨⟨e', id', v', rfl⟩, hrest⟩ := List.forall_mem_cons.mp hwrote
    refine ih _ hrest (fun v hv => hmem v (List.mem_cons_of_mem _ hv)) ?_
    by_cases hplace : e = e' ∧ id = id'
    · obtain ⟨rfl, rfl⟩ := hplace
      exact .inl (by simp [Change.apply, hmem v' (List.mem_cons_self ..)])
    · have hsame : Change.apply e id old (.wrote e' id' v') = old := if_neg hplace
      rw [hsame]
      refine hold.imp_right fun ⟨v, hv⟩ => ?_
      rcases List.mem_cons.mp hv with heq | hv
      · cases heq
        exact absurd ⟨rfl, rfl⟩ hplace
      · exact ⟨v, hv⟩

/-- The value that a change leaves in a place was there before, or was written. -/
theorem Change.apply_eq_some {c : Change} {e : Entity} {id : ComponentId} {old : Option Value}
    {v : Value} (h : c.apply e id old = some v) : old = some v ∨ c = .wrote e id v := by
  cases c with
  | wrote e' id' v' =>
    rw [apply] at h
    split at h
    · rename_i hplace
      cases h
      exact .inr (by rw [hplace.1, hplace.2])
    · exact .inl h
  | removed e' id' | destroyed e' =>
    rw [apply] at h
    split at h
    · cases h
    · exact .inl h

/-- The value in a place has been written there. -/
theorem mem_of_lastWritten {h : List Change} {e : Entity} {id : ComponentId} {v : Value}
    (hv : lastWritten h e id = some v) : .wrote e id v ∈ h := by
  suffices hs : ∀ (rest : List Change) (old : Option Value),
      rest.foldl (Change.apply e id) old = some v → old = some v ∨ .wrote e id v ∈ rest from
    (hs h none hv).resolve_left (by simp)
  intro rest
  induction rest with
  | nil => exact fun old hold => .inl hold
  | cons c rest ih =>
    intro old hold
    rcases ih _ hold with hone | hmem
    · refine (Change.apply_eq_some hone).imp_right ?_
      rintro rfl
      exact List.mem_cons_self ..
    · exact .inr (List.mem_cons_of_mem _ hmem)

namespace Store

theorem get?_eq_none_iff {s : Store} {id : ComponentId} : s.get? id = none ↔ s.size ≤ id.index := by
  simp [get?, size]

theorem get?_setArray_self {s : Store} {id : ComponentId} {c : Component} (hc : s.get? id = some c)
    (a : ComponentArray) : (s.setArray id a).get? id = some { c with array := a } := by
  simp only [get?] at hc
  simp [get?, setArray, hc]

theorem get?_setArray_ne (s : Store) {id id' : ComponentId} (a : ComponentArray) (h : id' ≠ id) :
    (s.setArray id a).get? id' = s.get? id' := by
  have hi : id.index ≠ id'.index := by
    obtain ⟨i⟩ := id
    obtain ⟨j⟩ := id'
    simpa using Ne.symm h
  simp [get?, setArray, hi]

@[simp] theorem get?_removeEntity (s : Store) (e : Entity) (id : ComponentId) :
    (s.removeEntity e).get? id =
      (s.get? id).map fun c => { c with array := c.array.remove e } := by
  simp [get?, removeEntity]

theorem get?_of_component {s : Store} {id : ComponentId} {c : Component}
    (h : s.component id = .ok c) : s.get? id = some c := by
  unfold component at h
  split at h
  · cases h
    assumption
  · cases h

theorem add_inserts {s s' : Store} {e : Entity} {id : ComponentId} {v : Value}
    (h : s.add e id v = .ok s') :
    ∃ c a, s.get? id = some c ∧ c.array.insert e v = .ok a ∧ s' = s.setArray id a := by
  obtain ⟨c, hc, h⟩ := Result.bind_eq_ok.mp h
  obtain ⟨a, ha, h⟩ := Result.bind_eq_ok.mp h
  cases h
  exact ⟨c, a, get?_of_component hc, ha, rfl⟩

/-- A successful write puts the value into the array of the component. -/
theorem add_ok {s s' : Store} {e : Entity} {id : ComponentId} {v : Value}
    (h : s.add e id v = .ok s') :
    ∃ c a, s.get? id = some c ∧ c.array.Inserted e v a ∧ s' = s.setArray id a := by
  obtain ⟨c, a, hc, ha, rfl⟩ := add_inserts h
  exact ⟨c, a, hc, ComponentArray.inserted ha, rfl⟩

theorem remove_ok {s s' : Store} {e : Entity} {id : ComponentId} {old : Option Value}
    (h : s.remove e id = .ok (old, s')) :
    ∃ c, s.get? id = some c ∧ s' = s.setArray id (c.array.remove e) := by
  obtain ⟨c, hc, h⟩ := Result.bind_eq_ok.mp h
  cases h
  exact ⟨c, get?_of_component hc, rfl⟩

/-- Registration leaves the components alone and may add one without values. -/
theorem register_state (s : Store) (d : ComponentDescription) :
    (register d s).state = s ∨
      s.id? d.name = none ∧ (register d s).state = s.push d := by
  unfold register
  split
  · exact Or.inl rfl
  · exact Or.inr ⟨‹_›, rfl⟩

theorem get?_push (s : Store) (d : ComponentDescription) (id : ComponentId) :
    (s.push d).get? id = if id.index = s.size then some (.ofDescription d) else s.get? id := by
  have hz : s.size = s.components.length := rfl
  rcases Nat.lt_trichotomy id.index s.size with h | h | h
  · rw [if_neg (by omega), get?, get?, push, List.getElem?_append_left (by omega)]
  · rw [if_pos h, get?, h, hz, push, List.getElem?_concat_length]
  · rw [if_neg (by omega), get?, get?, List.getElem?_eq_none (by simp [push]; omega),
      List.getElem?_eq_none (by omega)]

theorem has_eq {s : Store} {id : ComponentId} {c : Component} (hc : s.get? id = some c)
    (e : Entity) : s.has e id = c.array.has e := by
  simp [has, hc]

theorem has_of_get?_none {s : Store} {id : ComponentId} (h : s.get? id = none) (e : Entity) :
    s.has e id = false := by
  simp [has, h]

theorem has_register (s : Store) (d : ComponentDescription) (e : Entity) (id : ComponentId) :
    (register d s).state.has e id = s.has e id := by
  rcases s.register_state d with h | ⟨-, h⟩
  · rw [h]
  · rw [h]
    by_cases hi : id.index = s.size
    · rw [has_of_get?_none (get?_eq_none_iff.mpr (Nat.le_of_eq hi.symm))]
      simp [has, get?_push, hi, Component.ofDescription, ComponentDescription.newArray,
        ComponentArray.has]
    · simp [has, get?_push, hi]

theorem has_add {s s' : Store} {e : Entity} {id : ComponentId} {v : Value}
    (h : s.add e id v = .ok s') (e' : Entity) (id' : ComponentId) :
    s'.has e' id' = if e' = e ∧ id' = id then true else s.has e' id' := by
  obtain ⟨c, a, hc, hi, rfl⟩ := add_ok h
  by_cases hid : id' = id
  · subst hid
    rw [has_eq (get?_setArray_self hc a), has_eq hc]
    by_cases he : e' = e
    · subst he
      simp [ComponentArray.has, hi.filled]
    · simp [ComponentArray.has, hi.other e' he, he]
  · simp [has, get?_setArray_ne s a hid, hid]

theorem has_remove {s s' : Store} {e : Entity} {id : ComponentId} {old : Option Value}
    (h : s.remove e id = .ok (old, s')) (e' : Entity) (id' : ComponentId) :
    s'.has e' id' = if e' = e ∧ id' = id then false else s.has e' id' := by
  obtain ⟨c, hc, rfl⟩ := remove_ok h
  by_cases hid : id' = id
  · subst hid
    rw [has_eq (get?_setArray_self hc _), has_eq hc]
    by_cases he : e' = e
    · subst he
      simp [ComponentArray.has, ComponentArray.get?_remove_self]
    · simp [ComponentArray.has, ComponentArray.get?_remove_ne _ he, he]
  · simp [has, get?_setArray_ne s _ hid, hid]

theorem has_removeEntity (s : Store) (e e' : Entity) (id : ComponentId) :
    (s.removeEntity e).has e' id = if e' = e then false else s.has e' id := by
  cases hc : s.get? id with
  | none => simp [has, hc]
  | some c =>
    by_cases he : e' = e
    · subst he
      simp [has, hc, ComponentArray.has, ComponentArray.get?_remove_self]
    · simp [has, hc, ComponentArray.has, ComponentArray.get?_remove_ne _ he, he]

/-- The store holds values of the declared types only, and every array that gives back what it
takes holds what the history says. -/
structure Sound (s : Store) (h : List Change) : Prop where
  shape : ∀ id c, s.get? id = some c → c.array.shape = c.description.shape
  typed : ∀ id c, s.get? id = some c → c.array.Exact →
    ∀ e v, c.array.get? e = some v → v.type = c.description.shape
  recalls : ∀ id c, s.get? id = some c → c.array.Exact →
    ∀ e, c.array.get? e = lastWritten h e id
  unused : ∀ id, s.get? id = none → ∀ e, lastWritten h e id = none

theorem Sound.empty : Sound {} [] :=
  ⟨by simp [get?], by simp [get?], by simp [get?], fun _ _ _ => rfl⟩

theorem Sound.register {s : Store} {h : List Change} (hs : s.Sound h)
    (d : ComponentDescription) : (register d s).state.Sound h := by
  rcases s.register_state d with hr | ⟨-, hr⟩
  · rw [hr]
    exact hs
  · rw [hr]
    have hnew : ∀ e, (Component.ofDescription d).array.get? e = none := fun e => by
      simp [Component.ofDescription, ComponentDescription.newArray]
    refine ⟨?_, ?_, ?_, ?_⟩
    · intro id c hc
      rw [get?_push] at hc
      split at hc
      · cases hc
        rfl
      · exact hs.shape id c hc
    · intro id c hc hx e v hv
      rw [get?_push] at hc
      split at hc
      · cases hc
        simp [hnew] at hv
      · exact hs.typed id c hc hx e v hv
    · intro id c hc hx e
      rw [get?_push] at hc
      split at hc
      · rename_i hi
        cases hc
        rw [hnew, hs.unused id (get?_eq_none_iff.mpr (Nat.le_of_eq hi.symm))]
      · exact hs.recalls id c hc hx e
    · intro id hc e
      rw [get?_push] at hc
      split at hc
      · cases hc
      · exact hs.unused id hc e

/-- One array is replaced by an array that holds what the history says after one more change. -/
theorem Sound.setArray {s : Store} {h : List Change} (hs : s.Sound h) {id : ComponentId}
    {c : Component} {a : ComponentArray} {change : Change} (hc : s.get? id = some c)
    (hshape : a.shape = c.array.shape) (hexact : a.Exact → c.array.Exact)
    (htyped : a.Exact → ∀ e v, a.get? e = some v → v.type = c.description.shape)
    (hself : a.Exact → ∀ e, a.get? e = change.apply e id (c.array.get? e))
    (hother : ∀ id' old e, id' ≠ id → change.apply e id' old = old) :
    (s.setArray id a).Sound (h ++ [change]) := by
  refine ⟨?_, ?_, ?_, ?_⟩
  · intro id' c' hc'
    by_cases hid : id' = id
    · subst hid
      rw [get?_setArray_self hc] at hc'
      cases hc'
      exact hshape.trans (hs.shape id' c hc)
    · rw [get?_setArray_ne s a hid] at hc'
      exact hs.shape id' c' hc'
  · intro id' c' hc' hx e v hv
    by_cases hid : id' = id
    · subst hid
      rw [get?_setArray_self hc] at hc'
      cases hc'
      exact htyped hx e v hv
    · rw [get?_setArray_ne s a hid] at hc'
      exact hs.typed id' c' hc' hx e v hv
  · intro id' c' hc' hx e
    rw [lastWritten_append]
    by_cases hid : id' = id
    · subst hid
      rw [get?_setArray_self hc] at hc'
      cases hc'
      rw [← hs.recalls id' c hc (hexact hx)]
      exact hself hx e
    · rw [get?_setArray_ne s a hid] at hc'
      rw [hother id' _ e hid, hs.recalls id' c' hc' hx]
  · intro id' hc' e
    have hid : id' ≠ id := by
      rintro rfl
      rw [get?_setArray_self hc] at hc'
      cases hc'
    rw [get?_setArray_ne s a hid] at hc'
    rw [lastWritten_append, hother id' _ e hid, hs.unused id' hc']

theorem Sound.add {s s' : Store} {h : List Change} (hs : s.Sound h) {e : Entity}
    {id : ComponentId} {v : Value} (ha : s.add e id v = .ok s') :
    s'.Sound (h ++ [.wrote e id v]) := by
  obtain ⟨c, a, hc, hi, rfl⟩ := add_ok ha
  refine hs.setArray hc hi.shape hi.exact_iff.mp ?_ ?_ ?_
  · intro hx e' w hw
    by_cases he : e' = e
    · subst he
      rw [hi.same (hi.exact_iff.mp hx)] at hw
      cases hw
      exact hi.type.trans (hs.shape id c hc)
    · rw [hi.other e' he] at hw
      exact hs.typed id c hc (hi.exact_iff.mp hx) e' w hw
  · intro hx e'
    by_cases he : e' = e
    · subst he
      simp [Change.apply, hi.same (hi.exact_iff.mp hx)]
    · simp [Change.apply, hi.other e' he, he]
  · intro id' old e' hid
    simp [Change.apply, hid]

theorem Sound.remove {s s' : Store} {h : List Change} (hs : s.Sound h) {e : Entity}
    {id : ComponentId} {old : Option Value} (hr : s.remove e id = .ok (old, s')) :
    s'.Sound (h ++ [.removed e id]) := by
  obtain ⟨c, hc, rfl⟩ := remove_ok hr
  refine hs.setArray hc rfl (ComponentArray.remove_exact _ _).mp ?_ ?_ ?_
  · intro hx e' w hw
    by_cases he : e' = e
    · subst he
      simp [ComponentArray.get?_remove_self] at hw
    · rw [ComponentArray.get?_remove_ne _ he] at hw
      exact hs.typed id c hc ((ComponentArray.remove_exact _ _).mp hx) e' w hw
  · intro _ e'
    by_cases he : e' = e
    · subst he
      simp [Change.apply, ComponentArray.get?_remove_self]
    · simp [Change.apply, ComponentArray.get?_remove_ne _ he, he]
  · intro id' old' e' hid
    simp [Change.apply, hid]

theorem Sound.removeEntity {s : Store} {h : List Change} (hs : s.Sound h) (e : Entity) :
    (s.removeEntity e).Sound (h ++ [.destroyed e]) := by
  refine ⟨?_, ?_, ?_, ?_⟩
  · intro id c hc
    rw [get?_removeEntity] at hc
    obtain ⟨d, hd, rfl⟩ := Option.map_eq_some_iff.mp hc
    exact hs.shape id d hd
  · intro id c hc hx e' v hv
    rw [get?_removeEntity] at hc
    obtain ⟨d, hd, rfl⟩ := Option.map_eq_some_iff.mp hc
    by_cases he : e' = e
    · subst he
      simp [ComponentArray.get?_remove_self] at hv
    · rw [ComponentArray.get?_remove_ne _ he] at hv
      exact hs.typed id d hd ((ComponentArray.remove_exact _ _).mp hx) e' v hv
  · intro id c hc hx e'
    rw [get?_removeEntity] at hc
    obtain ⟨d, hd, rfl⟩ := Option.map_eq_some_iff.mp hc
    have hrec := hs.recalls id d hd ((ComponentArray.remove_exact _ _).mp hx) e'
    by_cases he : e' = e
    · subst he
      simp [Change.apply, ComponentArray.get?_remove_self]
    · simp [Change.apply, ComponentArray.get?_remove_ne _ he, he, hrec]
  · intro id hc e'
    have hn : s.get? id = none := by simpa using hc
    simp [Change.apply, hs.unused id hn]

end Store
end SceneScript
