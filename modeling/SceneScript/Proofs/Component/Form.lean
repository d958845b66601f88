import SceneScript.Proofs.Component.Names

/-! # The form of an array

An array takes values of one type and keeps them in one way. Writes change neither, and the two
together tell the type of every value that is read.
-/
namespace SceneScript

/-- The type of the values that an array takes, and how it keeps them. -/
structure Form where
  shape : ValueType
  kind : StorageKind
  deriving DecidableEq

/-- The type of the values that are read from an array of the form. -/
def Form.content (f : Form) : ValueType :=
  match f.kind with
  | .dense .transform | .synchronized .transform => .record Transform.shape
  | _ => f.shape

/-- What an array of the form keeps of a value, or the error for a value that it does not take. -/
def Form.keep (f : Form) (v : Value) : Except Error Value :=
  if v.type = f.shape then
    match f.kind with
    | .dense .transform | .synchronized .transform =>
      match Transform.ofValue? v with
      | some t => .ok t.toValue
      | none => .error (.typeMismatch f.shape v.type)
    | _ => .ok v
  else .error (.typeMismatch f.shape v.type)

namespace ComponentArray

def form (a : ComponentArray) : Form := ⟨a.shape, a.storage.kind⟩

theorem insert_form {a a' : ComponentArray} {e : Entity} {v : Value} (h : a.insert e v = .ok a') :
    a'.form = a.form := by
  rw [form, form, (inserted h).shape, insert_kind h]

/-- What comes of a write depends on the form of the array and on the value alone. -/
theorem insert_keep (a : ComponentArray) (e : Entity) (v : Value) :
    match a.form.keep v with
    | .ok w => ∃ a', a.insert e v = .ok a' ∧ a'.get? e = some w
    | .error err => a.insert e v = .error err := by
  obtain ⟨shape, storage⟩ := a
  by_cases ht : v.type = shape
  · subst ht
    cases storage with
    | table entries =>
      simp [form, Form.keep, Storage.kind, insert, Storage.insert?, get?, Storage.get?]
    | dense shared places =>
      cases shared
      all_goals simp [form, Form.keep, Storage.kind, insert, Storage.insert?, get?, Storage.get?]
    | transforms shared places =>
      cases shared
      all_goals
        cases ho : Transform.ofValue? v with
        | none => simp [form, Form.keep, Storage.kind, insert, Storage.insert?, ho]
        | some t =>
          simp [form, Form.keep, Storage.kind, insert, Storage.insert?, ho, get?, Storage.get?]
  · simp [form, Form.keep, insert, ht]

end ComponentArray

namespace Store

/-- The form of the array of a component. -/
def form? (s : Store) (id : ComponentId) : Option Form := (s.get? id).map fun c => c.array.form

theorem form?_add {s s' : Store} {e : Entity} {id : ComponentId} {v : Value}
    (h : s.add e id v = .ok s') (id' : ComponentId) : s'.form? id' = s.form? id' := by
  obtain ⟨c, a, hc, hi, rfl⟩ := add_inserts h
  by_cases hid : id' = id
  · subst hid
    simp only [form?, get?_setArray_self hc, hc, Option.map_some, ComponentArray.insert_form hi]
  · simp only [form?, get?_setArray_ne s a hid]

theorem add_keep {s : Store} {id : ComponentId} {form : Form} (hf : s.form? id = some form)
    (e : Entity) (v : Value) :
    match form.keep v with
    | .ok w => ∃ s', s.add e id v = .ok s' ∧ s'.at? e id = some w
    | .error err => s.add e id v = .error err := by
  obtain ⟨c, hc, rfl⟩ := Option.map_eq_some_iff.mp hf
  have hkeep := c.array.insert_keep e v
  cases hw : c.array.form.keep v with
  | error err =>
    rw [hw] at hkeep
    simp only [add, component, hc, Result.ok_bind, hkeep, Result.error_bind]
  | ok w =>
    rw [hw] at hkeep
    obtain ⟨a, ha, hget⟩ := hkeep
    refine ⟨s.setArray id a, ?_, ?_⟩
    · simp only [add, component, hc, Result.ok_bind, ha, Result.pure_eq]
    · simp only [at?, get?_setArray_self hc, Option.bind_some, hget]

/-- The component that an entity has under a name: the form of its array, and the value. -/
def holding? (s : Store) (e : Entity) (name : String) : Option (Form × Value) :=
  (s.id? name).bind fun id => (s.form? id).bind fun form => (s.at? e id).map fun v => (form, v)

section
variable {s s' : Store} {e e' : Entity} {id : ComponentId} {name other : String} {v : Value}

theorem holding?_eq_some {form : Form} (hid : s.id? name = some id) :
    s.holding? e name = some (form, v) ↔ s.form? id = some form ∧ s.at? e id = some v := by
  simp [holding?, hid, Option.bind_eq_some_iff]

theorem holding?_eq_none (hid : s.id? name = some id) :
    s.holding? e name = none ↔ s.at? e id = none := by
  cases hc : s.get? id <;> simp [holding?, hid, form?, at?, hc]

/-- Where the same is held, the same value is in the places. -/
theorem at?_of_holding? {t : Store} {id' : ComponentId} (hid : s.id? name = some id)
    (hid' : t.id? name = some id') (h : s.holding? e name = t.holding? e name) :
    s.at? e id = t.at? e id' := by
  cases hv : t.holding? e name with
  | none => rw [(holding?_eq_none hid).mp (h.trans hv), (holding?_eq_none hid').mp hv]
  | some held =>
    obtain ⟨form, v⟩ := held
    rw [((holding?_eq_some hid).mp (h.trans hv)).2, ((holding?_eq_some hid').mp hv).2]

/-- A write changes the named component of the entity, and no other component of anybody. -/
theorem Linked.holding?_add_ne (hs : s.Linked) (hid : s.id? name = some id)
    (h : s.add e id v = .ok s') (hne : ¬(e' = e ∧ other = name)) :
    s'.holding? e' other = s.holding? e' other := by
  simp only [holding?, id?_congr (catalog_add h)]
  cases ho : s.id? other with
  | none => rfl
  | some id' =>
    have hplace : ¬(e = e' ∧ id = id') := by
      rintro ⟨rfl, rfl⟩
      obtain ⟨c, hc, hname⟩ := hs.component_of_id? hid
      exact hne ⟨rfl, (hs.name_of_id? ho hc).symm.trans hname⟩
    simp only [Option.bind_some, form?_add h, at?_add_ne h hplace]

end

/-- A stored value has the type that the form tells. -/
theorem Sound.type_of_at? {s : Store} {h : List Change} (hs : s.Sound h) {e : Entity}
    {id : ComponentId} {v : Value} (hv : s.at? e id = some v) :
    ∃ form, s.form? id = some form ∧ v.type = form.content := by
  obtain ⟨c, hc, hget⟩ := Option.bind_eq_some_iff.mp hv
  refine ⟨c.array.form, by rw [form?, hc, Option.map_some], ?_⟩
  have hshape := hs.shape id c hc
  have htyped := hs.typed id c hc
  obtain ⟨description, shape, storage⟩ := c
  cases storage with
  | table entries => exact (htyped trivial e v hget).trans hshape.symm
  | dense shared places =>
    cases shared
    · exact (htyped trivial e v hget).trans hshape.symm
    · exact (htyped trivial e v hget).trans hshape.symm
  | transforms shared places =>
    obtain ⟨t, _, rfl⟩ := Option.map_eq_some_iff.mp hget
    cases shared
    · rfl
    · rfl

/-- Sound stores of the same forms with the same places filled have values of the same types. -/
theorem type_at?_congr {s s' : Store} {h h' : List Change} (hs : s.Sound h) (hs' : s'.Sound h')
    {e : Entity} {id : ComponentId} (hform : s'.form? id = s.form? id)
    (hhas : s'.has e id = s.has e id) :
    (s'.at? e id).map Value.type = (s.at? e id).map Value.type := by
  rw [← isSome_at?, ← isSome_at?] at hhas
  cases hv : s.at? e id with
  | none =>
    rw [hv, Option.isSome_none, Option.isSome_eq_false_iff, Option.isNone_iff_eq_none] at hhas
    rw [hhas]
  | some v =>
    rw [hv, Option.isSome_some, Option.isSome_iff_exists] at hhas
    obtain ⟨v', hv'⟩ := hhas
    obtain ⟨form, hf, ht⟩ := hs.type_of_at? hv
    obtain ⟨form', hf', ht'⟩ := hs'.type_of_at? hv'
    rw [hform, hf] at hf'
    cases hf'
    rw [hv', Option.map_some, Option.map_some, ht, ht']

end Store
end SceneScript
