import SceneScript.Component.Storage

/-! # What component arrays hold

An array is a map from entities to values, whatever its storage. A write and a removal touch one
entity only, and what was written is read back unchanged: by tables and dense arrays of values
always, and by an array of transforms when its shape is the one of transforms.
-/
namespace SceneScript

theorem Entity.index_inj {e e' : Entity} : e.index = e'.index ↔ e = e' := by
  obtain ⟨⟨x⟩⟩ := e
  obtain ⟨⟨y⟩⟩ := e'
  simp only [Entity.index, Entity.mk.injEq, UInt32.toNat_inj]

theorem ComponentId.index_inj {id id' : ComponentId} : id.index = id'.index ↔ id = id' := by
  obtain ⟨i⟩ := id
  obtain ⟨j⟩ := id'
  simp

instance : Std.LawfulEqOrd Entity where
  eq_of_compare {a b} h := by
    have : a.id = b.id := Std.LawfulEqOrd.eq_of_compare h
    obtain ⟨x⟩ := a
    obtain ⟨y⟩ := b
    simpa using this
  compare_self {a} := show compare a.id a.id = .eq from Std.ReflOrd.compare_self

namespace Dense
variable {α : Type}

theorem index_lt_size_grow (d : Dense α) (e : Entity) : e.index < (grow d (e.index + 1)).size := by
  simp only [grow, Array.size_append, Array.size_replicate]
  omega

@[simp] theorem get?_grow (d : Dense α) (n : Nat) (e : Entity) : get? (grow d n) e = get? d e := by
  simp only [get?, grow]
  by_cases h : e.index < d.size
  · rw [Array.getElem?_append_left h]
  · have hd : d[e.index]? = none := Array.getElem?_eq_none (by omega)
    rw [Array.getElem?_append_right (by omega), hd]
    by_cases hn : e.index - d.size < n - d.size
    · rw [Array.getElem?_replicate, if_pos hn]
      rfl
    · rw [Array.getElem?_replicate, if_neg hn]

@[simp] theorem get?_insert_self (d : Dense α) (e : Entity) (a : α) :
    get? (insert d e a) e = some a := by
  simp [get?, insert, index_lt_size_grow]

theorem get?_insert_ne (d : Dense α) {e e' : Entity} (a : α) (h : e' ≠ e) :
    get? (insert d e a) e' = get? d e' := by
  have hi : e.index ≠ e'.index := fun hi => h (Entity.index_inj.mp hi).symm
  rw [← get?_grow d (e.index + 1) e']
  simp [get?, insert, Array.getElem?_setIfInBounds_ne, hi]

@[simp] theorem get?_remove_self (d : Dense α) (e : Entity) : get? (remove d e) e = none := by
  by_cases h : e.index < d.size <;> simp [get?, remove, h]

theorem get?_remove_ne (d : Dense α) {e e' : Entity} (h : e' ≠ e) :
    get? (remove d e) e' = get? d e' := by
  have hi : e.index ≠ e'.index := fun hi => h (Entity.index_inj.mp hi).symm
  simp [get?, remove, Array.getElem?_setIfInBounds_ne, hi]

end Dense

namespace Transform

@[simp] theorem type_toValue (t : Transform) : t.toValue.type = .record shape := rfl

theorem eq_vec3_of_type {v : Value} (h : v.type = .vec3) : ∃ x, v = .vec3 x := by
  cases v <;> first | exact ⟨_, rfl⟩ | simp [Value.type, ValueType.vec3] at h

/-- A value of the type of transforms is a transform and nothing more. -/
theorem eq_toValue_of_type {v : Value} (h : v.type = .record shape) :
    ∃ t : Transform, v = t.toValue := by
  cases v with
  | record members =>
    obtain _ | ⟨⟨_, p⟩, _ | ⟨⟨_, r⟩, _ | ⟨⟨_, s⟩, _ | ⟨_, _⟩⟩⟩⟩ := members <;>
      simp only [Value.type, Value.memberTypes, shape, ValueType.record.injEq, List.cons.injEq,
        Prod.mk.injEq, reduceCtorEq, and_false, and_true] at h
    obtain ⟨⟨rfl, hp⟩, ⟨rfl, hr⟩, rfl, hs⟩ := h
    obtain ⟨p, rfl⟩ := eq_vec3_of_type hp
    obtain ⟨r, rfl⟩ := eq_vec3_of_type hr
    obtain ⟨s, rfl⟩ := eq_vec3_of_type hs
    exact ⟨⟨p, r, s⟩, rfl⟩
  | _ => simp [Value.type] at h

@[simp] theorem ofValue?_toValue (t : Transform) : ofValue? t.toValue = some t := by
  obtain ⟨p, r, s⟩ := t
  rfl

end Transform

namespace ComponentArray

/-- The array gives back what it takes: it stores values as they are, or transforms under the
shape of transforms. -/
def Exact (a : ComponentArray) : Prop :=
  match a.storage with
  | .transforms _ _ => a.shape = .record Transform.shape
  | _ => True

theorem get?_remove_self (a : ComponentArray) (e : Entity) : (a.remove e).get? e = none := by
  obtain ⟨shape, storage⟩ := a
  cases storage <;> simp [remove, get?, Storage.remove, Storage.get?]

theorem get?_remove_ne (a : ComponentArray) {e e' : Entity} (h : e' ≠ e) :
    (a.remove e).get? e' = a.get? e' := by
  obtain ⟨shape, storage⟩ := a
  cases storage with
  | table entries => simp [remove, get?, Storage.remove, Storage.get?, Table.find?_erase_ne _ h]
  | dense shared places =>
    simp [remove, get?, Storage.remove, Storage.get?, Dense.get?_remove_ne _ h]
  | transforms shared places =>
    simp [remove, get?, Storage.remove, Storage.get?, Dense.get?_remove_ne _ h]

@[simp] theorem remove_shape (a : ComponentArray) (e : Entity) : (a.remove e).shape = a.shape := rfl

@[simp] theorem remove_exact (a : ComponentArray) (e : Entity) : (a.remove e).Exact ↔ a.Exact := by
  obtain ⟨shape, storage⟩ := a
  cases storage <;> rfl

/-- All that a successful write does to an array. -/
structure Inserted (a : ComponentArray) (e : Entity) (v : Value) (a' : ComponentArray) : Prop where
  type : v.type = a.shape
  shape : a'.shape = a.shape
  exact_iff : a'.Exact ↔ a.Exact
  filled : (a'.get? e).isSome
  same : a.Exact → a'.get? e = some v
  other : ∀ e', e' ≠ e → a'.get? e' = a.get? e'

theorem inserted {a a' : ComponentArray} {e : Entity} {v : Value} (h : a.insert e v = .ok a') :
    a.Inserted e v a' := by
  obtain ⟨shape, storage⟩ := a
  unfold insert at h
  split at h
  · rename_i ht
    cases storage with
    | table entries =>
      cases h
      exact ⟨ht, rfl, Iff.rfl, by simp [get?, Storage.get?],
        fun _ => by simp [get?, Storage.get?],
        fun e' hne => by simp [get?, Storage.get?, Table.find?_insert_ne _ _ hne]⟩
    | dense shared places =>
      cases h
      exact ⟨ht, rfl, Iff.rfl, by simp [get?, Storage.get?],
        fun _ => by simp [get?, Storage.get?],
        fun e' hne => by simp [get?, Storage.get?, Dense.get?_insert_ne _ _ hne]⟩
    | transforms shared places =>
      cases ho : Transform.ofValue? v with
      | none => simp [Storage.insert?, ho] at h
      | some t =>
        simp only [Storage.insert?, ho, Option.map_some, Except.ok.injEq] at h
        subst h
        refine ⟨ht, rfl, Iff.rfl, by simp [get?, Storage.get?], ?_, ?_⟩
        · intro hx
          obtain ⟨t', rfl⟩ := Transform.eq_toValue_of_type (ht.trans hx)
          rw [Transform.ofValue?_toValue] at ho
          cases ho
          simp [get?, Storage.get?]
        · intro e' hne
          simp [get?, Storage.get?, Dense.get?_insert_ne _ _ hne]
  · cases h

/-! ### What never changes -/

theorem insert_kind {a a' : ComponentArray} {e : Entity} {v : Value} (h : a.insert e v = .ok a') :
    a'.storage.kind = a.storage.kind := by
  obtain ⟨shape, storage⟩ := a
  unfold insert at h
  split at h
  · cases storage with
    | table entries | dense shared places =>
      cases h
      rfl
    | transforms shared places =>
      cases ho : Transform.ofValue? v with
      | none => simp [Storage.insert?, ho] at h
      | some t =>
        simp only [Storage.insert?, ho, Option.map_some, Except.ok.injEq] at h
        subst h
        rfl
  · cases h

theorem remove_kind (a : ComponentArray) (e : Entity) :
    (a.remove e).storage.kind = a.storage.kind := by
  obtain ⟨shape, storage⟩ := a
  cases storage <;> rfl

theorem empty_kind (shape : ValueType) (kind : StorageKind) :
    (empty shape kind).storage.kind = kind := by
  rcases kind with _ | (_ | _) | (_ | _) <;> rfl

@[simp] theorem get?_empty (shape : ValueType) (kind : StorageKind) (e : Entity) :
    (empty shape kind).get? e = none := by
  rcases kind with _ | (_ | _) | (_ | _) <;> rfl

/-- Whether an array gives back what it takes depends on its kind and its shape only. -/
theorem exact_congr {a b : ComponentArray} (hk : a.storage.kind = b.storage.kind)
    (hs : a.shape = b.shape) (hb : b.Exact) : a.Exact := by
  obtain ⟨shape, storage⟩ := a
  obtain ⟨shape', storage'⟩ := b
  cases storage with
  | table entries | dense shared places => trivial
  | transforms shared places =>
    cases storage' with
    | transforms shared' places' => exact hs.trans hb
    | table entries => cases shared <;> cases hk
    | dense shared' places' => cases shared <;> cases shared' <;> cases hk

/-- An array that gives back what it takes takes every value of its type. -/
theorem insert_of_exact {a : ComponentArray} (hx : a.Exact) {v : Value} (ht : v.type = a.shape)
    (e : Entity) : ∃ a', a.insert e v = .ok a' := by
  obtain ⟨shape, storage⟩ := a
  unfold insert
  rw [if_pos ht]
  cases storage with
  | table entries | dense shared places => exact ⟨_, rfl⟩
  | transforms shared places =>
    obtain ⟨t, rfl⟩ := Transform.eq_toValue_of_type (ht.trans hx)
    simp only [Storage.insert?, Transform.ofValue?_toValue, Option.map_some]
    exact ⟨_, rfl⟩

end ComponentArray
end SceneScript
