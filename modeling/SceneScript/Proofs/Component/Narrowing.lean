import Mathlib.Tactic.TFAE
import SceneScript.Proofs.Component.Form
import SceneScript.Proofs.Component.Interchange
import SceneScript.Proofs.Script.Writes
import SceneScript.Proofs.Value.Path

/-! # What an array of transforms keeps

Two checks decide whether an array of transforms takes a value: the value has the shape of the
array, and it has the three vectors of a transform. The array keeps the vectors only. Under the
shape of transforms that is all there is. Under a wider shape the other members of an accepted value
are lost, and what is read back is no value of the shape any more, so it cannot be written back.
-/
namespace SceneScript

namespace ComponentArray

/-- What an array of transforms holds of a value that it took is the transform in it. -/
theorem get?_of_insert_transform {a a' : ComponentArray} {e : Entity} {v : Value}
    (hk : a.storage.kind.storesValues = false) (h : a.insert e v = .ok a') :
    ∃ t, Transform.ofValue? v = some t ∧ a'.get? e = some t.toValue := by
  obtain ⟨shape, storage⟩ := a
  cases storage with
  | table entries => cases hk
  | dense shared places => cases shared <;> cases hk
  | transforms shared places =>
    unfold insert at h
    split at h
    · cases ho : Transform.ofValue? v with
      | none => simp [Storage.insert?, ho] at h
      | some t =>
        simp only [Storage.insert?, ho, Option.map_some, Except.ok.injEq] at h
        subst h
        exact ⟨t, rfl, by simp [get?, Storage.get?]⟩
    · cases h

/-- Under the shape of transforms any storage gives back what it takes. -/
theorem exact_of_shape {a : ComponentArray} (hs : a.shape = .record Transform.shape) : a.Exact := by
  obtain ⟨shape, storage⟩ := a
  cases storage with
  | table entries | dense shared places => trivial
  | transforms shared places => exact hs

end ComponentArray

namespace Store
variable {s s' : Store} {id : ComponentId} {c : Component} {e : Entity} {v : Value}

theorem exists_add (hc : s.get? id = some c) {a : ComponentArray}
    (h : c.array.insert e v = .ok a) : ∃ s', s.add e id v = .ok s' :=
  ⟨s.setArray id a, by
    simp only [add, component, hc, Result.ok_bind, h, Result.pure_eq]⟩

/-- A write to a place that was just filled succeeds as it would for the array that was there. -/
theorem get?_add (h : s.add e id v = .ok s') (hc : s.get? id = some c) :
    ∃ a, c.array.insert e v = .ok a ∧ s'.get? id = some { c with array := a } := by
  obtain ⟨c', a, hc', hi, rfl⟩ := add_inserts h
  rw [hc] at hc'
  cases hc'
  exact ⟨a, hi, get?_setArray_self hc a⟩

end Store

namespace Transform

theorem ordered_toValue (t : Transform) : t.toValue.Ordered := by
  refine ⟨?_, trivial, trivial, trivial, trivial⟩
  show Table.Sorted _
  rw [Table.sorted_iff_keys]
  simp only [Table.keys, List.map_cons, List.map_nil]
  decide

/-- What a written member leaves of a transform is a transform. -/
theorem setMember_toValue {t : Transform} {name : String} {x w : Value}
    (h : t.toValue.setMember name x = .ok w) : ∃ t' : Transform, w = t'.toValue :=
  eq_toValue_of_type ((Value.replaced t.ordered_toValue h).type.trans t.type_toValue)

end Transform

namespace ComponentRef
variable {r : ComponentRef} {s s' : Store} {c : Component} {t : Transform}

/-- A transform can be put into a filled place exactly under the shape of transforms. -/
theorem set_transform_iff (hc : s.get? r.component = some c) {old : Value}
    (hr : r.get? s = some old) (t : Transform) :
    (∃ s', r.set s t.toValue = .ok s') ↔ c.array.shape = .record Transform.shape := by
  simp only [set, hr]
  constructor
  · rintro ⟨s', hs'⟩
    obtain ⟨a, ha, -⟩ := Store.get?_add hs' hc
    exact (ComponentArray.inserted ha).type.symm
  · intro hshape
    obtain ⟨a, ha⟩ := ComponentArray.insert_of_exact (ComponentArray.exact_of_shape hshape)
      (t.type_toValue.trans hshape.symm) r.entity
    exact Store.exists_add hc ha

theorem member_eq {v : Value} (hr : r.get? s = some v) (name : String) :
    r.member s name = v.member name := by
  simp only [member, value, hr, Result.ok_bind]

/-- A write to a member of a transform puts another transform into its place. -/
theorem setMember_transform (hr : r.get? s = some t.toValue) {name : String} {x : Value} :
    r.setMember s name x = .ok s' ↔
      ∃ t' : Transform, t.toValue.setMember name x = .ok t'.toValue ∧
        r.set s t'.toValue = .ok s' := by
  simp only [setMember, value, hr, Result.ok_bind, Result.bind_eq_ok]
  constructor
  · rintro ⟨w, hw, hs'⟩
    obtain ⟨t', rfl⟩ := Transform.setMember_toValue hw
    exact ⟨t', hw, hs'⟩
  · rintro ⟨t', hw, hs'⟩
    exact ⟨t'.toValue, hw, hs'⟩

end ComponentRef

/-- A place in an array of transforms keeps the transform in the value that it takes. It keeps the
whole value, and takes back what is read from it, exactly under the shape of transforms. -/
theorem transforms_kept {s s' : Store} {id : ComponentId} {c : Component}
    (hc : s.get? id = some c) (hk : c.array.storage.kind.storesValues = false) {e : Entity}
    {v : Value} (h : s.add e id v = .ok s') (name : String) :
    let r : ComponentRef := ⟨e, id, name⟩
    (∃ t, Transform.ofValue? v = some t ∧ r.get? s' = some t.toValue) ∧
      [c.array.shape = .record Transform.shape,
        r.get? s' = some v,
        ∃ w, r.get? s' = some w ∧ w.type = c.array.shape,
        ∃ w s'', r.get? s' = some w ∧ r.set s' w = .ok s'',
        ∀ member x y, r.member s' member = .ok x → y.type = x.type →
          ∃ s'', r.setMember s' member y = .ok s'',
        ∃ member x s'', r.setMember s' member x = .ok s''].TFAE := by
  intro r
  obtain ⟨a, hi, hc'⟩ := Store.get?_add h hc
  obtain ⟨t, ht, hget⟩ := ComponentArray.get?_of_insert_transform hk hi
  have hin := ComponentArray.inserted hi
  have hread : r.get? s' = some t.toValue := by
    rw [ComponentRef.get?, hc', Option.bind_some, hget]
  -- whatever was written, only transforms are read and written back, and these have one type
  have hset : ∀ t' : Transform, (∃ s'', r.set s' t'.toValue = .ok s'') ↔
      c.array.shape = .record Transform.shape := fun t' => by
    rw [ComponentRef.set_transform_iff hc' hread t', hin.shape]
  refine ⟨⟨t, ht, hread⟩, ?_⟩
  tfae_have 1 → 2 := fun hshape => by
    obtain ⟨t', rfl⟩ := Transform.eq_toValue_of_type (hin.type.trans hshape)
    rw [Transform.ofValue?_toValue] at ht
    cases ht
    exact hread
  tfae_have 2 → 3 := fun hv => ⟨v, hv, hin.type⟩
  tfae_have 3 → 1 := by
    rintro ⟨w, hw, hshape⟩
    rw [hread] at hw
    cases hw
    exact hshape.symm
  tfae_have 1 → 4 := fun hshape => by
    obtain ⟨s'', hs''⟩ := (hset t).mpr hshape
    exact ⟨t.toValue, s'', hread, hs''⟩
  tfae_have 4 → 1 := by
    rintro ⟨w, s'', hw, hs''⟩
    rw [hread] at hw
    cases hw
    exact (hset t).mp ⟨s'', hs''⟩
  tfae_have 1 → 5 := fun hshape member x y hx hy => by
    rw [ComponentRef.member_eq hread] at hx
    obtain ⟨w, hw⟩ := Value.exists_setMember hx hy.symm (by rintro _ _ ⟨⟩)
    obtain ⟨t', rfl⟩ := Transform.setMember_toValue hw
    obtain ⟨s'', hs''⟩ := (hset t').mpr hshape
    exact ⟨s'', (ComponentRef.setMember_transform hread).mpr ⟨t', hw, hs''⟩⟩
  tfae_have 5 → 6 := fun hall => by
    have hposition : r.member s' "position" = .ok (.vec3 t.position) :=
      ComponentRef.member_eq hread _
    obtain ⟨s'', hs''⟩ := hall _ _ (.vec3 t.position) hposition rfl
    exact ⟨_, _, s'', hs''⟩
  tfae_have 6 → 1 := by
    rintro ⟨member, x, s'', hs''⟩
    obtain ⟨t', -, hs''⟩ := (ComponentRef.setMember_transform hread).mp hs''
    exact (hset t').mp ⟨s'', hs''⟩
  tfae_finish

/-- Under the built-in shape a transform is kept, and its members can be replaced. -/
theorem builtIn_kept :
    let c := Component.ofDescription .transform
    let v := Transform.identity.toValue
    let s : Store := ⟨[("Transform", ⟨0⟩)], [c]⟩
    let s' : Store := { s with
      components := [{ c with array.storage := .transforms true #[some .identity] }] }
    let r : ComponentRef := ⟨⟨0⟩, ⟨0⟩, "Transform"⟩
    c.array.storage.kind.storesValues = false ∧ s.add ⟨0⟩ ⟨0⟩ v = .ok s' ∧
      r.get? s' = some v ∧ ∃ s'', r.setMember s' "position" (.vec3 ⟨1, 2, 3⟩) = .ok s'' := by
  intro c v s s' r
  have hc : s.get? ⟨0⟩ = some c := rfl
  have hadd : s.add ⟨0⟩ ⟨0⟩ v = .ok s' := rfl
  have hkept := (transforms_kept hc rfl hadd "Transform").2
  have hread : r.get? s' = some v := (hkept.out 0 1).mp rfl
  have hmembers : ∀ member x y, r.member s' member = .ok x → y.type = x.type →
      ∃ s'', r.setMember s' member y = .ok s'' := (hkept.out 0 4).mp rfl
  exact ⟨rfl, hadd, hread, hmembers "position" (.vec3 ⟨0, 0, 0⟩) _ rfl rfl⟩

/-! ### A wider shape -/

/-- A transform with one more member. -/
def lampShape : RecordType := ("brightness", .number) :: Transform.shape

def lamp : Value :=
  .record [("brightness", .number 1), ("position", .vec3 ⟨0, 0, 0⟩), ("rotation", .vec3 ⟨0, 0, 0⟩),
    ("scale", .vec3 ⟨1, 1, 1⟩)]

/-- An array of transforms that was made with the wider shape takes a value of the shape, loses a
member of it, and refuses what is read from it. -/
theorem brightness_lost :
    let a : ComponentArray := .empty (.record lampShape) (.dense .transform)
    let a' : ComponentArray := ⟨.record lampShape, .transforms false #[some .identity]⟩
    let read := Transform.identity.toValue
    a.insert ⟨0⟩ lamp = .ok a' ∧ a'.get? ⟨0⟩ = some read ∧ read ≠ lamp ∧ read.type ≠ a'.shape ∧
      a'.insert ⟨0⟩ read = .error (.typeMismatch (.record lampShape) (.record Transform.shape)) ∧
      ¬ ∀ kept, a.insert ⟨0⟩ lamp = .ok kept → kept.get? ⟨0⟩ = some lamp ∧
        ∀ w, kept.get? ⟨0⟩ = some w → w.type = a.shape ∧
          ∃ again, kept.insert ⟨0⟩ w = .ok again := by
  intro a a' read
  have htype : read.type ≠ lamp.type := by decide
  have hne : read ≠ lamp := fun h => htype (congrArg Value.type h)
  refine ⟨rfl, rfl, hne, htype, rfl, fun hall => ?_⟩
  exact hne (Option.some.inj (hall a' rfl).1)

end SceneScript
