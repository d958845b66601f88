import SceneScript.Proofs.Component.Combination
import SceneScript.Proofs.Component.Interchange
import SceneScript.Proofs.Scene.Run

/-! # Matchings are intersections

A matching starts from the array with the fewest entities and keeps those that all other arrays
have too. Which array that is does not matter: the result is the intersection, in ascending order,
and it is settled when the matching is made. The arrays may go on changing.
-/
namespace SceneScript

namespace Store

/-- What can be made of an empty store by registering components and by changing values. -/
inductive Built : Store → Prop
  | empty : Built {}
  | registered {s : Store} (d : ComponentDescription) : Built s → Built (register d s).state
  | edited {s t : Store} {h : List Change} : Built s → s.Edits h t → Built t
  | cleared {s : Store} (e : Entity) : Built s → Built (s.removeEntity e)

/-- Every array is in order. -/
def Tidy (s : Store) : Prop := ∀ id c, s.get? id = some c → c.array.storage.Tidy

theorem Tidy.setArray {s : Store} (hs : s.Tidy) {id : ComponentId} {c : Component}
    {a : ComponentArray} (hc : s.get? id = some c) (ha : a.storage.Tidy) :
    (s.setArray id a).Tidy := by
  intro id' c' hc'
  by_cases hid : id' = id
  · subst hid
    rw [get?_setArray_self hc] at hc'
    cases hc'
    exact ha
  · rw [get?_setArray_ne s a hid] at hc'
    exact hs id' c' hc'

theorem Tidy.register {s : Store} (hs : s.Tidy) (d : ComponentDescription) :
    (register d s).state.Tidy := by
  rcases s.register_state d with h | ⟨-, h⟩
  · rwa [h]
  · rw [h]
    intro id c hc
    rw [get?_push] at hc
    split at hc
    · cases hc
      exact Storage.tidy_empty d.kind
    · exact hs id c hc

theorem Tidy.removeEntity {s : Store} (hs : s.Tidy) (e : Entity) : (s.removeEntity e).Tidy := by
  intro id c hc
  rw [get?_removeEntity] at hc
  obtain ⟨d, hd, rfl⟩ := Option.map_eq_some_iff.mp hc
  exact (hs id d hd).remove e

theorem Edits.tidy {s t : Store} {h : List Change} (he : s.Edits h t) (hs : s.Tidy) : t.Tidy := by
  induction he with
  | nil => exact hs
  | wrote ha _ ih =>
    obtain ⟨c, a, hc, hi, rfl⟩ := add_inserts ha
    exact ih (hs.setArray hc ((hs _ c hc).insert (ComponentArray.insert_storage hi)))
  | removed hr _ ih =>
    obtain ⟨c, hc, rfl⟩ := remove_ok hr
    exact ih (hs.setArray hc ((hs _ c hc).remove _))

theorem Built.tidy {s : Store} (hs : s.Built) : s.Tidy := by
  induction hs with
  | empty => intro id c hc; cases hc
  | registered d _ ih => exact ih.register d
  | edited _ he ih => exact he.tidy ih
  | cleared e _ ih => exact ih.removeEntity e

end Store

theorem Scene.Steps.built {s s' : Scene} {h : List Change} (hs : Steps s h s')
    (hb : s.store.Built) : s'.store.Built := by
  induction hs with
  | nil => exact hb
  | cons hone _ ih =>
    apply ih
    cases hone with
    | destroyed _ => exact hb.cleared _
    | wrote ha => exact hb.edited (.wrote ha (.nil _))
    | removed hr => exact hb.edited (.removed hr (.nil _))
    | declared d => exact hb.registered d
    | scripted path => rwa [addScript_store]
    | created | placed _ | marked _ | registered _ _ => exact hb

/-- Every scene of a run has a store that is built so. -/
theorem Scene.Run.built {s₀ s : Scene} {h : List Change} (hr : Run s₀ h s) (hi : Initial s₀) :
    s.store.Built := by
  obtain ⟨_, _, hs⟩ := hr.steps_new hi
  exact hs.built .empty

namespace Matching

/-- The matching of some arrays, in the order of the list. An array may be listed repeatedly. -/
def scan (s : Store) (columns : List (ComponentId × String)) : Matching :=
  ⟨columns, common s (columns.map Prod.fst)⟩

theorem of_eq_scan {s : Store} {names : List String} {m : Matching}
    (h : Matching.of s names = .ok m) : m = scan s m.components := by
  obtain ⟨_, hcommon⟩ := of_ok h
  obtain ⟨components, entities⟩ := m
  rw [scan, ← hcommon]

theorem rarest?_eq_none {s : Store} {ids : List ComponentId} : rarest? s ids = none ↔ ids = [] := by
  cases ids with
  | nil => simp [rarest?]
  | cons id rest =>
    refine iff_of_false (fun h => ?_) (by simp)
    rw [rarest?] at h
    split at h
    · split at h <;> cases h
    · cases h

theorem rarest?_mem {s : Store} {ids : List ComponentId} {id : ComponentId}
    (h : rarest? s ids = some id) : id ∈ ids := by
  induction ids with
  | nil => cases h
  | cons first rest ih =>
    rw [rarest?] at h
    cases hr : rarest? s rest with
    | none =>
      rw [hr] at h
      cases h
      exact List.mem_cons_self ..
    | some other =>
      simp only [hr] at h
      split at h
      · cases h
        exact List.mem_cons_of_mem _ (ih hr)
      · cases h
        exact List.mem_cons_self ..

section
variable {s : Store} (hs : s.Tidy)
include hs

theorem entitiesWith_ascending (id : ComponentId) :
    (entitiesWith s id).Pairwise fun a b => a.index < b.index := by
  unfold entitiesWith
  split
  · rename_i c hc
    exact (hs id c hc).ascending
  · exact .nil

theorem mem_entitiesWith {id : ComponentId} {e : Entity} :
    e ∈ entitiesWith s id ↔ s.has e id = true := by
  unfold entitiesWith Store.has
  cases hc : s.get? id with
  | none => simp
  | some c => exact (hs id c hc).mem_entities

theorem common_ascending (ids : List ComponentId) :
    (common s ids).Pairwise fun a b => a.index < b.index := by
  unfold common
  split
  · exact (entitiesWith_ascending hs _).filter _
  · exact .nil

theorem mem_common {ids : List ComponentId} {e : Entity} :
    e ∈ common s ids ↔ ids ≠ [] ∧ ∀ id ∈ ids, s.has e id = true := by
  cases hr : rarest? s ids with
  | none =>
    have hnil := rarest?_eq_none.mp hr
    subst hnil
    simp [common, rarest?]
  | some id =>
    have hne : ids ≠ [] := fun h => by simp [rarest?_eq_none.mpr h] at hr
    simp only [common, hr, List.mem_filter, List.all_eq_true, ne_eq, hne, not_false_eq_true,
      true_and, and_iff_right_iff_imp]
    intro hall
    exact (mem_entitiesWith hs).mpr (hall id (rarest?_mem hr))

end

/-- Lists of entities in ascending order with the same members are the same. -/
theorem ascending_ext {xs ys : List Entity} (hx : xs.Pairwise fun a b => a.index < b.index)
    (hy : ys.Pairwise fun a b => a.index < b.index) (h : ∀ e, e ∈ xs ↔ e ∈ ys) : xs = ys :=
  Table.eq_of_ascending (f := id) (hx.imp Entity.compare_eq_lt.mpr)
    (hy.imp Entity.compare_eq_lt.mpr) h

/-- The matching has exactly the entities that have all of its components in the store. -/
structure Intersects (m : Matching) (s : Store) : Prop where
  ascending : m.entities.Pairwise fun a b => a.index < b.index
  mem : ∀ e, e ∈ m.entities ↔
    m.components ≠ [] ∧ ∀ column ∈ m.components, s.has e column.1 = true

theorem scan_intersects {s : Store} (hs : s.Tidy) (columns : List (ComponentId × String)) :
    (scan s columns).Intersects s where
  ascending := common_ascending hs _
  mem e := by
    rw [scan, mem_common hs]
    simp

/-- It does not matter from which array a matching starts. -/
theorem scan_eq_filter {s : Store} (hs : s.Tidy) {columns : List (ComponentId × String)}
    {column : ComponentId × String} (hc : column ∈ columns) :
    (scan s columns).entities =
      (entitiesWith s column.1).filter fun e => columns.all fun other => s.has e other.1 := by
  have hscan := scan_intersects hs columns
  refine ascending_ext hscan.ascending ((entitiesWith_ascending hs _).filter _) fun e => ?_
  rw [hscan.mem, List.mem_filter, mem_entitiesWith hs, List.all_eq_true]
  constructor
  · rintro ⟨_, hall⟩
    exact ⟨hall column hc, hall⟩
  · rintro ⟨_, hall⟩
    exact ⟨List.ne_nil_of_mem hc, hall⟩

/-- Neither the order of the arrays matters nor how often each is listed. -/
theorem scan_congr {s : Store} (hs : s.Tidy) {columns columns' : List (ComponentId × String)}
    (h : ∀ id, id ∈ columns.map Prod.fst ↔ id ∈ columns'.map Prod.fst) :
    (scan s columns).entities = (scan s columns').entities := by
  refine ascending_ext (common_ascending hs _) (common_ascending hs _) fun e => ?_
  have hnil : columns.map Prod.fst ≠ [] ↔ columns'.map Prod.fst ≠ [] := by
    simp only [ne_eq, List.eq_nil_iff_forall_not_mem, h]
  rw [scan, scan, mem_common hs, mem_common hs, hnil]
  simp only [h]

/-- The bindings of a matching in order. -/
theorem getElem?_bindings (m : Matching) (i : Nat) : m.bindings[i]? = m.get? i :=
  List.getElem?_map ..

/-- Through the bindings of a matching the present values are read, whatever happened to the store
since the matching was made. -/
theorem bindings_read (m : Matching) (t : Store) :
    m.bindings.map (fun b => (b.entity, b.refs.map fun r => r.get? t)) =
      m.entities.map fun e => (e, m.components.map fun column => t.at? e column.1) := by
  rw [bindings, List.map_map]
  refine List.map_congr_left fun e _ => ?_
  simp only [Function.comp_apply, bind, List.map_map]
  rfl

end Matching
end SceneScript
