import Mathlib.Data.List.Induction
import SceneScript.Proofs.Table
import SceneScript.System.Basic

/-! # Systems and their names

A registry keeps its systems in the order of registration, and beside them the positions of their
names. Registration adds to both, and they belong together from the empty registry on: so a system
is refused exactly when another one has its name, and a name leads to the one system that has it.
-/
namespace SceneScript.Registry

/-- The names are those of the systems, each with the position of its system. -/
def Linked (r : Registry) : Prop := Table.Locates id r.names (r.systems.map System.name)

theorem linked_empty : Linked {} := Table.locates_nil

theorem Linked.push {r : Registry} (h : r.Linked) {system : System}
    (hnew : Table.find? r.names system.name = none) : (r.push system).Linked := by
  rw [Linked, Registry.push, List.map_append]
  exact Table.Locates.push h Function.injective_id hnew (List.length_map _).symm

/-- Different systems have different names. -/
theorem Linked.nodup {r : Registry} (h : r.Linked) : (r.systems.map System.name).Nodup :=
  Table.Locates.nodup h Function.surjective_id

theorem Linked.contains_iff {r : Registry} (h : r.Linked) {name : String} :
    Table.contains r.names name = true ↔ name ∈ r.systems.map System.name :=
  Table.Locates.isSome_find? h Function.surjective_id

theorem Linked.find?_eq_none {r : Registry} (h : r.Linked) {name : String} :
    Table.find? r.names name = none ↔ name ∉ r.systems.map System.name := by
  rw [← h.contains_iff, Table.contains, Option.not_isSome_iff_eq_none]

/-- A name leads to the system that has it. -/
theorem Linked.byName?_eq_some {r : Registry} (h : r.Linked) {name : String} {system : System} :
    r.byName? name = some system ↔ system ∈ r.systems ∧ system.name = name := by
  rw [byName?, Option.bind_eq_some_iff]
  constructor
  · rintro ⟨i, hi, hs⟩
    have hname := (h.find?_eq_some name i).mp hi
    rw [id, List.getElem?_map, hs] at hname
    exact ⟨List.mem_of_getElem? hs, Option.some.inj hname⟩
  · rintro ⟨hm, rfl⟩
    obtain ⟨i, hi⟩ := List.mem_iff_getElem?.mp hm
    exact ⟨i, (h.find?_eq_some system.name i).mpr (by rw [id, List.getElem?_map, hi]; rfl), hi⟩

theorem register_ok {r r' : Registry} {system : System} {position : Nat}
    (h : r.register system = .ok (position, r')) :
    Table.find? r.names system.name = none ∧ r' = r.push system := by
  unfold register at h
  split at h
  · cases h
  · rename_i hn
    cases h
    exact ⟨by simpa [Table.contains] using hn, rfl⟩

theorem register_error {r : Registry} {system : System} {err : Error}
    (h : r.register system = .error err) :
    err = .duplicateSystem system.name ∧ Table.contains r.names system.name = true := by
  unfold register at h
  split at h
  · cases h
    exact ⟨rfl, ‹_›⟩
  · cases h

/-- A system with a new name is put behind the others. -/
theorem Linked.register_of_new {r : Registry} (h : r.Linked) {system : System}
    (hnew : system.name ∉ r.systems.map System.name) :
    r.register system = .ok (r.systems.length, r.push system) :=
  if_neg fun hc => hnew (h.contains_iff.mp hc)

/-! ### The registry of some systems -/

/-- The registry of some systems, in their order. -/
def ofSystems (systems : List System) : Registry := systems.foldl push {}

theorem ofSystems_append (systems : List System) (system : System) :
    ofSystems (systems ++ [system]) = (ofSystems systems).push system :=
  List.foldl_append

theorem systems_ofSystems (systems : List System) : (ofSystems systems).systems = systems := by
  induction systems using List.reverseRecOn with
  | nil => rfl
  | append_singleton rest system ih => rw [ofSystems_append, push, ih]

/-- Of systems with different names the last has a new one. -/
theorem notMem_ofSystems {systems : List System} {system : System}
    (h : ((systems ++ [system]).map System.name).Nodup) :
    system.name ∉ (ofSystems systems).systems.map System.name := by
  rw [List.map_append] at h
  rw [systems_ofSystems]
  exact fun hm => List.disjoint_of_nodup_append h hm (List.mem_singleton_self _)

theorem linked_ofSystems {systems : List System} (h : (systems.map System.name).Nodup) :
    (ofSystems systems).Linked := by
  induction systems using List.reverseRecOn with
  | nil => exact linked_empty
  | append_singleton rest system ih =>
    have hrest := ih (List.map_append ▸ h).of_append_left
    rw [ofSystems_append]
    exact hrest.push (hrest.find?_eq_none.mpr (notMem_ofSystems h))

theorem register_ofSystems {systems : List System} {system : System}
    (h : ((systems ++ [system]).map System.name).Nodup) :
    (ofSystems systems).register system =
      .ok (systems.length, ofSystems (systems ++ [system])) := by
  have hlinked := linked_ofSystems (List.map_append ▸ h).of_append_left
  rw [hlinked.register_of_new (notMem_ofSystems h), systems_ofSystems, ofSystems_append]

end SceneScript.Registry
