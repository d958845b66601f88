import SceneScript.Component.Combination
import SceneScript.Proofs.Component.Names

/-! # What combinations bind

A matching and a binding take the numbers of the components from the store, so they reach the named
components and no others, in the order of the names.
-/
namespace SceneScript

theorem Store.idOf_eq_ok {s : Store} {name : String} {id : ComponentId} :
    s.idOf name = .ok id ↔ s.id? name = some id := by
  unfold idOf
  cases s.id? name <;> simp

namespace Binding
variable {s : Store} {e : Entity} {name : String} {r : ComponentRef}

theorem refTo_ok (h : Binding.refTo s e name = .ok r) :
    r.entity = e ∧ s.id? name = some r.component := by
  obtain ⟨id, hid, h⟩ := Result.bind_eq_ok.mp h
  obtain ⟨c, hc, h⟩ := Result.bind_eq_ok.mp h
  split at h
  · cases h
    exact ⟨rfl, Store.idOf_eq_ok.mp hid⟩
  · cases h

/-- A reference has the name of its component, which is the name that was asked for. -/
theorem refTo_name (hs : s.Linked) (h : Binding.refTo s e name = .ok r) : r.name = name := by
  obtain ⟨id, hid, h⟩ := Result.bind_eq_ok.mp h
  obtain ⟨c, hc, h⟩ := Result.bind_eq_ok.mp h
  have hname := hs.name_of_id? (Store.idOf_eq_ok.mp hid) (Store.get?_of_component hc)
  split at h
  · cases h
    exact hname
  · cases h

theorem of_ok {names : List String} {b : Binding} (h : Binding.of s e names = .ok b) :
    b.entity = e ∧ ∀ r ∈ b.refs, ∃ name ∈ names, Binding.refTo s e name = .ok r := by
  obtain ⟨refs, hrefs, h⟩ := Result.bind_eq_ok.mp h
  cases h
  exact ⟨rfl, fun r hr => Result.mem_of_mapM hrefs hr⟩

end Binding

namespace Matching

theorem column_ok {s : Store} {name : String} {column : ComponentId × String}
    (h : Matching.column s name = .ok column) :
    column.2 = name ∧ s.id? name = some column.1 := by
  obtain ⟨id, hid, h⟩ := Result.bind_eq_ok.mp h
  cases h
  exact ⟨rfl, Store.idOf_eq_ok.mp hid⟩

/-- The matching has a column for each name, with the number that the name has in the store. -/
structure Columns (s : Store) (names : List String) (m : Matching) : Prop where
  names : m.names = names
  ids : ∀ column ∈ m.components, s.id? column.2 = some column.1

theorem of_ok {s : Store} {names : List String} {m : Matching} (h : Matching.of s names = .ok m) :
    m.Columns s names ∧ m.entities = common s (m.components.map Prod.fst) := by
  obtain ⟨columns, hcolumns, h⟩ := Result.bind_eq_ok.mp h
  cases h
  refine ⟨⟨Result.map_of_mapM (fun _ _ h => (column_ok h).1) hcolumns, fun column hm => ?_⟩, rfl⟩
  obtain ⟨name, _, hcolumn⟩ := Result.mem_of_mapM hcolumns hm
  obtain ⟨rfl, hid⟩ := column_ok hcolumn
  exact hid

section
variable {s t : Store} {names : List String} {m : Matching}

theorem Columns.known (h : m.Columns s names) {column : ComponentId × String}
    (hc : column ∈ m.components) : column.2 ∈ names := by
  rw [← h.names]
  exact List.mem_map_of_mem hc

theorem Columns.congr (h : m.Columns s names) (ht : t.catalog = s.catalog) : m.Columns t names :=
  ⟨h.names, fun column hc => (Store.id?_congr ht column.2).trans (h.ids column hc)⟩

theorem Columns.mem_refs (h : m.Columns s names) {e : Entity} {r : ComponentRef}
    (hr : r ∈ (m.bind e).refs) :
    r.entity = e ∧ r.name ∈ names ∧ s.id? r.name = some r.component := by
  obtain ⟨column, hm, rfl⟩ := List.mem_map.mp hr
  exact ⟨rfl, h.known hm, h.ids column hm⟩

end

end Matching
end SceneScript
