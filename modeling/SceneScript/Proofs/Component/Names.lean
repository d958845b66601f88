import SceneScript.Proofs.Component.Store
import SceneScript.Proofs.Table

/-! # Names, numbers and places

A store keeps its components by number, and beside them the numbers of their names. Registration
adds to both, writes and removals touch neither, so along every run they belong together, and a
number and a description that a name has once stay with it.
-/
namespace SceneScript

namespace Store

def descriptions (s : Store) : List ComponentDescription :=
  s.components.map Component.description

/-- What a store knows of its components apart from their values. -/
def catalog (s : Store) : Table String ComponentId × List ComponentDescription :=
  (s.names, s.descriptions)

theorem id?_congr {s t : Store} (h : t.catalog = s.catalog) (name : String) :
    t.id? name = s.id? name :=
  congrArg (fun catalog => Table.find? (Prod.fst catalog) name) h

theorem descriptions_congr {s t : Store} (h : t.catalog = s.catalog) :
    t.descriptions = s.descriptions := congrArg Prod.snd h

theorem description_eq (s : Store) (id : ComponentId) :
    (s.get? id).map Component.description = s.descriptions[id.index]? := by
  simp [get?, descriptions]

theorem name_eq (s : Store) (id : ComponentId) : (s.get? id).map Component.name =
    s.descriptions[id.index]?.map ComponentDescription.name := by
  rw [← description_eq, Option.map_map]
  rfl

@[simp] theorem catalog_setArray (s : Store) (id : ComponentId) (a : ComponentArray) :
    (s.setArray id a).catalog = s.catalog := by
  refine Prod.ext rfl (List.ext_getElem? fun i => ?_)
  simp only [catalog, descriptions, setArray, List.getElem?_map, List.getElem?_modify]
  cases s.components[i]? with
  | none => rfl
  | some c => by_cases h : id.index = i <;> simp [h]

theorem catalog_add {s s' : Store} {e : Entity} {id : ComponentId} {v : Value}
    (h : s.add e id v = .ok s') : s'.catalog = s.catalog := by
  obtain ⟨c, a, _, _, rfl⟩ := add_ok h
  simp

theorem catalog_remove {s s' : Store} {e : Entity} {id : ComponentId} {old : Option Value}
    (h : s.remove e id = .ok (old, s')) : s'.catalog = s.catalog := by
  obtain ⟨c, _, rfl⟩ := remove_ok h
  simp

@[simp] theorem catalog_removeEntity (s : Store) (e : Entity) :
    (s.removeEntity e).catalog = s.catalog := by
  simp [catalog, descriptions, removeEntity]

theorem id?_push (s : Store) (d : ComponentDescription) (name : String) :
    (s.push d).id? name = if name = d.name then some ⟨s.size⟩ else s.id? name := by
  by_cases h : name = d.name
  · subst h
    rw [if_pos rfl]
    exact Table.find?_insert_self ..
  · rw [if_neg h]
    exact Table.find?_insert_ne _ _ h

theorem descriptions_push (s : Store) (d : ComponentDescription) :
    (s.push d).descriptions = s.descriptions ++ [d] := by
  simp [descriptions, push, Component.ofDescription]

/-- A registered name has the number that the registration answers. -/
theorem id?_register {s : Store} {d : ComponentDescription} {id : ComponentId}
    (h : (register d s).result = .ok id) : (register d s).state.id? d.name = some id := by
  cases hn : s.id? d.name with
  | some known =>
    simp only [register, hn, Except.ok.injEq] at h ⊢
    rw [h]
  | none =>
    simp only [register, hn, Except.ok.injEq] at h ⊢
    rw [id?_push, if_pos rfl, h]

/-! ### Growth -/

/-- Components were added behind the others, and under new names. -/
structure Grown (s s' : Store) : Prop where
  descriptions : s.descriptions <+: s'.descriptions
  names : ∀ name id, s.id? name = some id → s'.id? name = some id

section
variable {s s' s'' : Store} {name : String} {id : ComponentId} {d : ComponentDescription}

theorem Grown.of_catalog (h : s'.catalog = s.catalog) : s.Grown s' where
  descriptions := descriptions_congr h ▸ List.prefix_rfl
  names name _ hid := (id?_congr h name).trans hid

theorem Grown.refl (s : Store) : s.Grown s := .of_catalog rfl

theorem Grown.trans (h : s.Grown s') (h' : s'.Grown s'') : s.Grown s'' :=
  ⟨h.descriptions.trans h'.descriptions,
    fun name id hid => h'.names name id (h.names name id hid)⟩

theorem grown_push (h : s.id? d.name = none) : s.Grown (s.push d) := by
  refine ⟨⟨[d], (s.descriptions_push d).symm⟩, fun name id hid => ?_⟩
  rw [id?_push, if_neg, hid]
  rintro rfl
  simp [h] at hid

theorem grown_register (s : Store) (d : ComponentDescription) :
    s.Grown (register d s).state := by
  rcases s.register_state d with h | ⟨hn, h⟩
  · rw [h]
    exact .refl s
  · rw [h]
    exact grown_push hn

theorem Grown.isSome_id? (h : s.Grown s') (hn : (s.id? name).isSome) : (s'.id? name).isSome := by
  obtain ⟨id, hid⟩ := Option.isSome_iff_exists.mp hn
  rw [h.names name id hid]
  rfl

/-- A known number keeps its description while components are added. -/
theorem Grown.description (h : s.Grown s')
    (hd : (s.get? id).map Component.description = some d) :
    (s'.get? id).map Component.description = some d := by
  obtain ⟨more, hm⟩ := h.descriptions
  rw [description_eq] at hd ⊢
  rw [← hm, List.getElem?_append_left (List.getElem?_eq_some_iff.mp hd).1, hd]

end

/-! ### Names and numbers -/

/-- The names are those of the components, each with the number of its component. The empty store is
linked, and registration, the one operation that changes names or descriptions, keeps it so. Hence
every store that the operations can build is linked. -/
def Linked (s : Store) : Prop :=
  Table.Locates ComponentId.index s.names (s.descriptions.map ComponentDescription.name)

theorem linked_empty : Linked {} := Table.locates_nil

section
variable {s t : Store} {name : String} {id : ComponentId} {c : Component}

theorem Linked.congr (hs : s.Linked) (h : t.catalog = s.catalog) : t.Linked := by
  have hnames : t.names = s.names := congrArg Prod.fst h
  rwa [Linked, hnames, descriptions_congr h]

/-- A new name gets the next number, and no component had the name before. -/
theorem Linked.push (hs : s.Linked) {d : ComponentDescription} (hn : s.id? d.name = none) :
    (s.push d).Linked := by
  have hsize : s.size = (s.descriptions.map ComponentDescription.name).length := by
    simp [descriptions, size]
  rw [Linked, descriptions_push, List.map_append]
  exact Table.Locates.push hs (fun _ _ => ComponentId.index_inj.mp) hn hsize

theorem Linked.register (hs : s.Linked) (d : ComponentDescription) :
    (register d s).state.Linked := by
  rcases s.register_state d with h | ⟨hn, h⟩
  · rwa [h]
  · rw [h]
    exact hs.push hn

theorem Linked.numbers (hs : s.Linked) (name : String) (id : ComponentId) :
    s.id? name = some id ↔ (s.get? id).map Component.name = some name := by
  rw [name_eq, ← List.getElem?_map]
  exact hs.find?_eq_some name id

/-- Every component is found under its name. -/
theorem Linked.id?_eq (hs : s.Linked) (hc : s.get? id = some c) : s.id? c.name = some id := by
  rw [hs.numbers, hc, Option.map_some]

theorem Linked.component_of_id? (hs : s.Linked) (h : s.id? name = some id) :
    ∃ c, s.get? id = some c ∧ c.name = name :=
  Option.map_eq_some_iff.mp ((hs.numbers name id).mp h)

theorem Linked.name_of_id? (hs : s.Linked) (h : s.id? name = some id) (hc : s.get? id = some c) :
    c.name = name := by
  obtain ⟨c', hc', hname⟩ := hs.component_of_id? h
  cases Option.some.inj (hc.symm.trans hc')
  exact hname

end

/-! ### Places -/

/-- The value in a place. -/
def at? (s : Store) (e : Entity) (id : ComponentId) : Option Value :=
  (s.get? id).bind fun c => c.array.get? e

theorem isSome_at? (s : Store) (e : Entity) (id : ComponentId) :
    (s.at? e id).isSome = s.has e id := by
  unfold at? has
  cases s.get? id with
  | none => rfl
  | some c => rfl

/-- A write changes no other place. -/
theorem at?_add_ne {s s' : Store} {e e' : Entity} {id id' : ComponentId} {v : Value}
    (h : s.add e id v = .ok s') (hne : ¬(e = e' ∧ id = id')) : s'.at? e' id' = s.at? e' id' := by
  obtain ⟨c, a, hc, hi, rfl⟩ := add_ok h
  by_cases hid : id' = id
  · subst hid
    have he : e' ≠ e := fun he => hne ⟨he.symm, rfl⟩
    simp only [at?, get?_setArray_self hc, hc, Option.bind_some, hi.other e' he]
  · simp only [at?, get?_setArray_ne s a hid]

/-- The value that an entity has under the name of a component. -/
def named? (s : Store) (e : Entity) (name : String) : Option Value :=
  (s.id? name).bind fun id => (s.get? id).bind fun c => c.array.get? e

theorem named?_eq_some {s : Store} {e : Entity} {name : String} {v : Value} :
    s.named? e name = some v ↔
      ∃ id c, s.id? name = some id ∧ s.get? id = some c ∧ c.array.get? e = some v := by
  simp only [named?, Option.bind_eq_some_iff]
  constructor
  · rintro ⟨id, hid, c, hc, hv⟩
    exact ⟨id, c, hid, hc, hv⟩
  · rintro ⟨id, c, hid, hc, hv⟩
    exact ⟨id, hid, c, hc, hv⟩

end Store
end SceneScript
