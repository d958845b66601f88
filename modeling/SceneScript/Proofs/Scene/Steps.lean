import SceneScript.Proofs.Entity.Numbers
import SceneScript.Proofs.Scene.Restore
import SceneScript.Proofs.System.Registry

/-! # The steps of a scene

Whatever is done to a scene is done in small steps of nine kinds, each with the changes that it
makes to the values. What every step keeps holds along every run: the store holds what the history
says, names lead to what has them, every registered system finds its components, and the numbers of
the roster are in order.
-/
namespace SceneScript

/-- The components that must be there before a system is registered. -/
def System.needs (s : System) : List String :=
  s.declaration.components ++ s.declaration.event.groups.flatMap EntityGroup.components

namespace Scene

/-- What a single step does, with the changes that it makes. -/
inductive Step : Scene → List Change → Scene → Prop
  | created (s : Scene) : Step s [] { s with roster := s.roster.create.2 }
  | placed {s : Scene} {e : Entity} {roster : Roster} :
    s.roster.createAt e = .ok roster → Step s [] { s with roster := roster }
  | destroyed {s : Scene} {e : Entity} {roster : Roster} :
    s.roster.release e = .ok roster →
      Step s [.destroyed e] { s with store := s.store.removeEntity e, roster := roster }
  | marked {s : Scene} {e : Entity} {id : ComponentId} {present : Bool} {roster : Roster} :
    s.roster.setBit e id present = .ok roster → Step s [] { s with roster := roster }
  | declared (s : Scene) (d : ComponentDescription) :
    Step s [] { s with store := (Store.register d s.store).state }
  | wrote {s : Scene} {e : Entity} {id : ComponentId} {v : Value} {store : Store} :
    s.store.add e id v = .ok store → Step s [.wrote e id v] { s with store := store }
  | removed {s : Scene} {e : Entity} {id : ComponentId} {old : Option Value} {store : Store} :
    s.store.remove e id = .ok (old, store) → Step s [.removed e id] { s with store := store }
  | registered {s : Scene} {system : System} {position : Nat} {registry : Registry} :
    (∀ name ∈ system.needs, (s.store.id? name).isSome) →
      s.registry.register system = .ok (position, registry) →
        Step s [] { s with registry := registry }
  | scripted (s : Scene) (path : String) : Step s [] (s.addScript path)

/-- Any number of steps, with all the changes that they make. -/
inductive Steps : Scene → List Change → Scene → Prop
  | nil (s : Scene) : Steps s [] s
  | cons {s s₁ s₂ : Scene} {h h' : List Change} :
    Step s h s₁ → Steps s₁ h' s₂ → Steps s (h ++ h') s₂

theorem Steps.append {s s₁ s₂ : Scene} {h h' : List Change} (h₁ : Steps s h s₁)
    (h₂ : Steps s₁ h' s₂) : Steps s (h ++ h') s₂ := by
  induction h₁ with
  | nil => exact h₂
  | cons hs _ ih =>
    rw [List.append_assoc]
    exact .cons hs (ih h₂)

theorem Step.steps {s s' : Scene} {h : List Change} (hs : Step s h s') : Steps s h s' := by
  have hone := Steps.cons hs (.nil s')
  rwa [List.append_nil] at hone

theorem addScript_name (s : Scene) (path : String) : (s.addScript path).name = s.name := by
  unfold addScript
  split <;> rfl

theorem addScript_store (s : Scene) (path : String) : (s.addScript path).store = s.store := by
  unfold addScript
  split <;> rfl

theorem addScript_roster (s : Scene) (path : String) : (s.addScript path).roster = s.roster := by
  unfold addScript
  split <;> rfl

theorem addScript_registry (s : Scene) (path : String) :
    (s.addScript path).registry = s.registry := by
  unfold addScript
  split <;> rfl

theorem Step.name_eq {s s' : Scene} {h : List Change} (hs : Step s h s') : s'.name = s.name := by
  cases hs with
  | scripted path => exact addScript_name s path
  | created | placed _ | destroyed _ | marked _ | declared _ | wrote _ | removed _
  | registered _ _ => rfl

theorem Steps.name_eq {s s' : Scene} {h : List Change} (hs : Steps s h s') : s'.name = s.name := by
  induction hs with
  | nil => rfl
  | cons hone _ ih => exact ih.trans hone.name_eq

/-! ### The store -/

theorem Step.sound {s s' : Scene} {h changes : List Change} (hs : Step s changes s')
    (hk : s.store.Sound h) : s'.store.Sound (h ++ changes) := by
  cases hs with
  | destroyed _ => exact hk.removeEntity _
  | wrote ha => exact hk.add ha
  | removed hr => exact hk.remove hr
  | declared d => simpa using hk.register d
  | scripted path => simpa [addScript_store] using hk
  | created | placed _ | marked _ | registered _ _ => simpa using hk

/-- Along every run the store holds what the history says. -/
theorem Steps.sound {s s' : Scene} {h changes : List Change} (hs : Steps s changes s')
    (hk : s.store.Sound h) : s'.store.Sound (h ++ changes) := by
  induction hs generalizing h with
  | nil => simpa using hk
  | cons hone _ ih =>
    rw [← List.append_assoc]
    exact ih (hone.sound hk)

theorem Step.has_eq {s s' : Scene} {changes : List Change} (hs : Step s changes s') (e : Entity)
    (id : ComponentId) {old : Option Value} (ho : s.store.has e id = old.isSome) :
    s'.store.has e id = (changes.foldl (Change.apply e id) old).isSome := by
  cases hs with
  | destroyed _ =>
    rw [Store.has_removeEntity, List.foldl_cons, List.foldl_nil, Change.apply, ho]
    split <;> rfl
  | wrote ha =>
    rw [Store.has_add ha, List.foldl_cons, List.foldl_nil, Change.apply, ho]
    split <;> rfl
  | removed hr =>
    rw [Store.has_remove hr, List.foldl_cons, List.foldl_nil, Change.apply, ho]
    split <;> rfl
  | declared d => exact (Store.has_register ..).trans ho
  | scripted path => rwa [addScript_store]
  | created | placed _ | marked _ | registered _ _ => exact ho

/-- A place is filled exactly when the last change of it has filled it. -/
theorem Steps.has_eq {s s' : Scene} {changes : List Change} (hs : Steps s changes s') (e : Entity)
    (id : ComponentId) {old : Option Value} (ho : s.store.has e id = old.isSome) :
    s'.store.has e id = (changes.foldl (Change.apply e id) old).isSome := by
  induction hs generalizing old with
  | nil => exact ho
  | cons hone _ ih =>
    rw [List.foldl_append]
    exact ih (hone.has_eq e id ho)

end Scene

namespace Store

/-- Names and numbers belong together, and every array has the kind that its description asks
for. -/
structure Regular (s : Store) : Prop where
  linked : s.Linked
  kinds : ∀ id c, s.get? id = some c → c.array.storage.kind = c.description.kind

theorem Regular.empty : Regular {} := ⟨linked_empty, by simp [get?]⟩

theorem Regular.setArray {s : Store} (hs : s.Regular) {id : ComponentId} {c : Component}
    {a : ComponentArray} (hc : s.get? id = some c)
    (hk : a.storage.kind = c.array.storage.kind) : (s.setArray id a).Regular := by
  refine ⟨hs.linked.congr (catalog_setArray ..), fun id' c' hc' => ?_⟩
  by_cases hid : id' = id
  · subst hid
    rw [get?_setArray_self hc] at hc'
    cases hc'
    exact hk.trans (hs.kinds id' c hc)
  · rw [get?_setArray_ne s a hid] at hc'
    exact hs.kinds id' c' hc'

theorem Regular.add {s s' : Store} (hs : s.Regular) {e : Entity} {id : ComponentId} {v : Value}
    (ha : s.add e id v = .ok s') : s'.Regular := by
  obtain ⟨c, a, hc, hi, rfl⟩ := add_inserts ha
  exact hs.setArray hc (ComponentArray.insert_kind hi)

theorem Regular.remove {s s' : Store} (hs : s.Regular) {e : Entity} {id : ComponentId}
    {old : Option Value} (hr : s.remove e id = .ok (old, s')) : s'.Regular := by
  obtain ⟨c, hc, rfl⟩ := remove_ok hr
  exact hs.setArray hc (ComponentArray.remove_kind _ _)

theorem Regular.removeEntity {s : Store} (hs : s.Regular) (e : Entity) :
    (s.removeEntity e).Regular := by
  refine ⟨hs.linked.congr (catalog_removeEntity ..), fun id c hc => ?_⟩
  rw [get?_removeEntity] at hc
  obtain ⟨d, hd, rfl⟩ := Option.map_eq_some_iff.mp hc
  exact (ComponentArray.remove_kind _ _).trans (hs.kinds id d hd)

theorem Regular.register {s : Store} (hs : s.Regular) (d : ComponentDescription) :
    (register d s).state.Regular := by
  refine ⟨hs.linked.register d, fun id c hc => ?_⟩
  rcases s.register_state d with h | ⟨-, h⟩
  · rw [h] at hc
    exact hs.kinds id c hc
  · rw [h, get?_push] at hc
    split at hc
    · cases hc
      exact ComponentArray.empty_kind d.shape d.kind
    · exact hs.kinds id c hc

end Store

namespace Scene

theorem Step.regular {s s' : Scene} {changes : List Change} (hs : Step s changes s')
    (hk : s.store.Regular) : s'.store.Regular := by
  cases hs with
  | destroyed _ => exact hk.removeEntity _
  | wrote ha => exact hk.add ha
  | removed hr => exact hk.remove hr
  | declared d => exact hk.register d
  | scripted path => rwa [addScript_store]
  | created | placed _ | marked _ | registered _ _ => exact hk

theorem Steps.regular {s s' : Scene} {changes : List Change} (hs : Steps s changes s')
    (hk : s.store.Regular) : s'.store.Regular := by
  induction hs with
  | nil => exact hk
  | cons hone _ ih => exact ih (hone.regular hk)

/-! ### The registry and the scripts -/

/-- Systems are found by their names, the components that a system needs are there, and scripts are
there once. -/
structure Listed (s : Scene) : Prop where
  linked : s.registry.Linked
  needs : ∀ system ∈ s.registry.systems, ∀ name ∈ system.needs, (s.store.id? name).isSome
  scripts : s.scripts.Nodup

theorem listed_new (name : String) : Listed { name := name } :=
  ⟨Registry.linked_empty, by simp, List.nodup_nil⟩

theorem Step.grown {s s' : Scene} {changes : List Change} (hs : Step s changes s') :
    s.store.Grown s'.store := by
  cases hs with
  | destroyed _ => exact .of_catalog (Store.catalog_removeEntity ..)
  | wrote ha => exact .of_catalog (Store.catalog_add ha)
  | removed hr => exact .of_catalog (Store.catalog_remove hr)
  | declared d => exact s.store.grown_register d
  | scripted path =>
    rw [addScript_store]
    exact .refl s.store
  | created | placed _ | marked _ | registered _ _ => exact .refl s.store

theorem Step.listed {s s' : Scene} {changes : List Change} (hs : Step s changes s')
    (hl : s.Listed) : s'.Listed := by
  have hgrown := hs.grown
  have hneeds : ∀ system ∈ s.registry.systems, ∀ name ∈ system.needs,
      (s'.store.id? name).isSome := fun system hm name hn =>
    hgrown.isSome_id? (hl.needs system hm name hn)
  cases hs with
  | registered hknown hr =>
    obtain ⟨hnew, rfl⟩ := Registry.register_ok hr
    refine ⟨hl.linked.push hnew, fun system hm => ?_, hl.scripts⟩
    rcases List.mem_append.mp hm with hm | hm
    · exact hl.needs system hm
    · cases List.mem_singleton.mp hm
      exact hknown
  | scripted path =>
    unfold addScript at hneeds ⊢
    split
    · exact hl
    · rename_i hp
      refine ⟨hl.linked, hl.needs, ?_⟩
      refine List.nodup_append.mpr ⟨hl.scripts, by simp, ?_⟩
      rintro other ho _ hd rfl
      rw [List.mem_singleton.mp hd] at ho
      exact hp (List.contains_iff_mem.mpr ho)
  | created | placed _ | marked _ | destroyed _ | declared _ | wrote _ | removed _ =>
    exact ⟨hl.linked, hneeds, hl.scripts⟩

theorem Steps.listed {s s' : Scene} {changes : List Change} (hs : Steps s changes s')
    (hl : s.Listed) : s'.Listed := by
  induction hs with
  | nil => exact hl
  | cons hone _ ih => exact ih (hone.listed hl)

/-! ### The roster -/

theorem Step.nextId_le {s s' : Scene} {changes : List Change} (hs : Step s changes s') :
    s.roster.nextId ≤ s'.roster.nextId := by
  cases hs with
  | created => exact Roster.nextId_le_create _
  | placed hc => exact Roster.nextId_le_createAt hc
  | destroyed hr => exact Nat.le_of_eq (Roster.nextId_release hr).symm
  | marked hb => exact Nat.le_of_eq (Roster.nextId_setBit hb).symm
  | scripted path => rw [addScript_roster]
  | declared _ | wrote _ | removed _ | registered _ _ => exact Nat.le_refl _

theorem Steps.nextId_le {s s' : Scene} {changes : List Change} (hs : Steps s changes s') :
    s.roster.nextId ≤ s'.roster.nextId := by
  induction hs with
  | nil => exact Nat.le_refl _
  | cons hone _ ih => exact Nat.le_trans hone.nextId_le ih

theorem Step.numbered {s s' : Scene} {changes : List Change} (hs : Step s changes s')
    (hn : s.roster.Numbered) (hb : s'.roster.nextId ≤ UInt32.size) : s'.roster.Numbered := by
  cases hs with
  | created => exact hn.create hb
  | placed hc => exact hn.createAt hc
  | destroyed hr => exact hn.release hr
  | marked hm => exact hn.setBit hm
  | scripted path => rwa [addScript_roster]
  | declared _ | wrote _ | removed _ | registered _ _ => exact hn

/-- The numbers are in order along every run in which the counter stays within them. -/
theorem Steps.numbered {s s' : Scene} {changes : List Change} (hs : Steps s changes s')
    (hn : s.roster.Numbered) (hb : s'.roster.nextId ≤ UInt32.size) : s'.roster.Numbered := by
  induction hs with
  | nil => exact hn
  | cons hone hrest ih => exact ih (hone.numbered hn (hrest.nextId_le.trans hb)) hb

end Scene
end SceneScript
