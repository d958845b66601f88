import SceneScript.Proofs.Scene.Steps
import SceneScript.Proofs.Value.RoundTrip

/-! # What a snapshot tells

A snapshot tells of every live entity which value it has under which name, and beside that the names
of the scene, its systems and its scripts. Scenes that agree in this have the same snapshot,
whatever numbers their components have.
-/
namespace SceneScript

namespace Store

/-- The references to the components of an entity, with the values they give. -/
theorem mem_refs_iff {s : Store} {e : Entity} {r : ComponentRef} {v : Value} :
    (r ∈ ComponentRef.all s e ∧ r.get? s = some v) ↔
      ∃ id c, s.get? id = some c ∧ c.array.get? e = some v ∧ r = ⟨e, id, c.name⟩ := by
  constructor
  · rintro ⟨hr, hv⟩
    obtain ⟨id, _, hmap⟩ := List.mem_filterMap.mp hr
    obtain ⟨c, hc, rfl⟩ := Option.map_eq_some_iff.mp hmap
    exact ⟨id, c, hc, by simpa [ComponentRef.get?, hc] using hv, rfl⟩
  · rintro ⟨id, c, hc, hv, rfl⟩
    have hlt : id.index < s.size := (List.getElem?_eq_some_iff.mp hc).1
    refine ⟨List.mem_filterMap.mpr ⟨id, List.mem_filter.mpr ⟨?_, ?_⟩, ?_⟩, ?_⟩
    · exact List.mem_map.mpr ⟨id.index, List.mem_range.mpr hlt, rfl⟩
    · rw [has_eq hc, ComponentArray.has, hv]
      rfl
    · rw [hc]
      rfl
    · simpa [ComponentRef.get?, hc] using hv

/-- The references to the components of an entity are those to its values. -/
theorem exists_ref_value {s : Store} {e : Entity} {v : Value} :
    (∃ r ∈ ComponentRef.all s e, r.get? s = some v) ↔ ∃ id, s.value? e id = .ok (some v) := by
  constructor
  · rintro ⟨r, hr⟩
    obtain ⟨id, c, hc, hv, -⟩ := mem_refs_iff.mp hr
    exact ⟨id, by simp [value?, component, hc, hv]⟩
  · rintro ⟨id, hv⟩
    obtain ⟨c, hc, hv⟩ := Result.bind_eq_ok.mp hv
    exact ⟨_, mem_refs_iff.mpr ⟨id, c, get?_of_component hc, Except.ok.inj hv, rfl⟩⟩

/-- The references to the components of an entity are those to its named values. -/
theorem Regular.exists_ref_iff {s : Store} (hs : s.Regular) {e : Entity} {name : String}
    {v : Value} :
    (∃ r ∈ ComponentRef.all s e, r.name = name ∧ r.get? s = some v) ↔
      s.named? e name = some v := by
  rw [named?_eq_some]
  constructor
  · rintro ⟨r, hr, rfl, hv⟩
    obtain ⟨id, c, hc, hget, rfl⟩ := mem_refs_iff.mp ⟨hr, hv⟩
    exact ⟨id, c, hs.linked.id?_eq hc, hc, hget⟩
  · rintro ⟨id, c, hid, hc, hv⟩
    obtain rfl := hs.linked.name_of_id? hid hc
    obtain ⟨hr, hv⟩ := mem_refs_iff.mpr ⟨id, c, hc, hv, rfl⟩
    exact ⟨_, hr, rfl, hv⟩

end Store

namespace Scene

theorem value?_eq_some {s : Scene} {e : Entity} {name : String} {v : Value} :
    s.value? e name = .ok (some v) ↔ s.store.named? e name = some v := by
  unfold value? Store.idOf Store.named?
  cases hn : s.store.id? name with
  | none => simp
  | some id =>
    simp only [Result.ok_bind, Store.value?, Store.component, Option.bind_some]
    cases hc : s.store.get? id with
    | none => simp
    | some c => simp

theorem documentsOf_sorted (s : Scene) (e : Entity) : Table.Sorted (s.documentsOf e) :=
  Table.sorted_ofList _

/-- The documents of an entity are those of its named values. -/
theorem find?_documentsOf {s : Scene} (hs : s.store.Regular) (e : Entity) (name : String) :
    Table.find? (s.documentsOf e) name = (s.store.named? e name).map Value.toJson := by
  refine Table.find?_ofList_eq (f := fun name => (s.store.named? e name).map Value.toJson)
    (fun name json => ?_) name
  simp only [List.mem_filterMap, Option.map_eq_some_iff, Prod.mk.injEq, ← hs.exists_ref_iff]
  constructor
  · rintro ⟨r, hr, v, hv, hname, hjson⟩
    exact ⟨v, ⟨r, hr, hname, hv⟩, hjson⟩
  · rintro ⟨v, ⟨r, hr, hname, hv⟩, hjson⟩
    exact ⟨r, hr, v, hv, hname, hjson⟩

theorem mem_documentsOf {s : Scene} (hs : s.store.Regular) {e : Entity} {name : String}
    {json : Json} : (name, json) ∈ s.documentsOf e ↔
      ∃ v, s.store.named? e name = some v ∧ v.toJson = json := by
  rw [(documentsOf_sorted s e).mem_iff, find?_documentsOf hs, Option.map_eq_some_iff]

/-- A component of a live entity has the value. -/
def LiveValue (s : Scene) (v : Value) : Prop :=
  ∃ e ∈ s.roster.alive, ∃ id, s.valueWithId? e id = .ok (some v)

/-- The assets are those that values of live entities hold. -/
theorem mem_assets {s : Scene} {asset : String} :
    asset ∈ s.assets ↔ ∃ v, s.LiveValue v ∧ ∃ leaf ∈ v.leaves, assetName? leaf = some asset := by
  simp only [assets, ← Table.find?_isSome, Table.find?_ofList_isSome, List.map_map, List.mem_map,
    List.mem_filterMap, List.mem_flatMap, refs]
  constructor
  · rintro ⟨_, ⟨leaf, ⟨v, ⟨r, ⟨e, he, hr⟩, hv⟩, hleaf⟩, hname⟩, rfl⟩
    exact ⟨v, ⟨e, he, Store.exists_ref_value.mp ⟨r, hr, hv⟩⟩, leaf, hleaf, hname⟩
  · rintro ⟨v, ⟨e, he, hv⟩, leaf, hleaf, hname⟩
    obtain ⟨r, hr, hv⟩ := Store.exists_ref_value.mpr hv
    exact ⟨asset, ⟨leaf, ⟨v, ⟨r, ⟨e, he, hr⟩, hv⟩, hleaf⟩, hname⟩, rfl⟩

/-- Where names are different the values of live entities are the named ones. -/
theorem liveValue_iff {s : Scene} (hs : s.store.Regular) {v : Value} :
    s.LiveValue v ↔ ∃ e ∈ s.roster.alive, ∃ name, s.store.named? e name = some v := by
  refine exists_congr fun e => and_congr_right fun _ => ?_
  simp only [valueWithId?, ← Store.exists_ref_value, ← hs.exists_ref_iff]
  constructor
  · rintro ⟨r, hr, hv⟩
    exact ⟨r.name, r, hr, rfl, hv⟩
  · rintro ⟨_, r, hr, -, hv⟩
    exact ⟨r, hr, hv⟩

theorem assets_ascending (s : Scene) : s.assets.Pairwise fun a b => compare a b = .lt :=
  Table.sorted_iff_keys.mp (Table.sorted_ofList _)

theorem assetName?_canonical (v : Value) : assetName? v.canonical = assetName? v := by
  cases v <;> rfl

/-- Canonical forms name the same assets. -/
theorem exists_asset_canonical {v : Value} {asset : String} :
    (∃ leaf ∈ v.canonical.leaves, assetName? leaf = some asset) ↔
      ∃ leaf ∈ v.leaves, assetName? leaf = some asset := by
  simp [Value.leaves_canonical, assetName?_canonical]

/-- Scenes have the same snapshot when they agree in their names and, up to the form of empty
references, in the named values of live entities. -/
theorem snapshot_eq {s t : Scene} (hs : s.store.Regular) (ht : t.store.Regular)
    (hname : t.name = s.name) (halive : t.roster.alive = s.roster.alive)
    (hsystems : t.registry.systems.map System.name = s.registry.systems.map System.name)
    (hscripts : t.scripts = s.scripts)
    (hvalues : ∀ e ∈ s.roster.alive, ∀ name,
      t.store.named? e name = (s.store.named? e name).map Value.canonical) :
    t.snapshot = s.snapshot := by
  have hdocuments : ∀ e ∈ s.roster.alive, t.documentsOf e = s.documentsOf e := fun e he => by
    refine (documentsOf_sorted t e).ext (documentsOf_sorted s e) fun name => ?_
    rw [find?_documentsOf ht, find?_documentsOf hs, hvalues e he, Option.map_map]
    exact congrArg (fun f => (s.store.named? e name).map f) (funext Value.toJson_canonical)
  have hassets : t.assets = s.assets := by
    refine Table.eq_of_ascending (f := id) (assets_ascending t) (assets_ascending s) fun asset => ?_
    simp only [mem_assets, liveValue_iff ht, liveValue_iff hs, halive]
    constructor
    · rintro ⟨_, ⟨e, he, name, hnamed⟩, hleaf⟩
      obtain ⟨v, hv, rfl⟩ := Option.map_eq_some_iff.mp ((hvalues e he name).symm.trans hnamed)
      exact ⟨v, ⟨e, he, name, hv⟩, exists_asset_canonical.mp hleaf⟩
    · rintro ⟨v, ⟨e, he, name, hv⟩, hleaf⟩
      refine ⟨v.canonical, ⟨e, he, name, ?_⟩, exists_asset_canonical.mpr hleaf⟩
      rw [hvalues e he, hv, Option.map_some]
  have hcomponents : t.roster.alive.map (fun e => (e, t.documentsOf e)) =
      s.roster.alive.map fun e => (e, s.documentsOf e) := by
    rw [halive]
    exact List.map_congr_left fun e he => by rw [hdocuments e he]
  simp only [snapshot, hname, hcomponents, hsystems, hscripts, hassets]

end Scene
end SceneScript
