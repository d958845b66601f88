import SceneScript.Proofs.Scene.Documents
import SceneScript.Proofs.Scene.Reachable

/-! # The assets of a scene

A scene finds its assets among the leaves of its component values, and a list or a script entity is
a leaf. So it finds every asset with nothing but records around it, and no other one.
-/
namespace SceneScript

namespace Value

/-- The value is the other one, or occurs in a member of a record, in an item of a list, or in a
component of a script entity. -/
inductive Occurs (a : Value) : Value → Prop
  | here : Occurs a a
  | member {members : List (String × Value)} {name : String} {v : Value} :
    (name, v) ∈ members → Occurs a v → Occurs a (.record members)
  | item {items : List Value} {v : Value} : v ∈ items → Occurs a v → Occurs a (.list items)
  | component {ref : EntityRef} {components : List (String × Value)} {name : String} {v : Value} :
    (name, v) ∈ components → Occurs a v → Occurs a (.scriptEntity ref components)

/-- The value is the other one, or stands in its records, with nothing but records around it. -/
inductive Exposed (a : Value) : Value → Prop
  | here : Exposed a a
  | member {members : List (String × Value)} {name : String} {v : Value} :
    (name, v) ∈ members → Exposed a v → Exposed a (.record members)

theorem Exposed.occurs {a v : Value} (h : a.Exposed v) : a.Occurs v := by
  induction h with
  | here => exact .here
  | member hm _ ih => exact .member hm ih

theorem mem_memberLeaves {leaf : Value} {members : List (String × Value)} :
    leaf ∈ memberLeaves members ↔ ∃ entry ∈ members, leaf ∈ entry.2.leaves := by
  induction members with
  | nil => simp [memberLeaves]
  | cons entry rest ih => simp [memberLeaves, ih]

mutual

theorem exposed_of_mem_leaves {leaf : Value} : (v : Value) → leaf ∈ v.leaves → leaf.Exposed v
  | .record members, h => by
    obtain ⟨name, v, hm, hv⟩ := exposed_of_mem_memberLeaves members h
    exact .member hm hv
  | .number _, h | .integer _, h | .string _, h | .boolean _, h | .vec3 _, h | .vec2 _, h
  | .asset _, h | .list _, h | .void, h | .entity _, h | .color _, h | .scriptEntity _ _, h => by
    cases List.mem_singleton.mp h
    exact .here

theorem exposed_of_mem_memberLeaves {leaf : Value} :
    (members : List (String × Value)) → leaf ∈ memberLeaves members →
      ∃ name v, (name, v) ∈ members ∧ leaf.Exposed v
  | (name, v) :: rest, h => by
    rcases List.mem_append.mp h with h | h
    · exact ⟨name, v, List.mem_cons_self .., exposed_of_mem_leaves v h⟩
    · obtain ⟨name, v, hm, hv⟩ := exposed_of_mem_memberLeaves rest h
      exact ⟨name, v, List.mem_cons_of_mem _ hm, hv⟩

end

/-- The assets among the leaves are those with nothing but records around them. -/
theorem asset_mem_leaves {name : String} {v : Value} :
    .asset name ∈ v.leaves ↔ (Value.asset name).Exposed v := by
  constructor
  · exact exposed_of_mem_leaves v
  · intro h
    induction h with
    | here => exact List.mem_singleton_self _
    | member hm _ ih => exact mem_memberLeaves.mpr ⟨_, hm, ih⟩

end Value

namespace Scene

theorem assetName?_eq_some {v : Value} {name : String} :
    assetName? v = some name ↔ name ≠ "" ∧ v = .asset name := by
  cases v with
  | asset other =>
    simp only [assetName?, String.isEmpty_iff, Option.ite_none_left_eq_some, Option.some.injEq,
      Value.asset.injEq]
    constructor
    · rintro ⟨hne, rfl⟩
      exact ⟨hne, rfl⟩
    · rintro ⟨hne, rfl⟩
      exact ⟨hne, rfl⟩
  | _ => simp [assetName?]

theorem mem_assets_iff (s : Scene) (name : String) :
    name ∈ s.assets ↔ name ≠ "" ∧ ∃ v, s.LiveValue v ∧ (Value.asset name).Exposed v := by
  simp only [mem_assets, assetName?_eq_some]
  constructor
  · rintro ⟨v, hv, _, hleaf, hne, rfl⟩
    exact ⟨hne, v, hv, Value.asset_mem_leaves.mp hleaf⟩
  · rintro ⟨hne, v, hv, hx⟩
    exact ⟨v, hv, _, Value.asset_mem_leaves.mpr hx, hne, rfl⟩

/-- A scene, and so its snapshot, lists in order and once each exactly the assets with a name that
component values of live entities are or have in their records. These are all assets that occur in
the values, at whatever depth, exactly when every one of them that occurs inside a list or a script
entity stands in the records of some value as well. -/
theorem assets_exposed (s : Scene) :
    s.snapshot.assets = s.assets ∧ (s.assets.Pairwise fun a b => compare a b = .lt) ∧
      (∀ name, name ∈ s.assets ↔
        name ≠ "" ∧ ∃ v, s.LiveValue v ∧ (Value.asset name).Exposed v) ∧
      ((∀ name, name ∈ s.assets ↔
          name ≠ "" ∧ ∃ v, s.LiveValue v ∧ (Value.asset name).Occurs v) ↔
        ∀ name v, name ≠ "" → s.LiveValue v → (Value.asset name).Occurs v →
          ∃ w, s.LiveValue w ∧ (Value.asset name).Exposed w) := by
  refine ⟨rfl, assets_ascending s, s.mem_assets_iff, ?_⟩
  constructor
  · intro hall name v hne hv ho
    exact ((s.mem_assets_iff name).mp ((hall name).mpr ⟨hne, v, hv, ho⟩)).2
  · intro hall name
    rw [mem_assets_iff]
    refine and_congr_right fun hne => ?_
    constructor
    · rintro ⟨v, hv, hx⟩
      exact ⟨v, hv, hx.occurs⟩
    · rintro ⟨v, hv, ho⟩
      exact hall name v hne hv ho

/-- The built-in declarations and a component that holds lists. -/
def bagIndex : Index := (Index.registerComponent (.ofShape "Bag" .list) .initial).state

/-- One entity that has a list of assets. -/
def bagged : Scene :=
  let s := (createEntity (registerComponent bagIndex "Bag" { name := "" }).state).state
  (addComponent ⟨0⟩ "Bag" (.list [.asset "bricks.png"]) s).state

/-- An asset in a list is not among the assets of its scene. -/
theorem bag_unlisted :
    (∃ h, Reachable bagged h) ∧ bagged.LiveValue (.list [.asset "bricks.png"]) ∧
      bagged.snapshot.assets = [] ∧
      ¬ ∀ name, name ∈ bagged.assets ↔
        name ≠ "" ∧ ∃ v, bagged.LiveValue v ∧ (Value.asset name).Occurs v := by
  have h₁ := (Reachable.new "").succeeded (.registerComponent bagIndex "Bag") (x := ⟨0⟩) rfl
  have h₂ := h₁.succeeded .create (x := ⟨0⟩) rfl
  have h₃ := h₂.succeeded (.add ⟨0⟩ "Bag" (.list [.asset "bricks.png"])) (x := ()) rfl
  have hlive : bagged.LiveValue (.list [.asset "bricks.png"]) :=
    ⟨⟨0⟩, List.mem_singleton_self _, ⟨0⟩, rfl⟩
  have hoccurs : (Value.asset "bricks.png").Occurs (.list [.asset "bricks.png"]) :=
    .item (List.mem_singleton_self _) .here
  refine ⟨⟨_, h₃⟩, hlive, rfl, fun hall => ?_⟩
  have hm : "bricks.png" ∈ bagged.assets :=
    (hall "bricks.png").mpr ⟨by decide, _, hlive, hoccurs⟩
  cases hm

end Scene
end SceneScript
