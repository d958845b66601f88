import SceneScript.Value.Basic

/-! # What a value holds

The floats and the references of a value, at any depth, and the order of its tables. The empty
reference has one canonical form, and a value is canonical when all of its references are.
-/
namespace SceneScript

/-- The reference itself, or the one form of the empty reference. -/
def EntityRef.canonical (r : EntityRef) : EntityRef := if r.isEmpty then .empty else r

namespace EntityRef

theorem canonical_of_isEmpty {r : EntityRef} (h : r.isEmpty = true) : r.canonical = .empty :=
  if_pos h

theorem entity?_eq_none {r : EntityRef} : r.entity? = none ↔ r.isEmpty = true := by
  cases h : r.isEmpty <;> simp [entity?, h]

theorem entity?_eq_some {r : EntityRef} {e : Entity} :
    r.entity? = some e ↔ r.isEmpty = false ∧ r.entity = e := by
  cases h : r.isEmpty <;> simp [entity?, h]

theorem canonical_of_entity? {r : EntityRef} {e : Entity} (h : r.entity? = some e) :
    r.canonical = r :=
  if_neg (by simp [(entity?_eq_some.mp h).1])

/-- A reference points to the same entity in its canonical form. -/
@[simp] theorem entity?_canonical (r : EntityRef) : r.canonical.entity? = r.entity? := by
  cases he : r.isEmpty with
  | true =>
    rw [canonical_of_isEmpty he]
    simp only [entity?, he, if_true]
    rfl
  | false => simp [canonical, he]

theorem canonical_eq_self {r : EntityRef}
    (h : r.entity.id = emptyId → r.generation = Generation.first) : r.canonical = r := by
  obtain ⟨⟨id⟩, generation⟩ := r
  by_cases he : id = emptyId
  · subst he
    cases h rfl
    rfl
  · simp [canonical, isEmpty, he]

end EntityRef

namespace Value

mutual

/-- The floats of a value from left to right. -/
def floats : Value → List Float
  | .number x => [x]
  | .vec3 v => [v.x, v.y, v.z]
  | .vec2 v => [v.x, v.y]
  | .color c => [c.r, c.g, c.b, c.a]
  | .record members => memberFloats members
  | .list items => itemFloats items
  | .scriptEntity _ components => memberFloats components
  | _ => []

def memberFloats : List (String × Value) → List Float
  | [] => []
  | (_, value) :: rest => floats value ++ memberFloats rest

def itemFloats : List Value → List Float
  | [] => []
  | value :: rest => floats value ++ itemFloats rest

end

mutual

/-- The entity references of a value from left to right. -/
def refs : Value → List EntityRef
  | .entity ref => [ref]
  | .record members => memberRefs members
  | .list items => itemRefs items
  | .scriptEntity ref components => ref :: memberRefs components
  | _ => []

def memberRefs : List (String × Value) → List EntityRef
  | [] => []
  | (_, value) :: rest => refs value ++ memberRefs rest

def itemRefs : List Value → List EntityRef
  | [] => []
  | value :: rest => refs value ++ itemRefs rest

end

mutual

/-- Every record of the value, and the components of every script entity, are in name order. -/
def Ordered : Value → Prop
  | .record members => Table.Sorted members ∧ MembersOrdered members
  | .list items => ItemsOrdered items
  | .scriptEntity _ components => Table.Sorted components ∧ MembersOrdered components
  | _ => True

def MembersOrdered : List (String × Value) → Prop
  | [] => True
  | (_, value) :: rest => Ordered value ∧ MembersOrdered rest

def ItemsOrdered : List Value → Prop
  | [] => True
  | value :: rest => Ordered value ∧ ItemsOrdered rest

end

mutual

def decOrdered : (v : Value) → Decidable v.Ordered
  | .record members =>
    have := decMembersOrdered members
    inferInstanceAs (Decidable (members.Pairwise (fun a b => compare a.1 b.1 = .lt) ∧
      MembersOrdered members))
  | .list items => decItemsOrdered items
  | .scriptEntity _ components =>
    have := decMembersOrdered components
    inferInstanceAs (Decidable (components.Pairwise (fun a b => compare a.1 b.1 = .lt) ∧
      MembersOrdered components))
  | .number _ | .integer _ | .string _ | .boolean _ | .vec3 _ | .vec2 _ | .asset _ | .void
  | .entity _ | .color _ => isTrue trivial

def decMembersOrdered : (members : List (String × Value)) → Decidable (MembersOrdered members)
  | [] => isTrue trivial
  | (_, value) :: rest =>
    have := decOrdered value
    have := decMembersOrdered rest
    inferInstanceAs (Decidable (value.Ordered ∧ MembersOrdered rest))

def decItemsOrdered : (items : List Value) → Decidable (ItemsOrdered items)
  | [] => isTrue trivial
  | value :: rest =>
    have := decOrdered value
    have := decItemsOrdered rest
    inferInstanceAs (Decidable (value.Ordered ∧ ItemsOrdered rest))

end

instance : DecidablePred Ordered := decOrdered

mutual

/-- The value with every reference in its canonical form. -/
def canonical : Value → Value
  | .entity ref => .entity ref.canonical
  | .record members => .record (canonicalMembers members)
  | .list items => .list (canonicalItems items)
  | .scriptEntity ref components => .scriptEntity ref.canonical (canonicalMembers components)
  | value => value

def canonicalMembers : List (String × Value) → List (String × Value)
  | [] => []
  | (name, value) :: rest => (name, canonical value) :: canonicalMembers rest

def canonicalItems : List Value → List Value
  | [] => []
  | value :: rest => canonical value :: canonicalItems rest

end

mutual

@[simp] theorem type_canonical : (v : Value) → v.canonical.type = v.type
  | .record members => by rw [canonical, type, memberTypes_canonical members, type]
  | .entity _ | .list _ | .scriptEntity _ _ | .number _ | .integer _ | .string _ | .boolean _
  | .vec3 _ | .vec2 _ | .asset _ | .void | .color _ => rfl

theorem memberTypes_canonical : (members : List (String × Value)) →
    memberTypes (canonicalMembers members) = memberTypes members
  | [] => rfl
  | (_, value) :: rest => by
    rw [canonicalMembers, memberTypes, type_canonical value, memberTypes_canonical rest,
      memberTypes]

end

mutual

theorem leaves_canonical : (v : Value) → v.canonical.leaves = v.leaves.map canonical
  | .record members => memberLeaves_canonical members
  | .entity _ | .list _ | .scriptEntity _ _ | .number _ | .integer _ | .string _ | .boolean _
  | .vec3 _ | .vec2 _ | .asset _ | .void | .color _ => rfl

theorem memberLeaves_canonical : (members : List (String × Value)) →
    memberLeaves (canonicalMembers members) = (memberLeaves members).map canonical
  | [] => rfl
  | (_, value) :: rest => by
    simp [canonicalMembers, memberLeaves, leaves_canonical value, memberLeaves_canonical rest]

end

mutual

/-- The references of a canonical value are those of the value in canonical form. -/
theorem refs_canonical : (v : Value) → v.canonical.refs = v.refs.map EntityRef.canonical
  | .entity _ => rfl
  | .record members => by simpa [canonical, refs] using memberRefs_canonical members
  | .list items => by simpa [canonical, refs] using itemRefs_canonical items
  | .scriptEntity _ components => by
    simpa [canonical, refs] using memberRefs_canonical components
  | .number _ | .integer _ | .string _ | .boolean _ | .vec3 _ | .vec2 _ | .asset _ | .void
  | .color _ => rfl

theorem memberRefs_canonical : (members : List (String × Value)) →
    memberRefs (canonicalMembers members) = (memberRefs members).map EntityRef.canonical
  | [] => rfl
  | (_, value) :: rest => by
    simp [canonicalMembers, memberRefs, refs_canonical value, memberRefs_canonical rest]

theorem itemRefs_canonical : (items : List Value) →
    itemRefs (canonicalItems items) = (itemRefs items).map EntityRef.canonical
  | [] => rfl
  | value :: rest => by
    simp [canonicalItems, itemRefs, refs_canonical value, itemRefs_canonical rest]

end

mutual

/-- A value without unusual empty references is canonical. -/
theorem canonical_eq_self : (v : Value) → (∀ r ∈ v.refs, r.canonical = r) → v.canonical = v
  | .entity ref, h => by rw [canonical, h ref (List.mem_singleton.mpr rfl)]
  | .record members, h => by rw [canonical, canonicalMembers_eq_self members h]
  | .list items, h => by rw [canonical, canonicalItems_eq_self items h]
  | .scriptEntity ref components, h => by
    rw [canonical, h ref (List.mem_cons_self ..),
      canonicalMembers_eq_self components fun r hr => h r (List.mem_cons_of_mem _ hr)]
  | .number _, _ | .integer _, _ | .string _, _ | .boolean _, _ | .vec3 _, _ | .vec2 _, _
  | .asset _, _ | .void, _ | .color _, _ => rfl

theorem canonicalMembers_eq_self : (members : List (String × Value)) →
    (∀ r ∈ memberRefs members, r.canonical = r) → canonicalMembers members = members
  | [], _ => rfl
  | (name, value) :: rest, h => by
    rw [canonicalMembers, canonical_eq_self value fun r hr => h r (List.mem_append_left _ hr),
      canonicalMembers_eq_self rest fun r hr => h r (List.mem_append_right _ hr)]

theorem canonicalItems_eq_self : (items : List Value) →
    (∀ r ∈ itemRefs items, r.canonical = r) → canonicalItems items = items
  | [], _ => rfl
  | value :: rest, h => by
    rw [canonicalItems, canonical_eq_self value fun r hr => h r (List.mem_append_left _ hr),
      canonicalItems_eq_self rest fun r hr => h r (List.mem_append_right _ hr)]

end

end Value
end SceneScript
