import SceneScript.Component.Ref

/-! # Combinations of components

A matching lists the entities that have every one of some components; a binding is one such entity
with a reference to each component. Both fix which places are visited and in what order, and
neither holds values: reads and writes go to the store as it is at that moment.
-/
namespace SceneScript

/-- One entity and a reference to each of some components. -/
structure Binding where
  entity : Entity
  refs : List ComponentRef
  deriving DecidableEq, Repr

namespace Binding

def refTo (s : Store) (e : Entity) (name : String) : Except Error ComponentRef := do
  ComponentRef.of s e (← s.idOf name)

/-- Bind an entity to named components, all of which it must have. -/
def of (s : Store) (e : Entity) (names : List String) : Except Error Binding := do
  return ⟨e, ← names.mapM (refTo s e)⟩

def get? (b : Binding) (i : Nat) : Option ComponentRef := b.refs[i]?

def byName? (b : Binding) (name : String) : Option ComponentRef :=
  b.refs.find? fun r => r.name == name

end Binding

/-- The entities that have every one of some components. -/
structure Matching where
  components : List (ComponentId × String)
  entities : List Entity
  deriving DecidableEq, Repr

namespace Matching

def count (s : Store) (id : ComponentId) : Nat :=
  match s.get? id with
  | some c => c.array.count
  | none => 0

/-- The component that the fewest entities have; the first of several. -/
def rarest? (s : Store) : List ComponentId → Option ComponentId
  | [] => none
  | id :: rest =>
    match rarest? s rest with
    | some other => if count s other < count s id then some other else some id
    | none => some id

/-- The entities that have a component, in ascending order. -/
def entitiesWith (s : Store) (id : ComponentId) : List Entity :=
  match s.get? id with
  | some c => c.array.entities
  | none => []

/-- The entities that have all of some components, in ascending order. No component at all is had
by no entity. -/
def common (s : Store) (ids : List ComponentId) : List Entity :=
  match rarest? s ids with
  | some id => (entitiesWith s id).filter fun e => ids.all fun other => s.has e other
  | none => []

def column (s : Store) (name : String) : Except Error (ComponentId × String) := do
  return (← s.idOf name, name)

/-- Match the entities that have all of some named components. -/
def of (s : Store) (names : List String) : Except Error Matching := do
  let components ← names.mapM (column s)
  return ⟨components, common s (components.map Prod.fst)⟩

def bind (m : Matching) (e : Entity) : Binding :=
  ⟨e, m.components.map fun (id, name) => ⟨e, id, name⟩⟩

def bindings (m : Matching) : List Binding := m.entities.map m.bind

def get? (m : Matching) (i : Nat) : Option Binding := m.entities[i]?.map m.bind

def names (m : Matching) : List String := m.components.map Prod.snd

end Matching
end SceneScript
