import SceneScript.Action
import SceneScript.Component.Description
import SceneScript.Value.Member

/-! # The component store

The components of one scene and their arrays, numbered in the order of registration, and beside them
the numbers of the names. A name keeps the number, description and array that it got first.
-/
namespace SceneScript

/-- A registered component with its values. -/
structure Component where
  description : ComponentDescription
  array : ComponentArray

namespace Component

def name (c : Component) : String := c.description.name

def ofDescription (d : ComponentDescription) : Component := ⟨d, d.newArray⟩

end Component

structure Store where
  /-- The numbers of the registered names. -/
  names : Table String ComponentId := []
  /-- The registered components, by number. -/
  components : List Component := []

namespace Store

def size (s : Store) : Nat := s.components.length

def isEmpty (s : Store) : Bool := s.components.isEmpty

/-- The numbers that are in use. -/
def ids (s : Store) : List ComponentId := (List.range s.size).map ComponentId.mk

def get? (s : Store) (id : ComponentId) : Option Component := s.components[id.index]?

def id? (s : Store) (name : String) : Option ComponentId := Table.find? s.names name

/-- The component of a number, or the error for a number that is not in use. -/
def component (s : Store) (id : ComponentId) : Except Error Component :=
  match s.get? id with
  | some c => .ok c
  | none => .error (.invalidComponentId id)

/-- The number of a name, or the error for an unknown one. -/
def idOf (s : Store) (name : String) : Except Error ComponentId :=
  match s.id? name with
  | some id => .ok id
  | none => .error (.unknownComponent name)

/-- Put a component behind the others, under its name. -/
def push (s : Store) (d : ComponentDescription) : Store where
  names := Table.insert s.names d.name ⟨s.size⟩
  components := s.components ++ [.ofDescription d]

/-- Register a component. A known name keeps what it has. -/
def register (d : ComponentDescription) : Action Error Store ComponentId := fun s =>
  match s.id? d.name with
  | some id => ⟨.ok id, s, []⟩
  | none =>
    let id : ComponentId := ⟨s.size⟩
    ⟨.ok id, s.push d,
      [⟨.debug, "Registered component " ++ Error.quoted d.name ++ " as " ++ id.text⟩]⟩

def typed (s : Store) (id : ComponentId) (kind : StorageKind) : Except Error ComponentArray := do
  let c ← s.component id
  if c.array.hasKind kind then return c.array else throw (.storageMismatch c.name)

/-- Register a component and ask for typed storage. A wrong kind leaves it registered. -/
def registerTyped (d : ComponentDescription) (kind : StorageKind) :
    Action Error Store (ComponentId × ComponentArray) := do
  let id ← register d
  let s ← Action.get
  return (id, ← Action.ofExcept (s.typed id kind))

def setArray (s : Store) (id : ComponentId) (array : ComponentArray) : Store :=
  { s with components := s.components.modify id.index fun c => { c with array := array } }

/-- Give an entity a value, in place of the one it has. -/
def add (s : Store) (e : Entity) (id : ComponentId) (value : Value) : Except Error Store := do
  let c ← s.component id
  return s.setArray id (← c.array.insert e value)

def value? (s : Store) (e : Entity) (id : ComponentId) : Except Error (Option Value) := do
  return (← s.component id).array.get? e

/-- Take the value of an entity away; the answer is the value it had. -/
def remove (s : Store) (e : Entity) (id : ComponentId) : Except Error (Option Value × Store) := do
  let c ← s.component id
  return (c.array.get? e, s.setArray id (c.array.remove e))

def has (s : Store) (e : Entity) (id : ComponentId) : Bool :=
  match s.get? id with
  | some c => c.array.has e
  | none => false

def removeEntity (s : Store) (e : Entity) : Store :=
  { s with components := s.components.map fun c => { c with array := c.array.remove e } }

/-- Whether an entity has any component. -/
def holds (s : Store) (e : Entity) : Bool := s.components.any fun c => c.array.has e

/-- The components of an entity in the order of their numbers. -/
def componentsOf (s : Store) (e : Entity) : List ComponentId :=
  s.ids.filter fun id => s.has e id

end Store
end SceneScript
