import SceneScript.Event.Basic
import SceneScript.Random

/-! # Systems

A system listens to one event and works on the entities that have the components it asks for. It is
run once for every such entity, or once for all of them, and answers with the events it emits.
-/
namespace SceneScript

/-- What is known of a system apart from what it does. -/
structure Declaration where
  name : String
  /-- The name by which the system calls the entity it works on. -/
  entityName : String
  /-- The components that an entity must have. -/
  components : List String
  event : EventDescription
  deriving DecidableEq

/-- What the runs of systems share: the components, and the numbers that are left to be drawn. -/
structure World where
  store : Store
  random : Random

/-- Work on the components. -/
def World.onStore {ε α : Type} (a : Action ε Store α) : Action ε World α :=
  a.onPart World.store fun store w => { w with store := store }

/-- One run of a system: it changes the store, draws numbers, logs, and emits events or fails with a
message. -/
abbrev Invocation := Action String World (List Event)

/-- What a system does when its event is delivered. -/
inductive Behaviour where
  | perEntity (invoke : Declaration → Binding → EventContext → Invocation)
  | batch (invoke : Declaration → Matching → EventContext → Invocation)

structure System where
  declaration : Declaration
  behaviour : Behaviour

namespace System

def name (s : System) : String := s.declaration.name

def isBatch (s : System) : Bool :=
  match s.behaviour with
  | .perEntity _ => false
  | .batch _ => true

end System

/-- The registered systems, and beside them the positions of their names. -/
structure Registry where
  /-- The systems in the order of registration. -/
  systems : List System := []
  /-- The positions of the registered names. -/
  names : Table String Nat := []

namespace Registry

def byName? (r : Registry) (name : String) : Option System :=
  (Table.find? r.names name).bind fun i => r.systems[i]?

/-- Put a system behind the others, under its name. -/
def push (r : Registry) (system : System) : Registry where
  systems := r.systems ++ [system]
  names := Table.insert r.names system.name r.systems.length

/-- Add a system under a new name. The answer is its position. -/
def register (r : Registry) (system : System) : Except Error (Nat × Registry) :=
  if Table.contains r.names system.name then .error (.duplicateSystem system.name)
  else .ok (r.systems.length, r.push system)

/-- The systems that listen to an event, in the order of registration. -/
def listeners (r : Registry) (event : String) : List System :=
  r.systems.filter fun s => s.declaration.event.name == event

end Registry
end SceneScript
