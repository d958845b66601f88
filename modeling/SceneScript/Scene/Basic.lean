import SceneScript.Index
import SceneScript.System.Dispatch

/-! # Scenes

The entities, components and systems of one world. The operations keep the roster's signatures in
step with the component arrays, and an entity loses its components before its number is given up.
-/
namespace SceneScript

structure Scene where
  name : String
  roster : Roster := {}
  store : Store := {}
  registry : Registry := {}
  /-- The scripts that the scene depends on, each once. -/
  scripts : List String := []

/-- An operation on a scene. -/
abbrev SceneAction (α : Type) := Action Error Scene α

namespace Scene

def onStore {α : Type} (a : Action Error Store α) : SceneAction α :=
  a.onPart store fun store s => { s with store := store }

def onRoster {α : Type} (a : Action Error Roster α) : SceneAction α :=
  a.onPart roster fun roster s => { s with roster := roster }

def requireAlive (e : Entity) : SceneAction Unit := do
  let s ← Action.get
  if s.roster.isAlive e then return () else Action.fail (.unknownEntity e)

def componentId (name : String) : SceneAction ComponentId := do
  let s ← Action.get
  Action.ofExcept (s.store.idOf name)

def createEntity : SceneAction Entity := fun s =>
  let (e, roster) := s.roster.create
  ⟨.ok e, { s with roster := roster }, []⟩

/-- Destroy an entity: first its components, then its number. -/
def destroyEntity (e : Entity) : SceneAction Unit := do
  requireAlive e
  Action.modify fun s => { s with store := s.store.removeEntity e }
  onRoster (Roster.destroy e)

def registerComponent (index : Index) (name : String) : SceneAction ComponentId := do
  let d ← Action.ofExcept (index.component name)
  onStore (Store.register d)

/-- Make the transform available; the answer includes its array. -/
def transforms (index : Index) : SceneAction (ComponentId × ComponentArray) := do
  match index.transform? with
  | some d => onStore (Store.registerTyped d (.synchronized .transform))
  | none => Action.fail (.unknownComponent "Transform")

/-- Set or clear a signature bit. -/
def setBit (e : Entity) (id : ComponentId) (present : Bool) : SceneAction Unit := do
  let s ← Action.get
  let roster ← Action.ofExcept (s.roster.setBit e id present)
  Action.set { s with roster := roster }

def addComponentWithId (e : Entity) (id : ComponentId) (value : Value) : SceneAction Unit := do
  requireAlive e
  let s ← Action.get
  let store ← Action.ofExcept (s.store.add e id value)
  Action.set { s with store := store }
  setBit e id true

def addComponent (e : Entity) (name : String) (value : Value) : SceneAction Unit := do
  addComponentWithId e (← componentId name) value

def addDefaultComponent (e : Entity) (name : String) : SceneAction Unit := do
  let id ← componentId name
  let s ← Action.get
  let c ← Action.ofExcept (s.store.component id)
  addComponentWithId e id c.description.default

/-- Take a component away from an entity; the answer is the value it had. -/
def removeComponentWithId (e : Entity) (id : ComponentId) : SceneAction (Option Value) := do
  let s ← Action.get
  let (old, store) ← Action.ofExcept (s.store.remove e id)
  Action.set { s with store := store }
  if s.roster.isAlive e then setBit e id false
  return old

def removeComponent (e : Entity) (name : String) : SceneAction (Option Value) := do
  removeComponentWithId e (← componentId name)

def valueWithId? (s : Scene) (e : Entity) (id : ComponentId) : Except Error (Option Value) :=
  s.store.value? e id

def value? (s : Scene) (e : Entity) (name : String) : Except Error (Option Value) := do
  s.store.value? e (← s.store.idOf name)

/-- References to all components of all live entities, by ascending entity. -/
def refs (s : Scene) : List ComponentRef := s.roster.alive.flatMap (ComponentRef.all s.store)

/-- Make several declared components available, up to the first unknown one. -/
def registerComponents (index : Index) : List String → SceneAction Unit
  | [] => return ()
  | name :: rest => do
    let _ ← registerComponent index name
    registerComponents index rest

/-- Add a system. The components that it and the groups of its event need are made available
first. The answer is the position of the system. -/
def registerSystem (index : Index) (system : System) : SceneAction Nat := do
  let groups := system.declaration.event.groups.flatMap EntityGroup.components
  registerComponents index (system.declaration.components ++ groups)
  let s ← Action.get
  let (position, registry) ← Action.ofExcept (s.registry.register system)
  Action.set { s with registry := registry }
  return position

def registerSystemByName (index : Index) (name : String) : SceneAction Nat := do
  match index.system? name with
  | some system => registerSystem index system
  | none => Action.fail (.unknownSystem name)

def addScript (s : Scene) (path : String) : Scene :=
  if s.scripts.contains path then s else { s with scripts := s.scripts ++ [path] }

/-- Deliver an event and all it leads to, with numbers drawn from a source. There is no result when
that takes more than `limit` rounds. -/
def send? (s : Scene) (random : Random) (limit : Nat) (event : Event) :
    Option (Outcome Error Scene Report) :=
  (dispatch s.registry s.roster limit ⟨s.store, random⟩ event).map fun p =>
    ⟨.ok p.report, { s with store := p.store }, p.log⟩

end Scene
end SceneScript
