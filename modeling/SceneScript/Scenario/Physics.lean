import SceneScript.Scenario.Stage
import SceneScript.Script.Load

/-! # The physics scenario

Every frame adds the effect of gravity to the velocity of every body. The same work is done by a
native system for each body, by a native system for all bodies at once, or by a script.
-/
namespace SceneScript.Scenario
open Script (loadSource)

/-- What does the work. -/
inductive PhysicsMode where
  | perEntity
  | batch
  | script
  deriving DecidableEq, Repr

namespace PhysicsMode

def all : List PhysicsMode := [perEntity, batch, script]

def name : PhysicsMode → String
  | perEntity => "per_entity"
  | batch => "batch"
  | script => "script"

def ofName? (name : String) : Option PhysicsMode := all.find? fun mode => mode.name == name

end PhysicsMode

structure Physics where
  mode : PhysicsMode
  /-- The seconds of a frame. -/
  deltaTime : Float
  /-- The velocity that each body starts with. -/
  velocities : List Vec3

namespace Physics

def force : Vec3 := ⟨0, -9.81, 0⟩

def synopsis (p : Physics) : Synopsis where
  name := "physics/" ++ p.mode.name
  description := "Gravity integration over rigid bodies, one tick per frame"
  entityCount := p.velocities.length

def rigidBody : ComponentDescription :=
  .ofShape "RigidBody" (.record [("acceleration", .vec3), ("velocity", .vec3)])

def gravity : ComponentDescription := .ofShape "Gravity" (.record [("force", .vec3)])

/-- The vector that a value is, or else the zero vector. -/
def vectorOf : Value → Vec3
  | .vec3 v => v
  | _ => ⟨0, 0, 0⟩

/-- The number that a value is, or else zero. -/
def numberOf : Value → Float
  | .number x => x
  | _ => 0

def accelerate (velocity force : Vec3) (seconds : Float) : Vec3 :=
  velocity.add (force.scale seconds)

/-- Change the velocity of one body. A match without the two components is left alone. -/
def integrate (seconds : Float) (b : Binding) : Action Error Store Unit :=
  match b.byName? rigidBody.name, b.byName? gravity.name with
  | some body, some pull => do
    let s ← Action.get
    let force ← Action.ofExcept (pull.member s "force")
    let velocity ← Action.ofExcept (body.member s "velocity")
    let next := accelerate (vectorOf velocity) (vectorOf force) seconds
    Action.set (← Action.ofExcept (body.setMember s "velocity" (.vec3 next)))
  | _, _ => return ()

/-- Change the velocities of several bodies, up to the first failure. -/
def integrateAll (seconds : Float) : List Binding → Action Error Store Unit
  | [] => return ()
  | b :: rest => do
    integrate seconds b
    integrateAll seconds rest

def silently (a : Action Error Store Unit) : Invocation :=
  World.onStore ((do a; return []).mapError Error.message)

def declaration : Declaration where
  name := "gravity"
  entityName := "body"
  components := [rigidBody.name, gravity.name]
  event := .tick

def eachBody : System :=
  ⟨declaration, .perEntity fun _ b c => silently (integrate (numberOf c.event.payload) b)⟩

def allBodies : System :=
  ⟨declaration, .batch fun _ m c => silently (integrateAll (numberOf c.event.payload) m.bindings)⟩

def source : String :=
  "component RigidBody\n" ++
  "    Vector3 velocity\n" ++
  "    Vector3 acceleration\n" ++
  "component Gravity\n" ++
  "    Vector3 force\n" ++
  "\n" ++
  "system gravity(body<RigidBody, Gravity>):\n" ++
  "    body.RigidBody.velocity = body.RigidBody.velocity + (body.Gravity.force * deltaTime)\n"

def declareComponents : Action Error Index Unit := do
  let _ ← Index.registerComponent rigidBody
  let _ ← Index.registerComponent gravity
  return ()

/-- The systems of a mode, with an index that has their components. -/
def systems? : PhysicsMode → Option (List System × Index)
  | .perEntity => some ([eachBody], (declareComponents.run .initial).state)
  | .batch => some ([allBodies], (declareComponents.run .initial).state)
  | .script =>
    match (loadSource {} "gravity.pivotscript" source).run .initial with
    | ⟨.ok systems, index, _⟩ => some (systems, index)
    | _ => none

def bare : Stage := .bare "physics"

def spawnBody (velocity : Vec3) : SceneAction Entity := do
  let e ← Scene.createEntity
  Scene.addComponent e rigidBody.name
    (.record [("acceleration", .vec3 ⟨0, 0, 0⟩), ("velocity", .vec3 velocity)])
  Scene.addComponent e gravity.name (.record [("force", .vec3 force)])
  return e

def populate (p : Physics) (index : Index) (systems : List System) :
    SceneAction (List Entity) := do
  registerSystems index systems
  spawnAll spawnBody p.velocities

def setup? (p : Physics) : Option Stage :=
  match systems? p.mode with
  | none => none
  | some (systems, index) =>
    match (p.populate index systems).run bare.scene with
    | ⟨.ok entities, scene, _⟩ => some { scene := scene, entities := entities }
    | _ => none

/-- Run one frame. It takes one round, since no system of the scenario emits anything. -/
def update? (p : Physics) (random : Random) (s : Stage) : Option Stage :=
  s.frame? random 1 (.tick p.deltaTime)

def velocity? (s : Stage) (n : Nat) : Option Vec3 :=
  match s.value? n rigidBody.name with
  | none => none
  | some body =>
    match body.member? "velocity" with
    | some (.vec3 v) => some v
    | _ => none

end Physics
end SceneScript.Scenario
