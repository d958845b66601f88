import SceneScript.Scene.Basic

/-! # Stages

A stage is a scene with the entities that a scenario put there and the report of its last frame.
Every scenario sets one up, sends one event a frame, and clears it in the end.
-/
namespace SceneScript.Scenario

/-- What a scenario says about itself. -/
structure Synopsis where
  name : String
  description : String
  entityCount : Nat
  deriving DecidableEq, Repr

structure Stage where
  scene : Scene
  /-- The entities of the scenario in the order in which they were created. -/
  entities : List Entity := []
  /-- What the last frame did. -/
  report : Report := {}

namespace Stage

def bare (name : String) : Stage := { scene := { name := name } }

def value? (s : Stage) (position : Nat) (component : String) : Option Value :=
  match s.entities[position]? with
  | none => none
  | some e =>
    match s.scene.value? e component with
    | .ok value => value
    | .error _ => none

/-- Run one frame. There is no next stage when the event takes more than `limit` rounds. -/
def frame? (s : Stage) (random : Random) (limit : Nat) (event : Event) : Option Stage :=
  match s.scene.send? random limit event with
  | some ⟨.ok report, scene, _⟩ => some { s with scene := scene, report := report }
  | _ => none

/-- Destroy the entities of the scenario. One that is gone already is passed over. -/
def clear (s : Stage) : Stage :=
  { s with
    scene := s.entities.foldl (fun scene e => ((Scene.destroyEntity e).run scene).state) s.scene
    entities := [] }

end Stage

def registerSystems (index : Index) : List System → SceneAction Unit
  | [] => return ()
  | system :: rest => do
    let _ ← Scene.registerSystem index system
    registerSystems index rest

def spawnAll {α : Type} (spawn : α → SceneAction Entity) : List α → SceneAction (List Entity)
  | [] => return []
  | a :: rest => do
    let e ← spawn a
    return e :: (← spawnAll spawn rest)

end SceneScript.Scenario
