import SceneScript.Scenario.Stage
import SceneScript.Script.Load

/-! # The cascade scenario

One tick starts a chain of events, each emitted by a script in the round before it, and every event
of the chain is counted by every counter. It shows what rounds cost when many entities take part.
-/
namespace SceneScript.Scenario
open Script (loadSource)

structure Cascade where
  /-- How many entities count. -/
  counters : Nat := 1000
  /-- How many events a tick leads to; there is one even if that is not positive. -/
  depth : Int64 := 10
  deriving DecidableEq, Repr

namespace Cascade

def synopsis (c : Cascade) : Synopsis where
  name := "cascade"
  description := "One tick chained into script emitted events over many entities"
  entityCount := c.counters + 1

def source (c : Cascade) : String :=
  "component Counter Integer\n" ++
  "system start(e<Tag>):\n" ++
  "    emit(\"Step\", 1)\n" ++
  "system step(e<Tag>) event Step(Integer depth):\n" ++
  "    if depth < " ++ toString c.depth.toInt ++ ":\n" ++
  "        emit(\"Step\", depth + 1)\n" ++
  "system count(c<Counter>) event Step(Integer depth):\n" ++
  "    c.Counter = c.Counter + 1\n"

def bare : Stage := .bare "cascade"

def spawnDriver : SceneAction Entity := do
  let e ← Scene.createEntity
  Scene.addComponent e "Tag" (.record [("name", .string "driver")])
  return e

def spawnCounter (_ : Nat) : SceneAction Entity := do
  let e ← Scene.createEntity
  Scene.addDefaultComponent e "Counter"
  return e

/-- Fill the scene: the driver is the first entity, the counters follow. -/
def populate (c : Cascade) (index : Index) (systems : List System) :
    SceneAction (List Entity) := do
  registerSystems index systems
  let driver ← spawnDriver
  return driver :: (← spawnAll spawnCounter (List.range c.counters))

def setup? (c : Cascade) : Option Stage :=
  match (loadSource {} "cascade.pivotscript" c.source).run .initial with
  | ⟨.ok systems, index, _⟩ =>
    match (c.populate index systems).run bare.scene with
    | ⟨.ok entities, scene, _⟩ => some { scene := scene, entities := entities }
    | _ => none
  | _ => none

/-- Enough rounds for one tick: its own, and one for each event of the chain. -/
def roundLimit (c : Cascade) : Nat := c.depth.toInt.toNat + 2

def update? (c : Cascade) (random : Random) (s : Stage) : Option Stage :=
  s.frame? random c.roundLimit (.tick (1 / 60))

def counter? (s : Stage) (n : Nat) : Option Int64 :=
  match s.value? (n + 1) "Counter" with
  | some (.integer k) => some k
  | _ => none

end Cascade
end SceneScript.Scenario
