import SceneScript.Proofs.Scenario.Frames
import SceneScript.Proofs.Script.Loaded

/-! # One gravity, three systems

The script of the physics scenario reads and writes what the native systems read and write, and
multiplies and adds in the same order. So in every mode the bodies have the same velocities after
every frame.
-/
namespace SceneScript.Scenario.Physics
open Script

/-! ### The body of the script -/

/-- A path of names, each with its column. -/
def pathNode (line column : Nat) (text : String) (names : List (String × Nat)) : Node :=
  .mk .path text line column (names.map fun name => .mk .identifier name.1 line name.2 [])

def velocityNode (column : Nat) : Node :=
  pathNode 8 column "body.RigidBody.velocity"
    [("body", column), ("RigidBody", column + 5), ("velocity", column + 15)]

/-- The velocity, the force, the time, and then the product and the sum. -/
def fallNode : Node :=
  .mk .expression "" 8 31 [
    velocityNode 31,
    pathNode 8 58 "body.Gravity.force" [("body", 58), ("Gravity", 63), ("force", 71)],
    pathNode 8 79 "deltaTime" [("deltaTime", 79)],
    .mk .operator "*" 8 77 [],
    .mk .operator "+" 8 55 []]

def bodyNode : Node := .mk .block "" 8 1 [.mk .assignment "=" 8 5 [velocityNode 5, fallNode]]

def script : System := systemOf {} bodyNode declaration

section
variable (k : Kit) {velocities : Table Entity Vec3} {e : Entity} {v : Vec3} (seconds : Float)
  (roster : Roster)

/-- The variables of a run: the body and the time. -/
def entered (e : Entity) : Stack :=
  Stack.entry declaration (binding e) ⟨.tick seconds, [], roster⟩

/-- What the script reaches through the body. -/
def reached (e : Entity) : Table String ComponentRef :=
  Table.insert (Table.insert [] "RigidBody" (bodyRef e)) "Gravity" (pullRef e)

theorem componentOf_reached (e : Entity) :
    componentOf (reached e) "RigidBody" = .ok (bodyRef e) ∧
      componentOf (reached e) "Gravity" = .ok (pullRef e) := by
  have hne : "RigidBody" ≠ "Gravity" := by decide
  have hbody : Table.find? (reached e) "RigidBody" = some (bodyRef e) := by
    rw [reached, Table.find?_insert_ne _ _ hne, Table.find?_insert_self]
  have hpull : Table.find? (reached e) "Gravity" = some (pullRef e) := by
    rw [reached, Table.find?_insert_self]
  constructor
  · simp only [componentOf, hbody]
  · simp only [componentOf, hpull]

theorem find?_entered : Table.find? (entered seconds roster e) "body" =
      some (.entity (roster.refOrEmpty e) (reached e)) ∧
    Table.find? (entered seconds roster e) "deltaTime" = some (.value (.number seconds)) := by
  have hreached : Table.ofList ((binding e).refs.map fun r => (r.name, r)) = reached e := by
    simp only [binding, List.map_cons, List.map_nil, Table.ofList, List.foldl_cons,
      List.foldl_nil]
    rfl
  have hbound : Variable.ofBinding ⟨.tick seconds, [], roster⟩ (binding e) =
      .entity (roster.refOrEmpty e) (reached e) := by
    rw [Variable.ofBinding, hreached]
    rfl
  rw [← hbound]
  exact Stack.find?_entry (d := declaration) (c := ⟨.tick seconds, [], roster⟩) (binding e) rfl rfl
    (by decide)

theorem read_velocity (h : Table.find? velocities e = some v) :
    (entered seconds roster e).read (k.store velocities) ["body", "RigidBody", "velocity"] =
      .ok (.vec3 v) := by
  simp only [Stack.read, find?_entered, componentOf_reached, Result.ok_bind, value_bodyRef k h]
  rfl

theorem read_force (h : Table.find? velocities e = some v) :
    (entered seconds roster e).read (k.store velocities) ["body", "Gravity", "force"] =
      .ok (.vec3 force) := by
  simp only [Stack.read, find?_entered, componentOf_reached, Result.ok_bind, value_pullRef k h]
  rfl

theorem read_deltaTime (velocities : Table Entity Vec3) (e : Entity) :
    (entered seconds roster e).read (k.store velocities) ["deltaTime"] =
      .ok (.number seconds) := by
  simp only [Stack.read, find?_entered]
  rfl

theorem write_velocity (hs : Table.Sorted velocities) (h : Table.find? velocities e = some v) :
    (entered seconds roster e).write (k.store velocities) ["body", "RigidBody", "velocity"]
      (.vec3 (fall seconds v)) =
        .ok (entered seconds roster e, k.store (Table.modify velocities e (fall seconds))) := by
  have hset : (bodyRef e).setPath (k.store velocities) ["velocity"] (.vec3 (fall seconds v)) =
      .ok (k.store (Table.modify velocities e (fall seconds))) := by
    simp only [ComponentRef.setPath, value_bodyRef k h, Result.ok_bind]
    exact set_bodyRef k hs h (fall seconds)
  simp only [Stack.write, find?_entered, componentOf_reached, Result.ok_bind, hset]
  rfl

/-- The expression is the product added to the velocity. -/
theorem evaluate_fall (s : Setting) : evaluate s fallNode = (do
    let velocity ← Run.read ["body", "RigidBody", "velocity"]
    let force ← Run.read ["body", "Gravity", "force"]
    let seconds ← Run.read ["deltaTime"]
    Run.ofExcept (Item.reduce [.operand velocity, .operand force, .operand seconds,
      .operator .mul, .operator .add])) := by
  have hmul : Operator.ofSymbol? "*" = some .mul := rfl
  have hadd : Operator.ofSymbol? "+" = some .add := rfl
  simp [fallNode, evaluate, items, item, velocityNode, pathNode, hmul, hadd, Node.value]

variable (random : Random)

/-- A run is at work: it has its variables, and the store holds the bodies. -/
def working (velocities : Table Entity Vec3) (e : Entity) : Frame where
  stack := entered seconds roster e
  store := k.store velocities
  effects := { random := random }

theorem evaluate_working (s : Setting) (h : Table.find? velocities e = some v) :
    evaluate s fallNode (working k seconds roster random velocities e) =
      ⟨.ok (.vec3 (fall seconds v)), working k seconds roster random velocities e, []⟩ := by
  have hvelocity := Run.read_ok (f := working k seconds roster random velocities e)
    (read_velocity k seconds roster h)
  have hforce := Run.read_ok (f := working k seconds roster random velocities e)
    (read_force k seconds roster h)
  have hseconds := Run.read_ok (f := working k seconds roster random velocities e)
    (read_deltaTime k seconds roster velocities e)
  rw [evaluate_fall, Action.bind_silent hvelocity, Action.bind_silent hforce,
    Action.bind_silent hseconds]
  rfl

theorem block_working (s : Setting) (hs : Table.Sorted velocities)
    (h : Table.find? velocities e = some v) :
    block s bodyNode (working k seconds roster random velocities e) =
      ⟨.ok (), working k seconds roster random (Table.modify velocities e (fall seconds)) e,
        []⟩ := by
  have hwrite := Run.write_ok (f := working k seconds roster random velocities e)
    (write_velocity k seconds roster hs h)
  have hassign : statement s (.mk .assignment "=" 8 5 [velocityNode 5, fallNode])
      (working k seconds roster random velocities e) =
        ⟨.ok (), working k seconds roster random (Table.modify velocities e (fall seconds)) e,
          []⟩ := by
    rw [statement, Action.bind_silent (evaluate_working k seconds roster random s h)]
    exact hwrite
  exact block_one hassign ..

/-- A run of the script does for a body what a native run does. -/
theorem script_pulls :
    Pulls k seconds fun b => (execute {} bodyNode declaration b
      ⟨.tick seconds, [], roster⟩).mapError RuntimeError.message := by
  intro velocities e random hs he
  obtain ⟨v, hv⟩ := Option.isSome_iff_exists.mp (Table.find?_isSome.mpr he)
  have hblock := block_working k seconds roster random
    ⟨declaration.name, ⟨.tick seconds, [], roster⟩, {}⟩ hs hv
  exact execute_ok (d := declaration) (c := ⟨.tick seconds, [], roster⟩)
    (w := ⟨k.store velocities, random⟩) hblock

theorem moves_script : Moves k script :=
  moves_perEntity k fun seconds roster => script_pulls k seconds roster

end

/-! ### The systems of the modes -/

def scriptFile : String := "gravity.pivotscript"

def native : Kit := ⟨rigidBody, gravity, rfl, rfl⟩

def scripted : Kit :=
  ⟨{ rigidBody with provenance := .file scriptFile },
    { gravity with provenance := .file scriptFile }, rfl, rfl⟩

def sourceTree : Node :=
  .mk .file scriptFile 1 1 [
    .mk .componentDeclaration "RigidBody" 1 1 [
      .mk .property "velocity" 2 13 [.mk .type "Vector3" 2 5 []],
      .mk .property "acceleration" 3 13 [.mk .type "Vector3" 3 5 []]],
    .mk .componentDeclaration "Gravity" 4 1 [
      .mk .property "force" 5 13 [.mk .type "Vector3" 5 5 []]],
    .mk .systemDeclaration "gravity" 7 1 [
      .mk .entityParameter "body" 7 16 [
        .mk .identifier "RigidBody" 7 21 [],
        .mk .identifier "Gravity" 7 32 []],
      bodyNode]]

def sourceLines : List String :=
  ["component RigidBody",
    "    Vector3 velocity",
    "    Vector3 acceleration",
    "component Gravity",
    "    Vector3 force",
    "",
    "system gravity(body<RigidBody, Gravity>):",
    "    body.RigidBody.velocity = body.RigidBody.velocity + (body.Gravity.force * deltaTime)"]

theorem source_lines : Text.lines source = sourceLines.map String.toList := by
  have hjoin : source = String.join (sourceLines.map fun line => line ++ "\n") := rfl
  have hchars :
      source.toList = (sourceLines.map String.toList).flatMap fun line => line ++ ['\n'] := by
    rw [hjoin, String.toList_join, List.flatMap_map, List.flatMap_map]
    simp only [String.toList_append]
    rfl
  have hplain : ∀ line ∈ sourceLines.map String.toList, '\n' ∉ line ∧ '\r' ∉ line := by
    simp [sourceLines]
  rw [Text.lines, hchars]
  exact Text.linesFrom_feeds hplain

theorem source_parsed : Node.ofSource scriptFile source = .ok sourceTree := by
  rw [Node.ofSource, tokenize, source_lines]
  decide +kernel

/-- The index of the script mode. -/
def scriptIndex : Index :=
  ⟨[.tag, .transform, scripted.body, scripted.pull], [.tick], [script]⟩

set_option maxRecDepth 4096 in
/-- The file declares both components and the one system. -/
theorem source_declared : ∃ records,
    declare {} sourceTree .initial = ⟨.ok [script], scriptIndex, records⟩ :=
  ⟨_, rfl⟩

theorem systems?_script : systems? .script = some ([script], scriptIndex) := by
  obtain ⟨_, hdeclare⟩ := source_declared
  obtain ⟨records, hload⟩ := loadSource_declare source_parsed (by rw [hdeclare])
  rw [hdeclare, scriptFile] at hload
  -- By the equation for any mode: with the mode of the script in place the load would be computed.
  rw [systems?.eq_def, hload]

/-- In every mode one system does the work. -/
theorem systems?_moves (mode : PhysicsMode) : ∃ k system index records scene,
    systems? mode = some ([system], index) ∧ Moves k system ∧ system.declaration = declaration ∧
      registerSystems index [system] bare.scene = ⟨.ok (), scene, records⟩ ∧
        Spawning k system 0 [] scene := by
  cases mode with
  | perEntity => exact ⟨native, eachBody, _, _, _, rfl, moves_eachBody native, rfl, rfl,
      ⟨rfl, rfl, rfl, rfl⟩⟩
  | batch => exact ⟨native, allBodies, _, _, _, rfl, moves_allBodies native, rfl, rfl,
      ⟨rfl, rfl, rfl, rfl⟩⟩
  | script => exact ⟨scripted, script, _, _, _, systems?_script, moves_script scripted, rfl, rfl,
      ⟨rfl, rfl, rfl, rfl⟩⟩

/-- For any number of bodies with any velocities, and frames of any length, the scenario can be set
up and any number of frames can be run in every mode. Then every body has the velocity that it
started with, changed once for each frame by the effect of gravity, and nothing has failed. So the
modes agree after every frame. Nobody draws numbers, so their source does not matter. -/
theorem modes_agree (seconds : Float) (velocities : List Vec3) :
    (∀ mode random frames, ∃ s, after? ⟨mode, seconds, velocities⟩ random frames = some s ∧
      (∀ n, velocity? s n = (start? velocities n).map (fall seconds)^[frames]) ∧
        s.report.failures = 0) ∧
    (∀ mode mode' random random' frames s s',
      after? ⟨mode, seconds, velocities⟩ random frames = some s →
        after? ⟨mode', seconds, velocities⟩ random' frames = some s' →
          ∀ n, velocity? s n = velocity? s' n) ∧
    (velocities.length ≤ UInt32.size → ∀ n, start? velocities n = velocities[n]?) := by
  have hrun : ∀ mode random frames, ∃ s,
      after? ⟨mode, seconds, velocities⟩ random frames = some s ∧
      (∀ n, velocity? s n = (start? velocities n).map (fall seconds)^[frames]) ∧
        s.report.failures = 0 := by
    intro mode random frames
    obtain ⟨k, system, index, records, scene, hsystems, hmoves, hd, hregister, hspawning⟩ :=
      systems?_moves mode
    obtain ⟨s₀, hsetup, hshows⟩ :=
      setup?_shows (p := ⟨mode, seconds, velocities⟩) hsystems hregister hspawning
    obtain ⟨s, hs, hshown⟩ := after?_shows hmoves hd hsetup hshows random frames
    refine ⟨s, hs, fun n => ?_, hshown.failures⟩
    rw [hshown.velocity?, start?]
    cases ((numbered 0 velocities).map Prod.fst)[n]? with
    | none => rfl
    | some e => exact Table.find?_mapValues ..
  refine ⟨hrun, ?_, fun h n => start?_eq h n⟩
  intro mode mode' random random' frames s s' hs hs' n
  obtain ⟨t, ht, hvelocity, -⟩ := hrun mode random frames
  obtain ⟨t', ht', hvelocity', -⟩ := hrun mode' random' frames
  cases ht.symm.trans hs
  cases ht'.symm.trans hs'
  rw [hvelocity, hvelocity']

end SceneScript.Scenario.Physics
