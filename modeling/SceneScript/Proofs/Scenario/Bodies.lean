import SceneScript.Proofs.Component.Combination
import SceneScript.Proofs.Scenario.Stage
import SceneScript.Scenario.Physics

/-! # Falling bodies

The store of the physics scenario is a table of velocities, seen through the two components that it
has. One run of a system for a body replaces the velocity of that body, so a run for every body of
the table, in any of the ways in which a system can be run, replaces them all.
-/
namespace SceneScript.Scenario.Physics

/-- The velocity after a frame. -/
def fall (seconds : Float) (v : Vec3) : Vec3 :=
  ⟨v.x + 0 * seconds, v.y + -9.81 * seconds, v.z + 0 * seconds⟩

theorem accelerate_force (v : Vec3) (seconds : Float) :
    accelerate v force seconds = fall seconds v := rfl

/-! ### The store -/

def bodyValue (v : Vec3) : Value :=
  .record [("acceleration", .vec3 ⟨0, 0, 0⟩), ("velocity", .vec3 v)]

def pullValue : Value := .record [("force", .vec3 force)]

/-- The two components of the scenario, wherever they were declared. -/
structure Kit where
  body : ComponentDescription
  pull : ComponentDescription
  body_name : body.name = rigidBody.name
  pull_name : pull.name = gravity.name

namespace Kit
variable (k : Kit)

def bodies (velocities : Table Entity Vec3) : Component :=
  ⟨k.body, ⟨rigidBody.shape, .table (Table.mapValues bodyValue velocities)⟩⟩

def pulls (velocities : Table Entity Vec3) : Component :=
  ⟨k.pull, ⟨gravity.shape, .table (Table.mapValues (fun _ => pullValue) velocities)⟩⟩

/-- The store with some bodies, given by their velocities, and some that are pulled. -/
def storeOf (velocities pulled : Table Entity Vec3) : Store :=
  ⟨[(k.pull.name, ⟨1⟩), (k.body.name, ⟨0⟩)], [k.bodies velocities, k.pulls pulled]⟩

/-- The store with some bodies and nothing else. -/
def store (velocities : Table Entity Vec3) : Store := k.storeOf velocities velocities

section
variable (velocities others : Table Entity Vec3)

theorem idOf_body : (k.storeOf velocities others).idOf rigidBody.name = .ok ⟨0⟩ := by
  rw [storeOf, k.pull_name, k.body_name]
  rfl

theorem idOf_pull : (k.storeOf velocities others).idOf gravity.name = .ok ⟨1⟩ := by
  rw [storeOf, k.pull_name, k.body_name]
  rfl

theorem add_body (e : Entity) (v : Vec3) :
    (k.storeOf velocities others).add e ⟨0⟩ (bodyValue v) =
      .ok (k.storeOf (Table.insert velocities e v) others) := by
  have hinsert := Table.insert_mapValues bodyValue velocities e v
  rw [storeOf, storeOf, bodies, bodies, ← hinsert]
  rfl

theorem add_pull (e : Entity) (v : Vec3) :
    (k.storeOf velocities others).add e ⟨1⟩ pullValue =
      .ok (k.storeOf velocities (Table.insert others e v)) := by
  have hinsert := Table.insert_mapValues (fun _ => pullValue) others e v
  rw [storeOf, storeOf, pulls, pulls, ← hinsert]
  rfl

/-- All bodies are pulled alike, whatever their velocities are. -/
theorem storeOf_modify (e : Entity) (f : Vec3 → Vec3) :
    k.storeOf velocities (Table.modify others e f) = k.storeOf velocities others := by
  rw [storeOf, storeOf, pulls, pulls, Table.mapValues_modify (g := f) fun _ => rfl]

end

end Kit

def bodyRef (e : Entity) : ComponentRef := ⟨e, ⟨0⟩, rigidBody.name⟩

def pullRef (e : Entity) : ComponentRef := ⟨e, ⟨1⟩, gravity.name⟩

section
variable (k : Kit) {velocities : Table Entity Vec3} {e : Entity} {v : Vec3}

theorem get?_bodyRef (velocities : Table Entity Vec3) (e : Entity) :
    (bodyRef e).get? (k.store velocities) = (Table.find? velocities e).map bodyValue :=
  Table.find?_mapValues bodyValue velocities e

theorem get?_pullRef (velocities : Table Entity Vec3) (e : Entity) :
    (pullRef e).get? (k.store velocities) = (Table.find? velocities e).map fun _ => pullValue :=
  Table.find?_mapValues (fun _ => pullValue) velocities e

theorem value_bodyRef (h : Table.find? velocities e = some v) :
    (bodyRef e).value (k.store velocities) = .ok (bodyValue v) := by
  simp only [ComponentRef.value, get?_bodyRef, h, Option.map_some]

theorem value_pullRef (h : Table.find? velocities e = some v) :
    (pullRef e).value (k.store velocities) = .ok pullValue := by
  simp only [ComponentRef.value, get?_pullRef, h, Option.map_some]

/-- Putting a velocity into the place of a body changes the velocity of this body. -/
theorem set_bodyRef (hs : Table.Sorted velocities) (h : Table.find? velocities e = some v)
    (f : Vec3 → Vec3) :
    (bodyRef e).set (k.store velocities) (bodyValue (f v)) =
      .ok (k.store (Table.modify velocities e f)) := by
  have hadd := k.add_body velocities velocities e (f v)
  simp only [ComponentRef.set, get?_bodyRef, h, Option.map_some]
  rw [Kit.store, Kit.store, k.storeOf_modify, ← hs.insert_eq_modify h]
  exact hadd

/-! ### Matched bodies -/

/-- What a system is given of one body. -/
def binding (e : Entity) : Binding := ⟨e, [bodyRef e, pullRef e]⟩

def matching (velocities : Table Entity Vec3) : Matching :=
  ⟨[(⟨0⟩, rigidBody.name), (⟨1⟩, gravity.name)], Table.keys velocities⟩

theorem bindings_matching (velocities : Table Entity Vec3) :
    (matching velocities).bindings = (Table.keys velocities).map binding := rfl

theorem has_of_mem_keys (h : e ∈ Table.keys velocities) :
    (k.store velocities).has e ⟨0⟩ = true ∧ (k.store velocities).has e ⟨1⟩ = true := by
  obtain ⟨v, hv⟩ := Option.isSome_iff_exists.mp (Table.find?_isSome.mpr h)
  have hbody : (k.store velocities).has e ⟨0⟩ =
      ((bodyRef e).get? (k.store velocities)).isSome := rfl
  have hpull : (k.store velocities).has e ⟨1⟩ =
      ((pullRef e).get? (k.store velocities)).isSome := rfl
  rw [hbody, hpull, get?_bodyRef, get?_pullRef, hv]
  exact ⟨rfl, rfl⟩

/-- Every body is matched, in ascending order. -/
theorem matching_of (velocities : Table Entity Vec3) :
    Matching.of (k.store velocities) declaration.components = .ok (matching velocities) := by
  have hcolumns : declaration.components.mapM (Matching.column (k.store velocities)) =
      .ok (matching velocities).components := by
    simp only [declaration, List.mapM_cons, List.mapM_nil, Matching.column, Kit.store, k.idOf_body,
      k.idOf_pull, Result.ok_bind, Result.pure_eq, matching]
  have hrarest : Matching.rarest? (k.store velocities) [⟨0⟩, ⟨1⟩] = some ⟨0⟩ := by
    have hbodies : Matching.count (k.store velocities) ⟨0⟩ = velocities.length := by
      exact List.length_map _
    have hpulls : Matching.count (k.store velocities) ⟨1⟩ = velocities.length := by
      exact List.length_map _
    simp [Matching.rarest?, hbodies, hpulls]
  have hcommon : Matching.common (k.store velocities) [⟨0⟩, ⟨1⟩] = Table.keys velocities := by
    have hwith : Matching.entitiesWith (k.store velocities) ⟨0⟩ =
        Table.keys (Table.mapValues bodyValue velocities) := rfl
    simp only [Matching.common, hrarest, hwith, Table.keys_mapValues]
    rw [List.filter_eq_self]
    intro e he
    obtain ⟨hbody, hpull⟩ := has_of_mem_keys k he
    simp [hbody, hpull]
  simp only [Matching.of, hcolumns, Result.ok_bind]
  exact congrArg (fun entities => Except.ok (Matching.mk _ entities)) hcommon

/-! ### Runs for one body -/

theorem integrate_ok (seconds : Float) {velocities : Table Entity Vec3} {e : Entity}
    (hs : Table.Sorted velocities) (he : e ∈ Table.keys velocities) :
    integrate seconds (binding e) (k.store velocities) =
      ⟨.ok (), k.store (Table.modify velocities e (fall seconds)), []⟩ := by
  obtain ⟨v, hv⟩ := Option.isSome_iff_exists.mp (Table.find?_isSome.mpr he)
  have hbody : (binding e).byName? rigidBody.name = some (bodyRef e) := rfl
  have hpull : (binding e).byName? gravity.name = some (pullRef e) := rfl
  have hforce : (pullRef e).member (k.store velocities) "force" = .ok (.vec3 force) := by
    simp only [ComponentRef.member, value_pullRef k hv, Result.ok_bind]
    rfl
  have hvelocity : (bodyRef e).member (k.store velocities) "velocity" = .ok (.vec3 v) := by
    simp only [ComponentRef.member, value_bodyRef k hv, Result.ok_bind]
    rfl
  have hset : (bodyRef e).setMember (k.store velocities) "velocity" (.vec3 (fall seconds v)) =
      .ok (k.store (Table.modify velocities e (fall seconds))) := by
    simp only [ComponentRef.setMember, value_bodyRef k hv, Result.ok_bind]
    exact set_bodyRef k hs hv (fall seconds)
  simp only [integrate, hbody, hpull, Action.get_bind, hforce, hvelocity, Action.ofExcept_ok_bind,
    vectorOf, accelerate_force, hset]
  rfl

theorem silently_ok {run : Action Error Store Unit} {s s' : Store} (h : run s = ⟨.ok (), s', []⟩)
    (random : Random) : silently run ⟨s, random⟩ = ⟨.ok [], ⟨s', random⟩, []⟩ := by
  have hrun : (do run; return [] : Action Error Store (List Event)) s = ⟨.ok [], s', []⟩ :=
    Action.bind_silent h
  simp only [silently, World.onStore, Action.onPart, Action.mapError_of_ok hrun Error.message]

/-- Every run for a body adds the effect of gravity to the velocity of this body and does nothing
else. -/
def Pulls (seconds : Float) (run : Binding → Invocation) : Prop :=
  ∀ {velocities e} (random), Table.Sorted velocities → e ∈ Table.keys velocities →
    run (binding e) ⟨k.store velocities, random⟩ =
      ⟨.ok [], ⟨k.store (Table.modify velocities e (fall seconds)), random⟩, []⟩

theorem integrate_pulls (seconds : Float) :
    Pulls k seconds fun b => silently (integrate seconds b) :=
  fun random hs he => silently_ok (integrate_ok k seconds hs he) random

/-! ### Runs for all bodies -/

/-- One body after the other, in any order. -/
theorem integrateAll_bindings (seconds : Float) (order : List Entity)
    {velocities : Table Entity Vec3} (hs : Table.Sorted velocities)
    (ho : ∀ e ∈ order, e ∈ Table.keys velocities) :
    integrateAll seconds (order.map binding) (k.store velocities) =
      ⟨.ok (), k.store (order.foldl (fun t e => Table.modify t e (fall seconds)) velocities),
        []⟩ := by
  induction order generalizing velocities with
  | nil => rfl
  | cons e rest ih =>
    obtain ⟨he, hrest⟩ := List.forall_mem_cons.mp ho
    have hkeys := Table.keys_modify velocities e (fall seconds)
    have hfirst := integrate_ok k seconds hs he
    rw [List.map_cons, integrateAll, Action.bind_silent hfirst,
      ih (hs.congr_keys hkeys) (hkeys ▸ hrest), List.foldl_cons]

/-- A system that is offered a tick moves every body once and does nothing else. -/
def Moves (system : System) : Prop :=
  ∀ seconds roster velocities (p : Progress), Table.Sorted velocities →
    p.store = k.store velocities → ∃ runs,
      p.offer roster (.tick seconds) system = ([], { p with
        store := k.store (Table.mapValues (fall seconds) velocities)
        report := { p.report with invocations := p.report.invocations + runs } })

theorem mismatch?_tick (seconds : Float) :
    declaration.event.mismatch? (.tick seconds) = none := rfl

theorem prepare_tick {p : Progress} {velocities : Table Entity Vec3} {system : System}
    (hd : system.declaration = declaration) (hp : p.store = k.store velocities)
    (seconds : Float) :
    Progress.prepare p.store system (.tick seconds) = .ok ([], matching velocities) := by
  have hgroups : declaration.event.bindGroups (k.store velocities) (.tick seconds) = .ok [] := rfl
  simp only [Progress.prepare, hd, hp, hgroups, matching_of, Result.ok_bind, Result.pure_eq]

/-- A system that is run for each body. -/
theorem moves_perEntity {run : Declaration → Binding → EventContext → Invocation}
    (h : ∀ seconds roster,
      Pulls k seconds fun b => run declaration b ⟨.tick seconds, [], roster⟩) :
    Moves k ⟨declaration, .perEntity run⟩ := by
  intro seconds roster velocities p hs hp
  have hgroups : declaration.event.bindGroups p.store (.tick seconds) = .ok [] := rfl
  have hmatching : Matching.of p.store declaration.components = .ok (matching velocities) := by
    rw [hp, matching_of]
  refine ⟨velocities.length, ?_⟩
  rw [Progress.offer_perEntity (mismatch?_tick seconds) hgroups hmatching, bindings_matching]
  exact Progress.invokeEach_keys (h seconds roster) _ hs hp

/-- A system that is run once for all bodies. -/
theorem moves_allBodies : Moves k allBodies := by
  intro seconds roster velocities p hs hp
  have hall := integrateAll_bindings k seconds (Table.keys velocities) hs fun _ he => he
  rw [hs.foldl_modify_keys] at hall
  have hrun : silently (integrateAll seconds (matching velocities).bindings) p.toWorld =
      ⟨.ok [], ⟨k.store (Table.mapValues (fall seconds) velocities), p.random⟩, []⟩ := by
    rw [bindings_matching, ← silently_ok hall, ← hp]
  refine ⟨1, ?_⟩
  have hd : allBodies.declaration = declaration := rfl
  simp only [Progress.offer, hd, mismatch?_tick, prepare_tick k hd hp seconds]
  change p.invoke _ (silently (integrateAll seconds (matching velocities).bindings)) = _
  simp only [Progress.invoke, hrun, List.append_nil]

theorem moves_eachBody : Moves k eachBody :=
  moves_perEntity k fun seconds _ => integrate_pulls k seconds

end

end SceneScript.Scenario.Physics
