import SceneScript.Proofs.Scenario.Bodies

/-! # Frames of the physics scenario

A stage shows some bodies with their velocities. The bodies are put there one by one, and from then
on every frame moves all of them once, whatever system does the work.
-/
namespace SceneScript

/-- An event with one listener that emits nothing takes one round. -/
theorem dispatch_quiet {registry : Registry} {roster : Roster} {world : World} {event : Event}
    {system : System} {p : Progress} (hl : registry.listeners event.name = [system])
    (hq : Progress.offer ⟨world, ⟨1, 1, 0, 0⟩, []⟩ roster event system = ([], p)) :
    dispatch registry roster 1 world event = some p := by
  have hdeliver : (Progress.addRounds ⟨world, {}, []⟩ 1).deliver registry roster event =
      ([], p) := by
    have hstart : (Progress.addRounds ⟨world, {}, []⟩ 1).addEvent = ⟨world, ⟨1, 1, 0, 0⟩, []⟩ := rfl
    rw [Progress.deliver_listeners hl, hstart, Progress.offerEach, hq]
    rfl
  rw [dispatch, Dispatch.drain_one rfl hdeliver]
  exact Dispatch.drain_nil (Dispatch.pending_round _ _)

/-- The frame of an event with one listener that emits nothing. -/
theorem Scenario.Stage.frame?_quiet {s : Stage} {random : Random} {event : Event}
    {system : System} {p : Progress} (hl : s.scene.registry.listeners event.name = [system])
    (hq : Progress.offer ⟨⟨s.scene.store, random⟩, ⟨1, 1, 0, 0⟩, []⟩ s.scene.roster event system =
      ([], p)) :
    s.frame? random 1 event =
      some { s with scene := { s.scene with store := p.store }, report := p.report } := by
  simp only [frame?, Scene.send?, dispatch_quiet hl hq, Option.map_some]

namespace Scenario.Physics
variable {k : Kit} {system : System} {velocities : Table Entity Vec3} {entities : List Entity}

/-- The stage shows some bodies, which the system moves, and nothing failed in the last frame. -/
structure Shows (k : Kit) (system : System) (entities : List Entity)
    (velocities : Table Entity Vec3) (s : Stage) : Prop where
  store : s.scene.store = k.store velocities
  registry : s.scene.registry = .ofSystems [system]
  entities : s.entities = entities
  sorted : Table.Sorted velocities
  failures : s.report.failures = 0

theorem update?_shows (hm : Moves k system) (hd : system.declaration = declaration) {p : Physics}
    {s : Stage} (h : Shows k system entities velocities s) (random : Random) :
    ∃ s', p.update? random s = some s' ∧
      Shows k system entities (Table.mapValues (fall p.deltaTime) velocities) s' := by
  have hlisteners : s.scene.registry.listeners (Event.tick p.deltaTime).name = [system] := by
    rw [h.registry, Registry.listeners, Registry.systems_ofSystems]
    refine List.filter_eq_self.mpr fun other ho => ?_
    obtain rfl := List.mem_singleton.mp ho
    rw [hd]
    rfl
  obtain ⟨runs, hoffer⟩ := hm p.deltaTime s.scene.roster velocities
    ⟨⟨s.scene.store, random⟩, ⟨1, 1, 0, 0⟩, []⟩ h.sorted h.store
  have hsorted := h.sorted.congr_keys (Table.keys_mapValues (fall p.deltaTime) velocities)
  exact ⟨_, Stage.frame?_quiet hlisteners hoffer, rfl, h.registry, h.entities, hsorted, rfl⟩

/-- The stage after some frames, each with a source of numbers. -/
def after? (p : Physics) (random : Nat → Random) : Nat → Option Stage
  | 0 => p.setup?
  | n + 1 => (after? p random n).bind (p.update? (random n))

theorem after?_shows (hm : Moves k system) (hd : system.declaration = declaration) {p : Physics}
    {s : Stage} (hs : p.setup? = some s) (h : Shows k system entities velocities s)
    (random : Nat → Random) (n : Nat) : ∃ s', p.after? random n = some s' ∧
      Shows k system entities (Table.mapValues (fall p.deltaTime)^[n] velocities) s' := by
  induction n with
  | zero => exact ⟨s, hs, by simpa [Table.mapValues] using h⟩
  | succ n ih =>
    obtain ⟨s', hs', hshows⟩ := ih
    obtain ⟨next, hnext, hmoved⟩ := update?_shows hm hd hshows (random n)
    rw [Table.mapValues_mapValues, ← Function.iterate_succ'] at hmoved
    exact ⟨next, by rw [after?, hs', Option.bind_some, hnext], hmoved⟩

/-- The velocities that are read off a stage. -/
theorem Shows.velocity? {s : Stage} (h : Shows k system entities velocities s) (n : Nat) :
    velocity? s n = entities[n]?.bind (Table.find? velocities) := by
  rw [Physics.velocity?, Stage.value?, h.entities]
  cases entities[n]? with
  | none => rfl
  | some e =>
    have hvalue : s.scene.value? e rigidBody.name =
        .ok (Table.find? (Table.mapValues bodyValue velocities) e) := by
      simp only [Scene.value?, h.store, Kit.store, k.idOf_body, Result.ok_bind]
      rfl
    simp only [hvalue, Table.find?_mapValues, Option.bind_some]
    cases Table.find? velocities e with
    | none => rfl
    | some v => rfl

/-! ### Setting up -/

/-- A scene in which bodies are put: the numbers up to the next one are in use. -/
structure Spawning (k : Kit) (system : System) (n : Nat) (velocities : Table Entity Vec3)
    (s : Scene) : Prop where
  store : s.store = k.store velocities
  registry : s.registry = .ofSystems [system]
  free : s.roster.free = []
  nextId : s.roster.nextId = n

theorem spawnBody_ok {n : Nat} {s : Scene} (h : Spawning k system n velocities s) (v : Vec3) :
    ∃ s', spawnBody v s = ⟨.ok ⟨UInt32.ofNat n⟩, s', []⟩ ∧
      Spawning k system (n + 1) (Table.insert velocities ⟨UInt32.ofNat n⟩ v) s' := by
  obtain ⟨title, roster, store, registry, scripts⟩ := s
  obtain ⟨rfl, rfl, hfree, hnext⟩ := h
  obtain ⟨created, hcreate, halive, hfilled⟩ := Scene.createEntity_filled (n := n)
    (s := ⟨title, roster, k.store velocities, .ofSystems [system], scripts⟩) ⟨hfree, hnext⟩
  let e : Entity := ⟨UInt32.ofNat n⟩
  obtain ⟨r, hbody, halive', hfilled'⟩ := Scene.addComponent_filled
    (s := ⟨title, created, k.store velocities, .ofSystems [system], scripts⟩) hfilled halive
    (Store.idOf_eq_ok.mp (k.idOf_body velocities velocities)) (k.add_body velocities velocities e v)
  obtain ⟨r', hpull, -, hfilled''⟩ := Scene.addComponent_filled
    (s := ⟨title, r, _, .ofSystems [system], scripts⟩) hfilled' halive'
    (Store.idOf_eq_ok.mp (k.idOf_pull (Table.insert velocities e v) velocities))
    (k.add_pull (Table.insert velocities e v) velocities e v)
  let spawned : Scene :=
    ⟨title, r', k.store (Table.insert velocities e v), .ofSystems [system], scripts⟩
  refine ⟨spawned, ?_, rfl, rfl, hfilled''.free, hfilled''.nextId⟩
  calc spawnBody v ⟨title, roster, k.store velocities, .ofSystems [system], scripts⟩
      = _ := Action.bind_silent hcreate
    _ = _ := Action.bind_silent hbody
    _ = _ := Action.bind_silent hpull

/-- The entities that are made for some velocities, from a number on, each with its velocity. -/
def numbered (n : Nat) (list : List Vec3) : List (Entity × Vec3) :=
  (list.zipIdx n).map fun entry => (⟨UInt32.ofNat entry.2⟩, entry.1)

theorem setup?_shows {p : Physics} {index : Index} {scene : Scene} {records : List LogRecord}
    (hsystems : systems? p.mode = some ([system], index))
    (hregister : registerSystems index [system] bare.scene = ⟨.ok (), scene, records⟩)
    (h : Spawning k system 0 [] scene) :
    ∃ s, p.setup? = some s ∧
      Shows k system ((numbered 0 p.velocities).map Prod.fst)
        (Table.ofList (numbered 0 p.velocities)) s := by
  obtain ⟨scene', hspawn, hspawned⟩ : ∃ scene',
      spawnAll spawnBody p.velocities scene =
        ⟨.ok ((numbered 0 p.velocities).map Prod.fst), scene', []⟩ ∧
      Spawning k system (0 + p.velocities.length) (Table.ofList (numbered 0 p.velocities)) scene' :=
    spawnAll_ok (P := Spawning k system) (g := id) (fun v hs => spawnBody_ok hs v) p.velocities h
  have hpopulate : (p.populate index [system]).run bare.scene =
      ⟨.ok ((numbered 0 p.velocities).map Prod.fst), scene', records ++ []⟩ := by
    rw [Action.run, populate, Action.bind_ok hregister, hspawn]
  refine ⟨{ scene := scene', entities := (numbered 0 p.velocities).map Prod.fst }, ?_, ?_⟩
  · simp only [setup?, hsystems, hpopulate]
  · exact ⟨hspawned.store, hspawned.registry, rfl, Table.sorted_ofList _, rfl⟩

/-- The velocity that a body starts with. Two bodies share a number, and so a velocity, only if
there are more of them than numbers. -/
def start? (velocities : List Vec3) (n : Nat) : Option Vec3 :=
  ((numbered 0 velocities).map Prod.fst)[n]?.bind
    (Table.find? (Table.ofList (numbered 0 velocities)))

theorem start?_eq {velocities : List Vec3} (h : velocities.length ≤ UInt32.size) (n : Nat) :
    start? velocities n = velocities[n]? := by
  have hindex : ∀ {i v}, velocities[i]? = some v → Entity.index ⟨UInt32.ofNat i⟩ = i := by
    intro i v hv
    have hlt := (List.getElem?_eq_some_iff.mp hv).1
    exact Entity.index_ofNat (Nat.lt_of_lt_of_le hlt h)
  have hmem : ∀ e v, (e, v) ∈ numbered 0 velocities ↔ velocities[e.index]? = some v := by
    intro e v
    simp only [numbered, List.mem_map, Prod.exists, List.mem_zipIdx_iff_getElem?, Prod.mk.injEq]
    constructor
    · rintro ⟨v, i, hv, rfl, rfl⟩
      rwa [hindex hv]
    · intro hv
      exact ⟨v, e.index, hv, congrArg Entity.mk UInt32.ofNat_toNat, rfl⟩
  have hentity : ((numbered 0 velocities).map Prod.fst)[n]? =
      velocities[n]?.map fun _ => ⟨UInt32.ofNat n⟩ := by
    simp [numbered, List.getElem?_zipIdx, Function.comp_def]
  rw [start?, hentity]
  cases hv : velocities[n]? with
  | none => rfl
  | some v =>
    rw [Option.map_some, Option.bind_some, Table.find?_ofList_eq hmem, hindex hv, hv]

end Scenario.Physics
end SceneScript
