import SceneScript.Proofs.Action
import SceneScript.Proofs.Dispatch.Queue
import SceneScript.Proofs.Entity.Numbers
import SceneScript.Proofs.Scene.Rebuild
import SceneScript.Proofs.Script.Follows
import SceneScript.Proofs.Table
import SceneScript.Scenario.Stage

/-! # What scenarios do

A scenario makes its entities one after the other, sends an event a frame, and its systems are run
for one entity after the other. What all of this does follows from what one step of it does.
-/
namespace SceneScript

/-! ### Entities one after the other -/

/-- The numbers up to the next one are in use. -/
structure Roster.Filled (n : Nat) (r : Roster) : Prop where
  free : r.free = []
  nextId : r.nextId = n

namespace Scene
variable {s : Scene} {n : Nat} {e : Entity} {name : String} {v : Value} {store : Store}

theorem createEntity_filled (h : s.roster.Filled n) : ∃ roster,
    createEntity s = ⟨.ok ⟨UInt32.ofNat n⟩, { s with roster := roster }, []⟩ ∧
      roster.isAlive ⟨UInt32.ofNat n⟩ = true ∧ roster.Filled (n + 1) := by
  let created : Roster := { s.roster with nextId := n + 1 }
  have hcreate : s.roster.create =
      (⟨UInt32.ofNat n⟩, created.activate ⟨UInt32.ofNat n⟩) := by
    simp only [Roster.create, h.free, FreeIds.takeLowest?, h.nextId, created]
  refine ⟨created.activate ⟨UInt32.ofNat n⟩, ?_, ?_, ?_, ?_⟩
  · rw [createEntity, hcreate]
  · exact (Roster.isAlive_activate _ _ _).mpr (.inl rfl)
  · exact (Roster.activate_free ..).trans h.free
  · exact Roster.activate_nextId ..

theorem addComponent_filled (h : s.roster.Filled n) (ha : s.roster.isAlive e = true)
    {id : ComponentId} (hid : s.store.id? name = some id) (hw : s.store.add e id v = .ok store) :
    ∃ roster, addComponent e name v s = ⟨.ok (), { s with store := store, roster := roster }, []⟩ ∧
      roster.isAlive e = true ∧ roster.Filled n := by
  obtain ⟨roster, hbit, hadd⟩ := addComponent_ok ha hid hw
  refine ⟨roster, hadd, (Roster.isAlive_setBit hbit e).trans ha, ?_, ?_⟩
  · exact (Roster.free_setBit hbit).trans h.free
  · exact (Roster.nextId_setBit hbit).trans h.nextId

/-- A default component is one with the default of its description. -/
theorem addDefaultComponent_eq {id : ComponentId} {c : Component} (hid : s.store.id? name = some id)
    (hc : s.store.get? id = some c) (e : Entity) :
    addDefaultComponent e name s = addComponent e name c.description.default s := by
  have hcomponent : s.store.component id = .ok c := by
    simp only [Store.component, hc]
  rw [addDefaultComponent, addComponent, componentId_bind, componentId_bind, hid]
  simp only [Action.get_bind, hcomponent, Action.ofExcept_ok_bind]

end Scene

namespace Scenario

/-- The systems of a scenario are registered one after the other. -/
theorem registerSystems_cons {index : Index} {system : System} {rest : List System}
    {s s₁ s₂ : Scene} {records records' : List LogRecord} {position : Nat} {registry : Registry}
    (hr : Scene.registerComponents index system.needs s = ⟨.ok (), s₁, records⟩)
    (hreg : s₁.registry.register system = .ok (position, registry))
    (hrest : registerSystems index rest { s₁ with registry := registry } =
      ⟨.ok (), s₂, records'⟩) :
    registerSystems index (system :: rest) s = ⟨.ok (), s₂, records ++ records'⟩ := by
  rw [registerSystems, Action.bind_ok (Scene.registerSystem_ok hr hreg), hrest]

/-- Entities that are made from a number on, one for each member of a list, with a value for each
of them. The scene is described by the next number and by a table of the values. -/
theorem spawnAll_ok {α β : Type} {spawn : α → SceneAction Entity}
    {P : Nat → Table Entity β → Scene → Prop} {g : α → β}
    (hspawn : ∀ {n t s} (a : α), P n t s → ∃ s',
      spawn a s = ⟨.ok ⟨UInt32.ofNat n⟩, s', []⟩ ∧
        P (n + 1) (Table.insert t ⟨UInt32.ofNat n⟩ (g a)) s')
    (list : List α) {n : Nat} {t : Table Entity β} {s : Scene} (h : P n t s) :
    let entries := (list.zipIdx n).map fun entry => (Entity.mk (UInt32.ofNat entry.2), g entry.1)
    ∃ s', spawnAll spawn list s = ⟨.ok (entries.map Prod.fst), s', []⟩ ∧
      P (n + list.length)
        (entries.foldl (fun t entry => Table.insert t entry.1 entry.2) t) s' := by
  induction list generalizing n t s with
  | nil => exact ⟨s, rfl, h⟩
  | cons a rest ih =>
    obtain ⟨s₁, hfirst, h₁⟩ := hspawn a h
    obtain ⟨s₂, hrest, h₂⟩ := ih h₁
    refine ⟨s₂, ?_, ?_⟩
    · rw [spawnAll, Action.bind_silent hfirst, Action.bind_silent hrest]
      rfl
    · rw [List.length_cons, ← Nat.add_assoc, Nat.add_right_comm]
      exact h₂

end Scenario

/-! ### A system, entity by entity -/

namespace Matching
variable {s : Store} {name : String} {id : ComponentId}

/-- With one component its entities are matched. -/
theorem of_one (hid : s.idOf name = .ok id) (h : ∀ e ∈ entitiesWith s id, s.has e id = true) :
    Matching.of s [name] = .ok ⟨[(id, name)], entitiesWith s id⟩ := by
  have hcolumns : [name].mapM (column s) = .ok [(id, name)] := by
    simp only [List.mapM_cons, List.mapM_nil, column, hid, Result.ok_bind, Result.pure_eq]
  have hcommon : common s [id] = entitiesWith s id := by
    have hrarest : rarest? s [id] = some id := rfl
    simp only [common, hrarest]
    rw [List.filter_eq_self]
    intro e he
    simp [h e he]
  simp only [Matching.of, hcolumns, Result.ok_bind, List.map_cons, List.map_nil, hcommon,
    Result.pure_eq]

end Matching

namespace Progress
variable {p : Progress} {roster : Roster} {event : Event}

theorem offer_perEntity {d : Declaration} {run : Declaration → Binding → EventContext → Invocation}
    {m : Matching} {groups : List (String × Binding)} (hm : d.event.mismatch? event = none)
    (hg : d.event.bindGroups p.store event = .ok groups)
    (hp : Matching.of p.store d.components = .ok m) :
    p.offer roster event ⟨d, .perEntity run⟩ =
      p.invokeEach ⟨d, .perEntity run⟩ (fun b => run d b ⟨event, groups, roster⟩) m.bindings := by
  simp only [offer, hm, prepare, hg, hp, Result.ok_bind, Result.pure_eq]

/-- The progress when some more runs have left a store behind and drawn no numbers. -/
def ran (p : Progress) (store : Store) (runs : Nat) : Progress :=
  { p with
    store := store
    report := { p.report with invocations := p.report.invocations + runs } }

@[simp] theorem ran_ran (p : Progress) (store store' : Store) (m n : Nat) :
    (p.ran store m).ran store' n = p.ran store' (m + n) := by
  simp only [ran, Nat.add_assoc]

theorem invoke_ok {run : Invocation} {events : List Event} {store : Store}
    (h : run p.toWorld = ⟨.ok events, ⟨store, p.random⟩, []⟩) (title : String) :
    p.invoke title run = (events, p.ran store 1) := by
  simp only [invoke, h, List.append_nil, ran]

theorem invokeEach_one {run : Binding → Invocation} {b : Binding} {events : List Event}
    {store : Store} (h : run b p.toWorld = ⟨.ok events, ⟨store, p.random⟩, []⟩)
    (system : System) :
    p.invokeEach system run [b] = (events, p.ran store 1) := by
  simp only [invokeEach, invoke_ok h, List.append_nil]

section
variable {α : Type} {store : Table Entity α → Store} {bind : Entity → Binding} {f : α → α}
  {run : Binding → Invocation} {t : Table Entity α}

/-- Runs that each change the entry of their entity and nothing else, for entities in any order. -/
theorem invokeEach_modify
    (h : ∀ {t e} (random), Table.Sorted t → e ∈ Table.keys t →
      run (bind e) ⟨store t, random⟩ = ⟨.ok [], ⟨store (Table.modify t e f), random⟩, []⟩)
    (system : System) (order : List Entity) (hs : Table.Sorted t)
    (ho : ∀ e ∈ order, e ∈ Table.keys t) (hp : p.store = store t) :
    p.invokeEach system run (order.map bind) =
      ([], p.ran (store (order.foldl (fun t e => Table.modify t e f) t)) order.length) := by
  induction order generalizing t p with
  | nil =>
    rw [List.foldl_nil, ← hp]
    rfl
  | cons e rest ih =>
    obtain ⟨he, hrest⟩ := List.forall_mem_cons.mp ho
    have hkeys := Table.keys_modify t e f
    have hfirst : run (bind e) p.toWorld =
        ⟨.ok [], ⟨store (Table.modify t e f), p.random⟩, []⟩ := by
      rw [← h p.random hs he, ← hp]
    simp only [List.map_cons, invokeEach, invoke_ok hfirst]
    rw [ih (hs.congr_keys hkeys) (hkeys ▸ hrest) rfl]
    simp only [List.foldl_cons, List.length_cons, List.append_nil, ran_ran, Nat.add_comm 1]

/-- Such runs for all entities change the whole table. -/
theorem invokeEach_keys
    (h : ∀ {t e} (random), Table.Sorted t → e ∈ Table.keys t →
      run (bind e) ⟨store t, random⟩ = ⟨.ok [], ⟨store (Table.modify t e f), random⟩, []⟩)
    (system : System) (hs : Table.Sorted t) (hp : p.store = store t) :
    p.invokeEach system run ((Table.keys t).map bind) =
      ([], p.ran (store (Table.mapValues f t)) t.length) := by
  have hlength : (Table.keys t).length = t.length := List.length_map _
  rw [invokeEach_modify h system (Table.keys t) hs (fun _ he => he) hp, hs.foldl_modify_keys,
    hlength]

end

end Progress

namespace Script
variable {f : Frame}

/-- A body starts with its entity and with the payload of its event. -/
theorem Stack.find?_entry {d : Declaration} {payload : Payload} {c : EventContext} (b : Binding)
    (hp : d.event.payload = some payload) (hc : c.groups = []) (hne : d.entityName ≠ payload.name) :
    Table.find? (Stack.entry d b c) d.entityName = some (Variable.ofBinding c b) ∧
      Table.find? (Stack.entry d b c) payload.name = some (.value c.event.payload) := by
  have hentry : Stack.entry d b c =
      Table.insert (Table.insert [] d.entityName (Variable.ofBinding c b))
        payload.name (.value c.event.payload) := by
    simp only [Stack.entry, hp, hc, List.foldl_nil]
    rfl
  rw [hentry]
  constructor
  · rw [Table.find?_insert_ne _ _ hne, Table.find?_insert_self]
  · rw [Table.find?_insert_self]

/-- A body with one statement does what the statement does. -/
theorem block_one {s : Setting} {n : Node} {f' : Frame} (h : statement s n f = ⟨.ok (), f', []⟩)
    (text : String) (line column : Nat) :
    block s (.mk .block text line column [n]) f = ⟨.ok (), f', []⟩ := by
  rw [block, statements]
  exact Action.bind_silent (Action.mapError_of_ok h _)

/-- A run of a system emits what its body has emitted. -/
theorem execute_ok {config : Config} {body : Node} {d : Declaration} {matched : Binding}
    {c : EventContext} {w : World}
    (h : block ⟨d.name, c, config⟩ body (Frame.entry d matched c w) = ⟨.ok (), f, []⟩) :
    (execute config body d matched c).mapError RuntimeError.message w =
      ⟨.ok f.effects.emitted, f.world, []⟩ := by
  have hexecute : execute config body d matched c w = ⟨.ok f.effects.emitted, f.world, []⟩ := by
    simp only [execute, h]
    rfl
  exact Action.mapError_of_ok hexecute _

end Script

/-! ### Rounds of one event -/

/-- The progress when one more event has been delivered. -/
def Progress.addEvent (p : Progress) : Progress :=
  { p with report := { p.report with events := p.report.events + 1 } }

theorem Progress.deliver_listeners {p : Progress} {registry : Registry} {event : Event}
    {system : System} {rest : List System} (h : registry.listeners event.name = system :: rest)
    (roster : Roster) :
    p.deliver registry roster event = p.addEvent.offerEach roster event (system :: rest) := by
  simp only [deliver, h, addEvent]

namespace Dispatch
variable {registry : Registry} {roster : Roster} {limit : Nat} {stream : Stream Event}
  {p p' : Progress} {event : Event} {emitted : List Event}

theorem drain_one (h : stream.pending = [event])
    (hd : (p.addRounds 1).deliver registry roster event = (emitted, p')) :
    Progress.drain registry roster (limit + 1) stream p =
      Progress.drain registry roster limit (stream.swap.takeRound.2.extend emitted) p' := by
  have hround : (p.addRounds 1).deliverRound registry roster stream.swap.takeRound.2 [event] =
      (stream.swap.takeRound.2.extend emitted, p') := by
    simp only [Progress.deliverRound, hd]
  rw [Progress.drain]
  simp only [Stream.stable_swap, h, Stream.takeRound_fst, List.isEmpty_cons, Bool.false_eq_true,
    if_false]
  exact congrArg (fun r : Stream Event × Progress => Progress.drain registry roster limit r.1 r.2)
    hround

theorem pending_round (stream : Stream Event) (emitted : List Event) :
    (stream.swap.takeRound.2.extend emitted).pending = emitted := by
  simp

end Dispatch
end SceneScript
