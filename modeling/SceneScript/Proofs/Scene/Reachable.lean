import SceneScript.Proofs.Dispatch.Thread
import SceneScript.Proofs.Scene.Restore
import SceneScript.Proofs.Script.Writes

/-! # Scenes that can be reached

A scene starts empty or from a snapshot and is worked on by its operations and by events that
scripts handle. Along every such run the history of the changes is kept, and every scene of the run
is consistent with it: signatures, arrays and the history tell the same.
-/
namespace SceneScript

/-- A script that was compiled: its settings and its body. -/
structure Program where
  config : Script.Config
  body : Script.Node

def Program.system (p : Program) (d : Declaration) : System := Script.systemOf p.config p.body d

namespace Dispatch

/-- The writes of one run, where `programs` are the scripts behind the systems. -/
def Call.writes (programs : System → Program) (c : Call) : List Change :=
  match c.target with
  | .one b =>
    Script.executeWrites (programs c.system).config (programs c.system).body c.system.declaration b
      c.context c.before
  | .all _ => []

def Step.writes (programs : System → Program) : Step → List Change
  | .called c => c.writes programs
  | _ => []

/-- Every system of a registry runs the script behind it. -/
def Scripted (programs : System → Program) (registry : Registry) : Prop :=
  ∀ system ∈ registry.systems, system = (programs system).system system.declaration

/-- A run of a script runs its body for one of the matched entities. -/
theorem Scripted.outcome_eq {programs : System → Program} {registry : Registry}
    (hp : Scripted programs registry) {c : Call} (hm : c.system ∈ registry.systems) {m : Matching}
    (ht : c.target ∈ targets c.system m) :
    ∃ e ∈ m.entities, c.target = .one (m.bind e) ∧
      c.outcome = ((Script.execute (programs c.system).config (programs c.system).body
        c.system.declaration (m.bind e) c.context).mapError Script.RuntimeError.message)
          c.before := by
  have hs := hp c.system hm
  rw [hs] at ht
  obtain ⟨b, hb, htarget⟩ := List.mem_map.mp ht
  obtain ⟨e, he, rfl⟩ := List.mem_map.mp hb
  have hi : invocation c.system (.one (m.bind e)) c.context =
      invocation ((programs c.system).system c.system.declaration) (.one (m.bind e)) c.context := by
    rw [← hs]
  refine ⟨e, he, htarget.symm, ?_⟩
  rw [Call.outcome, ← htarget, hi]
  rfl

theorem call_rewrites {programs : System → Program} {registry : Registry}
    (hp : Scripted programs registry) {c : Call} (hc : Registered registry c) :
    c.before.store.Rewrites (c.writes programs) c.outcome.state.store := by
  obtain ⟨hm, m, ht⟩ := hc
  obtain ⟨e, _, htarget, hout⟩ := hp.outcome_eq hm ht
  simp only [hout, Call.writes, htarget]
  exact Script.execute_rewrites ..

/-- Scripts that run one after the other make the writes of each in turn. -/
theorem steps_rewrite {programs : System → Program} {registry : Registry}
    (hp : Scripted programs registry) {w : World} {steps : List Step}
    (ht : Threaded (Registered registry) w steps) :
    w.store.Rewrites (steps.flatMap (Step.writes programs)) (leave w steps).store := by
  induction steps generalizing w with
  | nil => exact .nil w.store
  | cons x rest ih =>
    obtain ⟨hx, hrest⟩ := ht
    refine Store.Rewrites.append ?_ (ih hrest)
    cases x with
    | called c =>
      obtain ⟨hc, rfl⟩ := hx
      exact call_rewrites hp hc
    | _ => exact .nil w.store

end Dispatch

namespace Scene

/-- The operations on a scene, each with the changes that it makes when it succeeds. -/
inductive Operation : {α : Type} → SceneAction α → (Scene → List Change) → Prop
  | create : Operation createEntity fun _ => []
  | destroy (e : Entity) : Operation (destroyEntity e) fun _ => [.destroyed e]
  | registerComponent (index : Index) (name : String) :
    Operation (registerComponent index name) fun _ => []
  | registerSystem (index : Index) (system : System) :
    Operation (registerSystem index system) fun _ => []
  | registerSystemByName (index : Index) (name : String) :
    Operation (registerSystemByName index name) fun _ => []
  | transforms (index : Index) : Operation (transforms index) fun _ => []
  | add (e : Entity) (name : String) (v : Value) :
    Operation (addComponent e name v) (named name fun id _ => [.wrote e id v])
  | addWithId (e : Entity) (id : ComponentId) (v : Value) :
    Operation (addComponentWithId e id v) fun _ => [.wrote e id v]
  | addDefault (e : Entity) (name : String) :
    Operation (addDefaultComponent e name) (named name (defaultWrite e))
  | remove (e : Entity) (name : String) :
    Operation (removeComponent e name) (named name fun id _ => [.removed e id])
  | removeWithId (e : Entity) (id : ComponentId) :
    Operation (removeComponentWithId e id) fun _ => [.removed e id]

/-- The scenes at the end of a run, with the history of the run. An event is sent while all
registered systems are scripts, which draw their numbers from any source. -/
inductive Reachable : Scene → List Change → Prop
  | new (name : String) : Reachable { name := name } []
  | restored (index : Index) (snapshot : Snapshot) :
    (restore index snapshot).result = .ok () →
      Reachable (restore index snapshot).state
        (snapshot.writes (restore index snapshot).state.store)
  | succeeded {s : Scene} {h : List Change} {α : Type} {a : SceneAction α}
    {changes : Scene → List Change} {x : α} :
    Reachable s h → Operation a changes → (a s).result = .ok x →
      Reachable (a s).state (h ++ changes s)
  | failed {s : Scene} {h : List Change} {α : Type} {a : SceneAction α}
    {changes : Scene → List Change} {err : Error} :
    Reachable s h → Operation a changes → (a s).result = .error err → Reachable (a s).state h
  | sent {s : Scene} {h : List Change} {programs : System → Program} {random : Random}
    {limit : Nat} {event : Event} {o : Outcome Error Scene Report} :
    Reachable s h → Dispatch.Scripted programs s.registry →
      s.send? random limit event = some o →
      Reachable o.state (h ++
        (Dispatch.rounds s.registry s.roster limit ⟨s.store, random⟩ event).flatten.flatMap
          (Dispatch.Step.writes programs))

theorem Operation.records {α : Type} {a : SceneAction α} {changes : Scene → List Change}
    (h : Operation a changes) : Records a changes := by
  cases h with
  | create => exact createEntity_preserves.records
  | destroy e => exact destroyEntity_records e
  | registerComponent index name => exact (registerComponent_preserves index name).records
  | registerSystem index system => exact (registerSystem_preserves index system).records
  | registerSystemByName index name => exact (registerSystemByName_preserves index name).records
  | transforms index => exact (transforms_preserves index).records
  | add e name v => exact addComponent_records e name v
  | addWithId e id v => exact addComponentWithId_records e id v
  | addDefault e name => exact addDefaultComponent_records e name
  | remove e name => exact removeComponent_records e name
  | removeWithId e id => exact removeComponentWithId_records e id

/-- An event that scripts handle adds their writes to the history. Who is alive with which
components stays the same. -/
theorem send_consistent {s : Scene} {h : List Change} (hs : s.Consistent h)
    {programs : System → Program} (hp : Dispatch.Scripted programs s.registry) {random : Random}
    {limit : Nat} {event : Event} {o : Outcome Error Scene Report}
    (ho : s.send? random limit event = some o) :
    o.state.Consistent (h ++
      (Dispatch.rounds s.registry s.roster limit ⟨s.store, random⟩ event).flatten.flatMap
        (Dispatch.Step.writes programs)) := by
  obtain ⟨p, hd, rfl⟩ := Option.map_eq_some_iff.mp ho
  have hr := Dispatch.steps_rewrite hp
    (Dispatch.rounds_threaded s.registry s.roster limit ⟨s.store, random⟩ event)
  rw [← Dispatch.dispatch_store hd] at hr
  exact ⟨hr.sound hs.sound, hs.tidy, fun e id => (hr.has_eq e id).trans (hs.agrees e id)⟩

theorem Reachable.consistent {s : Scene} {h : List Change} (hr : s.Reachable h) :
    s.Consistent h := by
  induction hr with
  | new name => exact consistent_new name
  | restored index snapshot hok => exact restore_consistent hok
  | succeeded _ ha hok ih =>
    have := ha.records _ _ ih
    simpa only [hok] using this
  | failed _ ha herr ih =>
    have := ha.records _ _ ih
    simpa only [herr] using this
  | sent _ hp ho ih => exact send_consistent ih hp ho

/-- Along every run an array has an entity exactly when the entity's signature names the component,
only live entities have components, only registered components are named, and every value has its
declared type and is the one that was written last and neither removed nor destroyed since. -/
theorem reachable_agrees {s : Scene} {h : List Change} (hr : s.Reachable h) (e : Entity)
    (id : ComponentId) :
    s.store.has e id = s.roster.hasComponent e id ∧
      (s.store.has e id = true → s.roster.isAlive e = true) ∧
      (s.roster.hasComponent e id = true → id.index < s.store.size) ∧
      ∀ c, s.store.get? id = some c → c.array.Exact →
        (∀ v, c.array.get? e = some v → v.type = c.description.shape) ∧
        s.valueWithId? e id = .ok (lastWritten h e id) ∧
        ∀ name, s.store.id? name = some id → s.value? e name = .ok (lastWritten h e id) := by
  have hs := hr.consistent
  refine ⟨hs.agrees e id, ?_, ?_, ?_⟩
  · intro hh
    rw [hs.agrees] at hh
    exact Roster.isAlive_of_hasComponent hh
  · intro hh
    rw [← hs.agrees] at hh
    by_contra hid
    rw [Store.has_of_get?_none (Store.get?_eq_none_iff.mpr (Nat.le_of_not_lt hid))] at hh
    cases hh
  · intro c hc hx
    have hv : s.valueWithId? e id = .ok (lastWritten h e id) := by
      simp [valueWithId?, Store.value?, Store.component, hc, hs.sound.recalls id c hc hx e]
    refine ⟨hs.sound.typed id c hc hx e, hv, fun name hn => ?_⟩
    rw [← hv]
    simp [value?, valueWithId?, Store.idOf, hn]

/-- The value of the built-in component that names an entity. -/
def tagValue (name : String) : Value := .record [("name", .string name)]

/-- A script that gives every named entity a new name. -/
def relabel : Program :=
  ⟨{}, .mk .block "" 1 1 [.mk .assignment "" 2 5 [
    .mk .path "" 2 5 [.mk .identifier "e" 2 5 [], .mk .identifier "Tag" 2 7 [],
      .mk .identifier "name" 2 11 []],
    .mk .expression "" 2 18 [.mk .string "new" 2 18 []]]]⟩

def relabelSystem : System := relabel.system ⟨"Relabel", "e", ["Tag"], ⟨"Ping", [], none⟩⟩

theorem relabel_agrees :
    ∃ s, Reachable s [.wrote ⟨0⟩ ⟨0⟩ (tagValue "old"), .wrote ⟨0⟩ ⟨0⟩ (tagValue "new")] ∧
      s.roster.hasComponent ⟨0⟩ ⟨0⟩ = true ∧
      s.value? ⟨0⟩ "Tag" = .ok (some (tagValue "new")) := by
  have h₁ := (Reachable.new "").succeeded (.registerSystem .initial relabelSystem) (x := 0) rfl
  have h₂ := h₁.succeeded .create (x := ⟨0⟩) rfl
  have h₃ := h₂.succeeded (.add ⟨0⟩ "Tag" (tagValue "old")) (x := ()) rfl
  have hp : Dispatch.Scripted (fun _ => relabel) (.ofSystems [relabelSystem]) := by
    intro system hm
    cases List.mem_singleton.mp hm
    rfl
  have h₄ := @Reachable.sent _ _ (fun _ => relabel) .lowest 1 ⟨"Ping", .void, []⟩ _ h₃ hp rfl
  obtain ⟨hbit, _, _, hvalue⟩ := reachable_agrees h₄ ⟨0⟩ ⟨0⟩
  exact ⟨_, h₄, hbit.symm.trans rfl, (hvalue _ rfl trivial).2.2 "Tag" rfl⟩

end Scene
end SceneScript
