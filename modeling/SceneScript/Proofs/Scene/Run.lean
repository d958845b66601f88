import SceneScript.Proofs.Scene.Reachable
import SceneScript.Proofs.Scene.Steps

/-! # Runs of a scene

A run works on a scene with its operations, with the names of scripts, and with writes and removals
that reach the arrays past the scene: through references, through the handle of an array, or out of
a system that handles an event. All of it is made of the steps of a scene.
-/
namespace SceneScript

namespace Store

/-- The second store comes from the first by writes and removals in any places, in the given
order. -/
inductive Edits : Store → List Change → Store → Prop
  | nil (s : Store) : Edits s [] s
  | wrote {s s₁ s₂ : Store} {e : Entity} {id : ComponentId} {v : Value} {h : List Change} :
    s.add e id v = .ok s₁ → Edits s₁ h s₂ → Edits s (.wrote e id v :: h) s₂
  | removed {s s₁ s₂ : Store} {e : Entity} {id : ComponentId} {old : Option Value}
    {h : List Change} :
    s.remove e id = .ok (old, s₁) → Edits s₁ h s₂ → Edits s (.removed e id :: h) s₂

theorem Rewrites.edits {s s' : Store} {h : List Change} (hr : s.Rewrites h s') : s.Edits h s' := by
  induction hr with
  | nil s => exact .nil s
  | cons _ ha _ ih => exact .wrote ha ih

end Store

namespace Scene

/-- What is reached from a scene, with the changes on the way. -/
inductive Run (s₀ : Scene) : List Change → Scene → Prop
  | start : Run s₀ [] s₀
  | succeeded {s : Scene} {h : List Change} {α : Type} {a : SceneAction α}
    {changes : Scene → List Change} {x : α} :
    Run s₀ h s → Operation a changes → (a s).result = .ok x → Run s₀ (h ++ changes s) (a s).state
  | failed {s : Scene} {h : List Change} {α : Type} {a : SceneAction α}
    {changes : Scene → List Change} {err : Error} :
    Run s₀ h s → Operation a changes → (a s).result = .error err → Run s₀ h (a s).state
  | scripted {s : Scene} {h : List Change} (path : String) :
    Run s₀ h s → Run s₀ h (s.addScript path)
  | edited {s : Scene} {h changes : List Change} {store : Store} :
    Run s₀ h s → s.store.Edits changes store → Run s₀ (h ++ changes) { s with store := store }

/-- An event is part of a run when the systems that handle it only edit the arrays. -/
theorem Run.sent {s₀ s : Scene} {h changes : List Change} (hr : Run s₀ h s) {random : Random}
    {limit : Nat} {event : Event} {o : Outcome Error Scene Report}
    (ho : s.send? random limit event = some o) (he : s.store.Edits changes o.state.store) :
    Run s₀ (h ++ changes) o.state := by
  obtain ⟨p, _, rfl⟩ := Option.map_eq_some_iff.mp ho
  exact hr.edited he

/-- Scripts only edit the arrays. -/
theorem Run.sent_scripts {s₀ s : Scene} {h : List Change} (hr : Run s₀ h s)
    {programs : System → Program} (hp : Dispatch.Scripted programs s.registry) {random : Random}
    {limit : Nat} {event : Event} {o : Outcome Error Scene Report}
    (ho : s.send? random limit event = some o) :
    Run s₀ (h ++ (Dispatch.rounds s.registry s.roster limit ⟨s.store, random⟩
      event).flatten.flatMap (Dispatch.Step.writes programs)) o.state := by
  obtain ⟨p, hd, heq⟩ := Option.map_eq_some_iff.mp ho
  have hw := Dispatch.steps_rewrite hp
    (Dispatch.rounds_threaded s.registry s.roster limit ⟨s.store, random⟩ event)
  rw [← Dispatch.dispatch_store hd] at hw
  refine hr.sent ho ?_
  rw [← heq]
  exact hw.edits

/-- A transform that is changed in place is a write. -/
theorem modify_edits {s : Store} {id : ComponentId} {c : Component} (hc : s.get? id = some c)
    (hx : c.array.Exact) {e : Entity} {f : Transform → Transform} {a : ComponentArray}
    (h : c.array.modifyTransform? e f = some a) :
    ∃ t : Transform, s.Edits [.wrote e id t.toValue] (s.setArray id a) := by
  obtain ⟨t, hinsert⟩ : ∃ t : Transform, c.array.insert e t.toValue = .ok a := by
    obtain ⟨description, shape, storage⟩ := c
    cases storage with
    | table entries | dense shared places => cases h
    | transforms shared places =>
      obtain ⟨t, _, rfl⟩ := Option.map_eq_some_iff.mp h
      have htype : (f t).toValue.type = shape := hx.symm
      refine ⟨f t, ?_⟩
      simp only [ComponentArray.insert, htype, if_true, Storage.insert?,
        Transform.ofValue?_toValue, Option.map_some]
  have hadd : s.add e id t.toValue = .ok (s.setArray id a) := by
    simp only [Store.add, Store.component, hc, Result.ok_bind, hinsert, Result.pure_eq]
  exact ⟨t, .wrote hadd (.nil _)⟩

/-! ### Operations are made of steps -/

/-- The action makes steps that change no value, however far it gets. -/
def Silent {α : Type} (a : SceneAction α) : Prop := ∀ s, Steps s [] (a s).state

/-- The action makes steps with the given changes if it succeeds, and steps without a change if it
fails. -/
def Performs {α : Type} (a : SceneAction α) (changes : Scene → List Change) : Prop :=
  ∀ s,
    match (a s).result with
    | .ok _ => Steps s (changes s) (a s).state
    | .error _ => Steps s [] (a s).state

section
variable {α β : Type}

theorem Silent.performs {a : SceneAction α} (ha : Silent a) : Performs a fun _ => [] := by
  intro s
  have hs := ha s
  cases (a s).result <;> exact hs

theorem silent_pure (x : α) : Silent (pure x) := fun s => .nil s

theorem silent_fail (e : Error) : Silent (Action.fail e : SceneAction α) := fun s => .nil s

theorem silent_get : Silent Action.get := fun s => .nil s

theorem silent_ofExcept (x : Except Error α) : Silent (Action.ofExcept x) := fun s => .nil s

theorem Silent.bind {a : SceneAction α} {f : α → SceneAction β} (ha : Silent a)
    (hf : ∀ x, Silent (f x)) : Silent (a >>= f) :=
  Action.bind_relates (R := fun s s' : Scene => Steps s [] s') (fun h₁ h₂ => h₁.append h₂) ha hf

end

theorem createEntity_silent : Silent createEntity := fun s => (Step.created s).steps

theorem registerComponent_silent (index : Index) (name : String) :
    Silent (registerComponent index name) :=
  (silent_ofExcept _).bind fun d s => (Step.declared s d).steps

theorem transforms_silent (index : Index) : Silent (transforms index) := by
  unfold transforms
  split
  · rename_i d _
    intro s
    have hs := (Step.declared s d).steps
    rw [← registerTyped_state d (.synchronized .transform)] at hs
    exact hs
  · exact silent_fail _

theorem registerComponents_silent (index : Index) (names : List String) :
    Silent (registerComponents index names) := by
  induction names with
  | nil => exact silent_pure ()
  | cons name rest ih => exact (registerComponent_silent index name).bind fun _ => ih

/-- Components that were made available are there. -/
theorem known_of_registerComponents {index : Index} {names : List String} {s : Scene}
    (h : (registerComponents index names s).result = .ok ()) {name : String} (hn : name ∈ names) :
    ((registerComponents index names s).state.store.id? name).isSome := by
  induction names generalizing s with
  | nil => cases hn
  | cons first rest ih =>
    obtain ⟨id, hid, hrest, hstate⟩ := Action.bind_result_ok h
    rw [registerComponents, hstate]
    rcases List.mem_cons.mp hn with rfl | hn
    · refine (registerComponents_grows index rest _).isSome_id? ?_
      rw [id?_registerComponent hid]
      rfl
    · exact ih hrest hn

/-- A system is registered when its components are available and its name is new. -/
theorem registerSystem_ok {index : Index} {system : System} {s s₁ : Scene}
    {records : List LogRecord} {position : Nat} {registry : Registry}
    (hr : registerComponents index system.needs s = ⟨.ok (), s₁, records⟩)
    (hreg : s₁.registry.register system = .ok (position, registry)) :
    registerSystem index system s =
      ⟨.ok position, { s₁ with registry := registry }, records⟩ := by
  unfold registerSystem
  refine (Action.bind_ok hr).trans ?_
  simp only [Action.get_bind, hreg, Action.ofExcept_ok_bind, Action.set_bind, Action.pure_apply,
    List.append_nil]

/-- A system that the registry refuses leaves its components behind. -/
theorem registerSystem_error {index : Index} {system : System} {s s₁ : Scene}
    {records : List LogRecord} {err : Error}
    (hr : registerComponents index system.needs s = ⟨.ok (), s₁, records⟩)
    (hreg : s₁.registry.register system = .error err) :
    registerSystem index system s = ⟨.error err, s₁, records⟩ := by
  unfold registerSystem
  refine (Action.bind_ok hr).trans ?_
  simp only [Action.get_bind, hreg, Action.ofExcept_error_bind, List.append_nil]

theorem registerSystem_silent (index : Index) (system : System) :
    Silent (registerSystem index system) := by
  intro s
  have hcomponents := registerComponents_silent index system.needs s
  rcases hr : registerComponents index system.needs s with ⟨result, s₁, records⟩
  rw [hr] at hcomponents
  cases result with
  | error err =>
    have heq : registerSystem index system s = ⟨.error err, s₁, records⟩ := Action.bind_error hr
    rw [heq]
    exact hcomponents
  | ok _ =>
    cases hreg : s₁.registry.register system with
    | error err =>
      rw [registerSystem_error hr hreg]
      exact hcomponents
    | ok registered =>
      have hknown : ∀ name ∈ system.needs, (s₁.store.id? name).isSome := fun name hn => by
        have hsome := known_of_registerComponents (congrArg Outcome.result hr) hn
        rwa [hr] at hsome
      rw [registerSystem_ok hr hreg]
      exact hcomponents.append (Step.registered hknown hreg).steps

theorem registerSystemByName_silent (index : Index) (name : String) :
    Silent (registerSystemByName index name) := by
  unfold registerSystemByName
  split
  · exact registerSystem_silent index _
  · exact silent_fail _

theorem addComponentWithId_performs (e : Entity) (id : ComponentId) (v : Value) :
    Performs (addComponentWithId e id v) fun _ => [.wrote e id v] := by
  intro s
  rcases addComponentWithId_cases e id v s with ⟨err, hr⟩ | ⟨store, roster, hw, hb, hr⟩
  · rw [hr]
    exact .nil s
  · rw [hr]
    exact (Step.wrote hw).steps.append (Step.marked (s := { s with store := store }) hb).steps

theorem removeComponentWithId_performs (e : Entity) (id : ComponentId) :
    Performs (removeComponentWithId e id) fun _ => [.removed e id] := by
  intro s
  simp only [removeComponentWithId, Action.get_bind]
  cases hr : s.store.remove e id with
  | error err => exact .nil s
  | ok removed =>
    obtain ⟨old, store⟩ := removed
    simp only [Action.ofExcept_ok_bind, Action.set_bind]
    have hremoved := (Step.removed hr).steps
    by_cases ha : s.roster.isAlive e = true
    · obtain ⟨roster, hb⟩ := Roster.setBit_of_isAlive ha id false
      rw [if_pos ha, Action.bind_ok (setBit_apply (s := { s with store := store }) hb)]
      exact hremoved.append (Step.marked (s := { s with store := store }) hb).steps
    · rw [if_neg ha]
      exact hremoved

theorem destroyEntity_performs (e : Entity) :
    Performs (destroyEntity e) fun _ => [.destroyed e] := by
  intro s
  simp only [destroyEntity, requireAlive_bind]
  by_cases ha : s.roster.isAlive e = true
  · obtain ⟨roster, hr⟩ := Roster.release_of_isAlive ha
    rw [if_pos ha]
    simp only [Action.modify_bind, onRoster, Action.onPart, Roster.destroy, hr]
    exact (Step.destroyed hr).steps
  · rw [if_neg ha]
    exact .nil s

theorem componentId_performs {β : Type} {name : String} {f : ComponentId → SceneAction β}
    {changes : ComponentId → Scene → List Change} (hf : ∀ id, Performs (f id) (changes id)) :
    Performs (componentId name >>= f) (named name changes) := by
  intro s
  rw [componentId_bind]
  cases hn : s.store.id? name with
  | some id => simpa only [named, hn] using hf id s
  | none => exact .nil s

theorem addDefaultComponent_performs (e : Entity) (name : String) :
    Performs (addDefaultComponent e name) (named name (defaultWrite e)) := by
  refine componentId_performs fun id s => ?_
  rw [Action.get_bind]
  cases hc : s.store.get? id with
  | none =>
    simp only [Store.component, hc]
    exact .nil s
  | some c =>
    simp only [Store.component, hc, Action.ofExcept_ok_bind, defaultWrite]
    exact addComponentWithId_performs e id c.description.default s

/-- An operation makes steps with its changes, or steps without a change when it fails. -/
theorem Operation.performs {α : Type} {a : SceneAction α} {changes : Scene → List Change}
    (h : Operation a changes) : Performs a changes := by
  cases h with
  | create => exact createEntity_silent.performs
  | destroy e => exact destroyEntity_performs e
  | registerComponent index name => exact (registerComponent_silent index name).performs
  | registerSystem index system => exact (registerSystem_silent index system).performs
  | registerSystemByName index name => exact (registerSystemByName_silent index name).performs
  | transforms index => exact (transforms_silent index).performs
  | add e name v => exact componentId_performs fun id => addComponentWithId_performs e id v
  | addWithId e id v => exact addComponentWithId_performs e id v
  | addDefault e name => exact addDefaultComponent_performs e name
  | remove e name => exact componentId_performs fun id => removeComponentWithId_performs e id
  | removeWithId e id => exact removeComponentWithId_performs e id

theorem edits_steps {s₁ s₂ : Store} {h : List Change} (he : s₁.Edits h s₂) (s : Scene) :
    Steps { s with store := s₁ } h { s with store := s₂ } := by
  induction he with
  | nil s₁ => exact .nil _
  | wrote ha _ ih => exact .cons (.wrote ha) ih
  | removed hr _ ih => exact .cons (.removed hr) ih

/-- Every run is made of steps with the same changes. -/
theorem Run.steps {s₀ s : Scene} {h : List Change} (hr : Run s₀ h s) : Steps s₀ h s := by
  induction hr with
  | start => exact .nil s₀
  | @succeeded s _ _ _ _ _ _ ha hok ih =>
    have hs := ha.performs s
    rw [hok] at hs
    exact ih.append hs
  | @failed s h _ _ _ _ _ ha herr ih =>
    have hs := ha.performs s
    rw [herr] at hs
    simpa using ih.append hs
  | @scripted s h path _ ih => simpa using ih.append (Step.scripted s path).steps
  | @edited s _ _ _ _ he ih => exact ih.append (edits_steps he s)

/-! ### Rebuilding is made of steps -/

/-- The action makes steps that destroy nothing, with whatever changes. -/
def Builds {α : Type} (a : SceneAction α) : Prop :=
  ∀ s, ∃ h, (∀ e, Change.destroyed e ∉ h) ∧ Steps s h (a s).state

section
variable {α β : Type}

theorem Silent.builds {a : SceneAction α} (ha : Silent a) : Builds a :=
  fun s => ⟨[], by simp, ha s⟩

theorem Builds.bind {a : SceneAction α} {f : α → SceneAction β} (ha : Builds a)
    (hf : ∀ x, Builds (f x)) : Builds (a >>= f) := by
  refine Action.bind_relates
    (R := fun s s' : Scene => ∃ h, (∀ e, Change.destroyed e ∉ h) ∧ Steps s h s') ?_ ha hf
  rintro _ _ _ ⟨h₁, hd₁, hs₁⟩ ⟨h₂, hd₂, hs₂⟩
  refine ⟨h₁ ++ h₂, fun e hm => ?_, hs₁.append hs₂⟩
  exact (List.mem_append.mp hm).elim (hd₁ e) (hd₂ e)

end

theorem addComponentWithId_builds (e : Entity) (id : ComponentId) (v : Value) :
    Builds (addComponentWithId e id v) := by
  intro s
  have hs := addComponentWithId_performs e id v s
  cases hr : (addComponentWithId e id v s).result with
  | ok _ => exact ⟨[.wrote e id v], by simp, by simpa only [hr] using hs⟩
  | error err => exact ⟨[], by simp, by simpa only [hr] using hs⟩

theorem restoreComponent_builds (index : Index) (e : Entity) (name : String) (json : Json) :
    Builds (restoreComponent index e name json) :=
  (registerComponent_silent index name).builds.bind fun _ => silent_get.builds.bind fun _ =>
    (silent_ofExcept _).builds.bind fun _ => (silent_ofExcept _).builds.bind fun _ =>
      addComponentWithId_builds e _ _

theorem restoreComponents_builds (index : Index) (e : Entity)
    (documents : List (String × Json)) : Builds (restoreComponents index e documents) := by
  induction documents with
  | nil => exact (silent_pure ()).builds
  | cons document rest ih => exact (restoreComponent_builds index e _ _).bind fun _ => ih

theorem createEntityAt_silent (e : Entity) : Silent (createEntityAt e) := by
  intro s
  rcases createEntityAt_cases e s with ⟨err, hr⟩ | ⟨roster, hc, hr⟩
  · rw [hr]
    exact .nil s
  · rw [hr]
    exact (Step.placed hc).steps

theorem restoreEntities_builds (index : Index) (entries : List (Entity × Table String Json)) :
    Builds (restoreEntities index entries) := by
  induction entries with
  | nil => exact (silent_pure ()).builds
  | cons entry rest ih =>
    exact (createEntityAt_silent entry.1).builds.bind fun _ =>
      (restoreComponents_builds index entry.1 entry.2).bind fun _ => ih

theorem restoreSystems_silent (index : Index) (names : List String) :
    Silent (restoreSystems index names) := by
  induction names with
  | nil => exact silent_pure ()
  | cons name rest ih => exact (registerSystemByName_silent index name).bind fun _ => ih

theorem addScripts_steps (s : Scene) (paths : List String) :
    Steps s [] (paths.foldl addScript s) := by
  induction paths generalizing s with
  | nil => exact .nil s
  | cons path rest ih => exact (Step.scripted s path).steps.append (ih _)

/-- A scene that is rebuilt is made from the empty one by steps that destroy nothing. -/
theorem restore_steps (index : Index) (snapshot : Snapshot) :
    ∃ h, (∀ e, Change.destroyed e ∉ h) ∧
      Steps { name := snapshot.name } h (restore index snapshot).state := by
  have hfill : Builds (fill index snapshot) :=
    (restoreEntities_builds index snapshot.components).bind fun _ =>
      (restoreSystems_silent index snapshot.systems).builds.bind fun _ =>
        Builds.bind (fun s => ⟨[], by simp, addScripts_steps s snapshot.scripts⟩) fun _ =>
          silent_get.builds.bind fun _ s => ⟨[], by simp, .nil s⟩
  exact hfill _

/-- Where runs begin: with the empty scene, or with one that was rebuilt from a snapshot. -/
inductive Initial : Scene → Prop
  | new (name : String) : Initial { name := name }
  | restored {index : Index} {snapshot : Snapshot} :
    (restore index snapshot).result = .ok () → Initial (restore index snapshot).state

/-- The scenes that operations and scripts reach are at the end of runs. -/
theorem Reachable.run {s : Scene} {h : List Change} (hr : s.Reachable h) :
    ∃ s₀ h', Initial s₀ ∧ Run s₀ h' s := by
  induction hr with
  | new name => exact ⟨_, [], .new name, .start⟩
  | restored index snapshot hok => exact ⟨_, [], .restored hok, .start⟩
  | succeeded _ ha hok ih =>
    obtain ⟨s₀, h', hi, hrun⟩ := ih
    exact ⟨s₀, _, hi, hrun.succeeded ha hok⟩
  | failed _ ha herr ih =>
    obtain ⟨s₀, h', hi, hrun⟩ := ih
    exact ⟨s₀, _, hi, hrun.failed ha herr⟩
  | sent _ hp ho ih =>
    obtain ⟨s₀, h', hi, hrun⟩ := ih
    exact ⟨s₀, _, hi, hrun.sent_scripts hp ho⟩

/-- Every scene of a run is made from the empty one by steps. -/
theorem Run.steps_new {s₀ s : Scene} {h : List Change} (hr : Run s₀ h s) (hi : Initial s₀) :
    ∃ name h, Steps { name := name } h s := by
  cases hi with
  | new name => exact ⟨name, h, hr.steps⟩
  | restored _ =>
    obtain ⟨h₀, _, hs⟩ := restore_steps _ _
    exact ⟨_, _, hs.append hr.steps⟩

end Scene
end SceneScript
