import SceneScript.Proofs.Action
import SceneScript.Proofs.Component.Store
import SceneScript.Proofs.Entity.Roster
import SceneScript.Scene.Basic

/-! # Consistent scenes

A scene keeps three views of its components: who is alive, the signature of every entity, and the
arrays. It is consistent with a history of changes when nobody but the live entities has anything in
its signature, signatures and arrays name the same components, and the arrays hold what the history
says. Every operation keeps this up, whether it
succeeds or fails.
-/
namespace SceneScript.Scene

structure Consistent (s : Scene) (h : List Change) : Prop where
  sound : s.store.Sound h
  tidy : s.roster.Tidy
  agrees : ∀ e id, s.store.has e id = s.roster.hasComponent e id

/-- The action keeps a scene consistent with a history to which nothing is added. -/
def Preserves {α : Type} (a : SceneAction α) : Prop :=
  ∀ s h, s.Consistent h → (a s).state.Consistent h

/-- The action adds the changes to the history if it succeeds, and nothing if it fails. -/
def Records {α : Type} (a : SceneAction α) (changes : Scene → List Change) : Prop :=
  ∀ s h, s.Consistent h →
    match (a s).result with
    | .ok _ => (a s).state.Consistent (h ++ changes s)
    | .error _ => (a s).state.Consistent h

theorem consistent_new (name : String) : Consistent { name := name } [] :=
  ⟨Store.Sound.empty, Roster.tidy_empty, fun _ _ => rfl⟩

section
variable {α β : Type}

theorem Preserves.records {a : SceneAction α} (ha : Preserves a) : Records a fun _ => [] := by
  intro s h hs
  have := ha s h hs
  cases (a s).result <;> simpa using this

theorem preserves_pure (x : α) : Preserves (pure x) := fun _ _ hs => hs

theorem preserves_fail (e : Error) : Preserves (Action.fail e : SceneAction α) :=
  fun _ _ hs => hs

theorem preserves_ofExcept (x : Except Error α) : Preserves (Action.ofExcept x) :=
  fun _ _ hs => hs

theorem Preserves.bind {a : SceneAction α} {f : α → SceneAction β} (ha : Preserves a)
    (hf : ∀ x, Preserves (f x)) : Preserves (a >>= f) :=
  Action.bind_relates (R := fun s s' : Scene => ∀ h, s.Consistent h → s'.Consistent h)
    (fun h₁ h₂ h hs => h₂ h (h₁ h hs)) ha hf

end

theorem requireAlive_bind {β : Type} (e : Entity) (f : Unit → SceneAction β) (s : Scene) :
    (requireAlive e >>= f) s =
      if s.roster.isAlive e then f () s else ⟨.error (.unknownEntity e), s, []⟩ := by
  by_cases h : s.roster.isAlive e = true
  · rw [if_pos h]
    have hr : requireAlive e s = ⟨.ok (), s, []⟩ := by simp [requireAlive, h]
    simp [Action.bind_ok hr]
  · rw [if_neg h]
    have hr : requireAlive e s = ⟨.error (.unknownEntity e), s, []⟩ := by
      simp [requireAlive, h, Action.fail]
    exact Action.bind_error hr

theorem componentId_bind {β : Type} (name : String) (f : ComponentId → SceneAction β)
    (s : Scene) :
    (componentId name >>= f) s =
      match s.store.id? name with
      | some id => f id s
      | none => ⟨.error (.unknownComponent name), s, []⟩ := by
  cases h : s.store.id? name with
  | some id =>
    have hr : componentId name s = ⟨.ok id, s, []⟩ := by
      simp [componentId, Store.idOf, h, Action.ofExcept]
    simp [Action.bind_ok hr]
  | none =>
    have hr : componentId name s = ⟨.error (.unknownComponent name), s, []⟩ := by
      simp [componentId, Store.idOf, h, Action.ofExcept]
    exact Action.bind_error hr

theorem createEntity_preserves : Preserves createEntity := by
  intro s h hs
  refine ⟨hs.sound, hs.tidy.create, fun e id => ?_⟩
  rw [show (createEntity s).state.roster = s.roster.create.2 from rfl,
    hs.tidy.hasComponent_create]
  exact hs.agrees e id

theorem onStore_register_preserves (d : ComponentDescription) :
    Preserves (onStore (Store.register d)) := by
  intro s h hs
  refine ⟨hs.sound.register d, hs.tidy, fun e id => ?_⟩
  exact (Store.has_register s.store d e id).trans (hs.agrees e id)

theorem registerComponent_preserves (index : Index) (name : String) :
    Preserves (registerComponent index name) :=
  (preserves_ofExcept _).bind fun d => onStore_register_preserves d

theorem registerTyped_state (d : ComponentDescription) (kind : StorageKind) (s : Store) :
    (Store.registerTyped d kind s).state = (Store.register d s).state := by
  unfold Store.registerTyped
  rcases hd : Store.register d s with ⟨result, store, records⟩
  cases result with
  | error e => rw [Action.bind_error hd]
  | ok id =>
    rw [Action.bind_ok hd, Action.get_bind]
    cases store.typed id kind <;> simp

theorem transforms_preserves (index : Index) : Preserves (transforms index) := by
  unfold transforms
  split
  · rename_i d _
    intro s h hs
    have hstate := registerTyped_state d (.synchronized .transform) s.store
    have hregister := onStore_register_preserves d s h hs
    simp only [onStore, Action.onPart] at hregister ⊢
    rwa [hstate]
  · exact preserves_fail _

theorem registerComponents_preserves (index : Index) (names : List String) :
    Preserves (registerComponents index names) := by
  induction names with
  | nil => exact preserves_pure ()
  | cons name rest ih => exact (registerComponent_preserves index name).bind fun _ => ih

theorem registerSystem_preserves (index : Index) (system : System) :
    Preserves (registerSystem index system) := by
  refine (registerComponents_preserves index _).bind fun _ => ?_
  intro s h hs
  simp only [Action.get_bind]
  cases s.registry.register system with
  | error e => simpa using hs
  | ok registered =>
    simp only [Action.ofExcept_ok_bind, Action.set_bind, Action.pure_apply]
    exact ⟨hs.sound, hs.tidy, hs.agrees⟩

theorem registerSystemByName_preserves (index : Index) (name : String) :
    Preserves (registerSystemByName index name) := by
  unfold registerSystemByName
  split
  · exact registerSystem_preserves index _
  · exact preserves_fail _

theorem setBit_apply {s : Scene} {roster : Roster} {e : Entity} {id : ComponentId}
    {present : Bool} (h : s.roster.setBit e id present = .ok roster) :
    setBit e id present s = ⟨.ok (), { s with roster := roster }, []⟩ := by
  simp [setBit, h, Action.set]

/-- Giving a component fails and does nothing, or it fills a place and sets the bit. -/
theorem addComponentWithId_cases (e : Entity) (id : ComponentId) (v : Value) (s : Scene) :
    (∃ err, addComponentWithId e id v s = ⟨.error err, s, []⟩) ∨
      ∃ store roster, s.store.add e id v = .ok store ∧
        s.roster.setBit e id true = .ok roster ∧
        addComponentWithId e id v s =
          ⟨.ok (), { s with store := store, roster := roster }, []⟩ := by
  simp only [addComponentWithId, requireAlive_bind]
  by_cases ha : s.roster.isAlive e = true
  · rw [if_pos ha]
    simp only [Action.get_bind]
    cases hw : s.store.add e id v with
    | error err => exact Or.inl ⟨err, by simp⟩
    | ok store =>
      obtain ⟨roster, hb⟩ := Roster.setBit_of_isAlive ha id true
      refine Or.inr ⟨store, roster, rfl, hb, ?_⟩
      simp only [Action.ofExcept_ok_bind, Action.set_bind]
      exact setBit_apply (s := { s with store := store }) hb
  · rw [if_neg ha]
    exact Or.inl ⟨_, rfl⟩

theorem addComponentWithId_records (e : Entity) (id : ComponentId) (v : Value) :
    Records (addComponentWithId e id v) fun _ => [.wrote e id v] := by
  intro s h hs
  rcases addComponentWithId_cases e id v s with ⟨err, hr⟩ | ⟨store, roster, hw, hb, hr⟩
  · rw [hr]
    exact hs
  · rw [hr]
    refine ⟨hs.sound.add hw, hs.tidy.setBit hb, fun e' id' => ?_⟩
    change store.has e' id' = roster.hasComponent e' id'
    rw [Store.has_add hw, hs.tidy.hasComponent_setBit hb, hs.agrees]

/-- Taking a component away empties its place and its bit; a dead entity has no bits. -/
theorem removeComponentWithId_records (e : Entity) (id : ComponentId) :
    Records (removeComponentWithId e id) fun _ => [.removed e id] := by
  intro s h hs
  simp only [removeComponentWithId, Action.get_bind]
  cases hr : s.store.remove e id with
  | error err => simpa using hs
  | ok removed =>
    obtain ⟨old, store⟩ := removed
    simp only [Action.ofExcept_ok_bind, Action.set_bind]
    by_cases ha : s.roster.isAlive e = true
    · obtain ⟨roster, hb⟩ := Roster.setBit_of_isAlive ha id false
      rw [if_pos ha, Action.bind_ok (setBit_apply (s := { s with store := store }) hb)]
      refine ⟨hs.sound.remove hr, hs.tidy.setBit hb, fun e' id' => ?_⟩
      change store.has e' id' = roster.hasComponent e' id'
      rw [Store.has_remove hr, hs.tidy.hasComponent_setBit hb, hs.agrees]
    · rw [if_neg ha]
      refine ⟨hs.sound.remove hr, hs.tidy, fun e' id' => ?_⟩
      change store.has e' id' = s.roster.hasComponent e' id'
      rw [Store.has_remove hr, hs.agrees]
      split
      · rename_i hp
        rw [hp.1, Roster.hasComponent_eq_false (Bool.eq_false_iff.mpr ha)]
      · rfl

/-- An entity that is destroyed loses all places and all bits. -/
theorem destroyEntity_records (e : Entity) :
    Records (destroyEntity e) fun _ => [.destroyed e] := by
  intro s h hs
  simp only [destroyEntity, requireAlive_bind]
  by_cases ha : s.roster.isAlive e = true
  · obtain ⟨roster, hr⟩ := Roster.release_of_isAlive ha
    rw [if_pos ha]
    simp only [Action.modify_bind, onRoster, Action.onPart, Roster.destroy, hr]
    refine ⟨hs.sound.removeEntity e, hs.tidy.release hr, fun e' id => ?_⟩
    change (s.store.removeEntity e).has e' id = roster.hasComponent e' id
    rw [Store.has_removeEntity, Roster.hasComponent_release hr, hs.agrees]
  · rw [if_neg ha]
    exact hs

def named (name : String) (changes : ComponentId → Scene → List Change) (s : Scene) :
    List Change :=
  match s.store.id? name with
  | some id => changes id s
  | none => []

theorem componentId_records {β : Type} {name : String} {f : ComponentId → SceneAction β}
    {changes : ComponentId → Scene → List Change} (hf : ∀ id, Records (f id) (changes id)) :
    Records (componentId name >>= f) (named name changes) := by
  intro s h hs
  rw [componentId_bind]
  cases hn : s.store.id? name with
  | some id => simpa [named, hn] using hf id s h hs
  | none => exact hs

theorem addComponent_records (e : Entity) (name : String) (v : Value) :
    Records (addComponent e name v) (named name fun id _ => [.wrote e id v]) :=
  componentId_records fun id => addComponentWithId_records e id v

theorem removeComponent_records (e : Entity) (name : String) :
    Records (removeComponent e name) (named name fun id _ => [.removed e id]) :=
  componentId_records fun id => removeComponentWithId_records e id

def defaultWrite (e : Entity) (id : ComponentId) (s : Scene) : List Change :=
  match s.store.get? id with
  | some c => [.wrote e id c.description.default]
  | none => []

theorem addDefaultComponent_records (e : Entity) (name : String) :
    Records (addDefaultComponent e name) (named name (defaultWrite e)) := by
  refine componentId_records fun id s h hs => ?_
  simp only [Action.get_bind]
  cases hc : s.store.get? id with
  | none => simpa [Store.component, hc] using hs
  | some c =>
    simpa [Store.component, hc, defaultWrite] using
      addComponentWithId_records e id c.description.default s h hs

end SceneScript.Scene
