import SceneScript.Proofs.Component.Names
import SceneScript.Proofs.Scene.Consistent
import SceneScript.Scene.Snapshot

/-! # Rebuilding a scene

A scene that was rebuilt holds what its snapshot says: one write for every document, read under the
description that the scene has for its name. A name keeps its number and description while the
scene is rebuilt, so the writes can be read off the finished scene.
-/
namespace SceneScript

namespace Store

/-- The write that a document of an entity stands for. -/
def documentWrite (s : Store) (e : Entity) (name : String) (json : Json) : List Change :=
  match s.id? name with
  | none => []
  | some id =>
    match ((s.get? id).map Component.description).map fun d => Value.ofJson d.shape json with
    | some (.ok v) => [.wrote e id v]
    | _ => []

def documentWrites (s : Store) (e : Entity) (documents : List (String × Json)) : List Change :=
  documents.flatMap fun document => s.documentWrite e document.1 document.2

theorem Grown.documentWrite_eq {s s' : Store} (h : s.Grown s') {name : String} {id : ComponentId}
    {d : ComponentDescription} (hn : s.id? name = some id)
    (hd : (s.get? id).map Component.description = some d) (e : Entity) (json : Json) :
    s'.documentWrite e name json = s.documentWrite e name json := by
  simp only [documentWrite, hn, h.names name id hn, hd, h.description hd]

end Store

/-- The writes that the documents of a snapshot stand for in a scene with a given store. -/
def Snapshot.writes (snapshot : Snapshot) (s : Store) : List Change :=
  snapshot.components.flatMap fun entry => s.documentWrites entry.1 entry.2

namespace Scene

/-- The action adds components at most. -/
def Grows {α : Type} (a : SceneAction α) : Prop :=
  ∀ s : Scene, s.store.Grown (a s).state.store

section
variable {α β : Type}

theorem grows_pure (x : α) : Grows (pure x) := fun s => .refl s.store

theorem grows_get : Grows Action.get := fun s => .refl s.store

theorem grows_ofExcept (x : Except Error α) : Grows (Action.ofExcept x) :=
  fun s => .refl s.store

theorem Grows.bind {a : SceneAction α} {f : α → SceneAction β} (ha : Grows a)
    (hf : ∀ x, Grows (f x)) : Grows (a >>= f) :=
  Action.bind_relates (R := fun s s' : Scene => s.store.Grown s'.store) Store.Grown.trans ha hf

end

theorem registerComponent_grows (index : Index) (name : String) :
    Grows (registerComponent index name) :=
  (grows_ofExcept _).bind fun d s => s.store.grown_register d

theorem addComponentWithId_grows (e : Entity) (id : ComponentId) (v : Value) :
    Grows (addComponentWithId e id v) := by
  intro s
  rcases addComponentWithId_cases e id v s with ⟨err, hr⟩ | ⟨store, roster, hw, _, hr⟩
  · rw [hr]
    exact .refl s.store
  · rw [hr]
    exact .of_catalog (Store.catalog_add hw)

theorem restoreComponent_grows (index : Index) (e : Entity) (name : String) (json : Json) :
    Grows (restoreComponent index e name json) :=
  (registerComponent_grows index name).bind fun _ => grows_get.bind fun _ =>
    (grows_ofExcept _).bind fun _ => (grows_ofExcept _).bind fun _ =>
      addComponentWithId_grows e _ _

theorem restoreComponents_grows (index : Index) (e : Entity) (documents : List (String × Json)) :
    Grows (restoreComponents index e documents) := by
  induction documents with
  | nil => exact grows_pure ()
  | cons document rest ih => exact (restoreComponent_grows index e _ _).bind fun _ => ih

theorem createEntityAt_cases (e : Entity) (s : Scene) :
    (∃ err, createEntityAt e s = ⟨.error err, s, []⟩) ∨
      ∃ roster, s.roster.createAt e = .ok roster ∧
        createEntityAt e s = ⟨.ok (), { s with roster := roster }, []⟩ := by
  simp only [createEntityAt, Action.get_bind]
  cases h : s.roster.createAt e with
  | error err => exact Or.inl ⟨err, by simp⟩
  | ok roster => exact Or.inr ⟨roster, rfl, by simp [Action.set]⟩

theorem restoreEntities_grows (index : Index)
    (entries : List (Entity × Table String Json)) : Grows (restoreEntities index entries) := by
  induction entries with
  | nil => exact grows_pure ()
  | cons entry rest ih =>
    refine Grows.bind (fun s => ?_) fun _ => (restoreComponents_grows index _ _).bind fun _ => ih
    rcases createEntityAt_cases entry.1 s with ⟨err, hr⟩ | ⟨roster, _, hr⟩
    · rw [hr]
      exact .refl s.store
    · rw [hr]
      exact .refl s.store

theorem registerComponents_grows (index : Index) (names : List String) :
    Grows (registerComponents index names) := by
  induction names with
  | nil => exact grows_pure ()
  | cons name rest ih => exact (registerComponent_grows index name).bind fun _ => ih

theorem registerSystem_grows (index : Index) (system : System) :
    Grows (registerSystem index system) := by
  refine (registerComponents_grows index _).bind fun _ s => ?_
  simp only [Action.get_bind]
  cases s.registry.register system <;> exact .refl s.store

theorem restoreSystems_grows (index : Index) (names : List String) :
    Grows (restoreSystems index names) := by
  induction names with
  | nil => exact grows_pure ()
  | cons name rest ih =>
    refine Grows.bind ?_ fun _ => ih
    unfold registerSystemByName
    split
    · exact registerSystem_grows index _
    · exact fun s => .refl s.store

theorem restoreSystems_preserves (index : Index) (names : List String) :
    Preserves (restoreSystems index names) := by
  induction names with
  | nil => exact preserves_pure ()
  | cons name rest ih => exact (registerSystemByName_preserves index name).bind fun _ => ih

theorem name_of_component? {index : Index} {name : String} {d : ComponentDescription}
    (h : index.component? name = some d) : d.name = name := by
  simpa using List.find?_some h

theorem name_of_component {index : Index} {name : String} {d : ComponentDescription}
    (h : index.component name = .ok d) : d.name = name := by
  cases hd : index.component? name with
  | none => simp [Index.component, hd] at h
  | some found =>
    simp only [Index.component, hd, Except.ok.injEq] at h
    exact h ▸ name_of_component? hd

theorem id?_registerComponent {index : Index} {name : String} {s : Scene} {id : ComponentId}
    (h : (registerComponent index name s).result = .ok id) :
    (registerComponent index name s).state.store.id? name = some id := by
  obtain ⟨d, hd, hreg, hstate⟩ := Action.bind_result_ok h
  rw [registerComponent, hstate, ← name_of_component hd]
  exact Store.id?_register hreg

/-- A document that was read is one write. -/
theorem restoreComponent_records {index : Index} {e : Entity} {name : String} {json : Json}
    {s : Scene} {h : List Change} (hs : s.Consistent h)
    (hr : (restoreComponent index e name json s).result = .ok ()) {store : Store}
    (hg : (restoreComponent index e name json s).state.store.Grown store) :
    (restoreComponent index e name json s).state.Consistent
      (h ++ store.documentWrite e name json) := by
  obtain ⟨id, hid, hr, hstate⟩ := Action.bind_result_ok hr
  rw [restoreComponent, hstate] at hg ⊢
  have hs₁ := registerComponent_preserves index name s h hs
  have hname := id?_registerComponent hid
  revert hs₁ hname hr hg
  generalize (registerComponent index name s).state = s₁
  intro hg hr hs₁ hname
  simp only [Action.get_bind] at hr hg ⊢
  cases hc : s₁.store.get? id with
  | none => simp [Store.component, hc] at hr
  | some c =>
    simp only [Store.component, hc, Action.ofExcept_ok_bind] at hr hg ⊢
    cases hv : Value.ofJson c.description.shape json with
    | error err => simp [hv] at hr
    | ok v =>
      simp only [hv, Action.ofExcept_ok_bind] at hr hg ⊢
      have hw := addComponentWithId_records e id v s₁ h hs₁
      rw [hr] at hw
      have hgrown := (addComponentWithId_grows e id v s₁).trans hg
      rw [hgrown.documentWrite_eq hname (by rw [hc]; rfl)]
      simpa [Store.documentWrite, hname, hc, hv] using hw

theorem restoreComponents_records {index : Index} {e : Entity}
    {documents : List (String × Json)} {s : Scene} {h : List Change} (hs : s.Consistent h)
    (hr : (restoreComponents index e documents s).result = .ok ()) {store : Store}
    (hg : (restoreComponents index e documents s).state.store.Grown store) :
    (restoreComponents index e documents s).state.Consistent
      (h ++ store.documentWrites e documents) := by
  induction documents generalizing s h with
  | nil => simpa [restoreComponents, Store.documentWrites] using hs
  | cons document rest ih =>
    obtain ⟨_, hone, hr, hstate⟩ := Action.bind_result_ok hr
    rw [restoreComponents, hstate] at hg ⊢
    have hs₁ := restoreComponent_records hs hone
      ((restoreComponents_grows index e rest _).trans hg)
    simpa [Store.documentWrites] using ih hs₁ hr hg

/-- The entities that were read hold what their documents say. -/
theorem restoreEntities_records {index : Index} {entries : List (Entity × Table String Json)}
    {s : Scene} {h : List Change} (hs : s.Consistent h)
    (hr : (restoreEntities index entries s).result = .ok ()) {store : Store}
    (hg : (restoreEntities index entries s).state.store.Grown store) :
    (restoreEntities index entries s).state.Consistent
      (h ++ entries.flatMap fun entry => store.documentWrites entry.1 entry.2) := by
  induction entries generalizing s h with
  | nil => simpa [restoreEntities] using hs
  | cons entry rest ih =>
    obtain ⟨e, documents⟩ := entry
    obtain ⟨_, hcreate, hr, hstate⟩ := Action.bind_result_ok hr
    rw [restoreEntities, hstate] at hg ⊢
    rcases createEntityAt_cases e s with ⟨err, hc⟩ | ⟨roster, hroster, hc⟩
    · simp [hc] at hcreate
    · rw [hc] at hr hg ⊢
      have hs₁ : Consistent { s with roster := roster } h :=
        ⟨hs.sound, hs.tidy.createAt hroster, fun e' id => by
          rw [hs.tidy.hasComponent_createAt hroster]
          exact hs.agrees e' id⟩
      obtain ⟨_, hone, hr, hstate⟩ := Action.bind_result_ok hr
      rw [hstate] at hg ⊢
      have hs₂ := restoreComponents_records hs₁ hone
        ((restoreEntities_grows index rest _).trans hg)
      simpa using ih hs₂ hr hg

theorem addScripts_store (paths : List String) (s : Scene) :
    (paths.foldl addScript s).store = s.store ∧ (paths.foldl addScript s).roster = s.roster := by
  induction paths generalizing s with
  | nil => exact ⟨rfl, rfl⟩
  | cons path rest ih =>
    have hp : (s.addScript path).store = s.store ∧ (s.addScript path).roster = s.roster := by
      unfold addScript
      split <;> exact ⟨rfl, rfl⟩
    exact ⟨(ih _).1.trans hp.1, (ih _).2.trans hp.2⟩

/-- A scene that was rebuilt is consistent with the writes that its snapshot stands for. -/
theorem restore_consistent {index : Index} {snapshot : Snapshot}
    (h : (restore index snapshot).result = .ok ()) :
    (restore index snapshot).state.Consistent
      (snapshot.writes (restore index snapshot).state.store) := by
  obtain ⟨_, hentities, hr, hstate⟩ := Action.bind_result_ok h
  obtain ⟨_, hsystems, hr, hstate'⟩ := Action.bind_result_ok hr
  rw [restore, fill, hstate, hstate']
  simp only [Action.modify_bind, Action.get_bind, Action.log]
  obtain ⟨hstore, hroster⟩ := addScripts_store snapshot.scripts
    (restoreSystems index snapshot.systems
      (restoreEntities index snapshot.components { name := snapshot.name }).state).state
  have hs := restoreSystems_preserves index snapshot.systems _ _
    (restoreEntities_records (consistent_new snapshot.name) hentities
      (restoreSystems_grows index snapshot.systems _))
  refine ⟨?_, ?_, ?_⟩
  · rw [hstore]
    simpa [Snapshot.writes] using hs.sound
  · rw [hroster]
    exact hs.tidy
  · intro e id
    rw [hstore, hroster]
    exact hs.agrees e id

end Scene
end SceneScript
