import SceneScript.Proofs.Scene.Run

/-! # When rebuilding succeeds

A snapshot can be read with an index when its entities are different and within the limit, its
documents are documents of components of the index, and its systems are in the index with all that
they need. Every such snapshot is rebuilt, and nothing but its entities is alive then.
-/
namespace SceneScript

/-- The index has the component under its name, and its arrays give back what they take. -/
structure Index.Offers (index : Index) (d : ComponentDescription) : Prop where
  known : index.component? d.name = some d
  exact : d.newArray.Exact

namespace Store

/-- Every component is one that the index offers. -/
def DrawnFrom (s : Store) (index : Index) : Prop := ∀ d ∈ s.descriptions, index.Offers d

theorem DrawnFrom.register {s : Store} {index : Index} (hs : s.DrawnFrom index)
    {d : ComponentDescription} (hd : index.Offers d) : (register d s).state.DrawnFrom index := by
  rcases s.register_state d with hr | ⟨-, hr⟩
  · rwa [hr]
  · rw [hr]
    intro d' hd'
    rw [descriptions_push, List.mem_append] at hd'
    rcases hd' with hd' | hd'
    · exact hs d' hd'
    · cases List.mem_singleton.mp hd'
      exact hd

theorem DrawnFrom.component {s : Store} {index : Index} (hs : s.DrawnFrom index)
    {id : ComponentId} {c : Component} (hc : s.get? id = some c) : index.Offers c.description :=
  hs c.description (List.mem_map_of_mem (List.mem_of_getElem? hc))

/-- The array of a component gives back what it takes if a new array of its description does. -/
theorem exact_of_newArray {s : Store} {h : List Change} (hs : s.Sound h) (hr : s.Regular)
    {id : ComponentId} {c : Component} (hc : s.get? id = some c)
    (hx : c.description.newArray.Exact) : c.array.Exact :=
  ComponentArray.exact_congr ((hr.kinds id c hc).trans (ComponentArray.empty_kind ..).symm)
    (hs.shape id c hc) hx

end Store

namespace Scene

/-- What holds of a scene all the time while it is rebuilt. -/
structure Rebuilding (index : Index) (s : Scene) : Prop where
  made : ∃ name h, Steps { name := name } h s
  drawn : s.store.DrawnFrom index
  bound : s.roster.nextId ≤ Roster.limit.toNat

theorem rebuilding_new (index : Index) (name : String) : Rebuilding index { name := name } :=
  ⟨⟨name, [], .nil _⟩, by simp [Store.DrawnFrom, Store.descriptions], Nat.zero_le _⟩

theorem Rebuilding.sound {index : Index} {s : Scene} (hs : Rebuilding index s) :
    ∃ h, s.store.Sound h := by
  obtain ⟨name, h, hsteps⟩ := hs.made
  exact ⟨_, hsteps.sound Store.Sound.empty⟩

theorem Rebuilding.regular {index : Index} {s : Scene} (hs : Rebuilding index s) :
    s.store.Regular := by
  obtain ⟨name, h, hsteps⟩ := hs.made
  exact hsteps.regular Store.Regular.empty

theorem Rebuilding.exact {index : Index} {s : Scene} (hs : Rebuilding index s)
    {id : ComponentId} {c : Component} (hc : s.store.get? id = some c) : c.array.Exact := by
  obtain ⟨h, hsound⟩ := hs.sound
  exact Store.exact_of_newArray hsound hs.regular hc (hs.drawn.component hc).exact

theorem Rebuilding.steps {index : Index} {s s' : Scene} (hs : Rebuilding index s)
    {h : List Change} (hsteps : Steps s h s') (hd : s'.store.DrawnFrom index)
    (hb : s'.roster.nextId ≤ Roster.limit.toNat) : Rebuilding index s' := by
  obtain ⟨name, h₀, h₁⟩ := hs.made
  exact ⟨⟨name, _, h₁.append hsteps⟩, hd, hb⟩

/-- All of a scene but its name and its values. -/
def outline (s : Scene) : (Entity → Bool) × Nat × Registry × List String :=
  (s.roster.isAlive, s.roster.nextId, s.registry, s.scripts)

/-! ### Components -/

theorem registerComponent_ok {index : Index} {name : String} {d : ComponentDescription}
    (hd : index.component? name = some d) (s : Scene) :
    ∃ id s₁ records, registerComponent index name s = ⟨.ok id, s₁, records⟩ ∧
      s₁ = { s with store := (Store.register d s.store).state } := by
  have hindex : index.component name = .ok d := by simp only [Index.component, hd]
  obtain ⟨id, hid⟩ : ∃ id, (Store.register d s.store).result = .ok id := by
    unfold Store.register
    split <;> exact ⟨_, rfl⟩
  refine ⟨id, _, (Store.register d s.store).log, ?_, rfl⟩
  rw [registerComponent, hindex, Action.ofExcept_ok_bind]
  simp only [onStore, Action.onPart, hid]

/-- A document that can be read: it is one of a component of the index, and that component gives
back what it takes. -/
structure ReadsAs (index : Index) (name : String) (json : Json) (d : ComponentDescription)
    (v : Value) : Prop where
  known : index.component? name = some d
  exact : d.newArray.Exact
  read : Value.ofJson d.shape json = .ok v
  type : v.type = d.shape

/-- Making a component of the index available keeps the description of the index. -/
theorem rebuilding_registerComponent {index : Index} {name : String} {d : ComponentDescription}
    (hd : index.component? name = some d) (hx : d.newArray.Exact) {s : Scene}
    (hs : Rebuilding index s) : Rebuilding index (registerComponent index name s).state := by
  have hname := name_of_component? hd
  obtain ⟨id, s₁, records, hr, rfl⟩ := registerComponent_ok hd s
  have hsteps := registerComponent_silent index name s
  rw [hr] at hsteps ⊢
  exact hs.steps hsteps (hs.drawn.register ⟨hname ▸ hd, hx⟩) hs.bound

theorem addComponentWithId_outline (e : Entity) (id : ComponentId) (v : Value) :
    Action.Keeps (addComponentWithId e id v) outline := by
  intro s
  rcases addComponentWithId_cases e id v s with ⟨err, hr⟩ | ⟨store, roster, hw, hb, hr⟩
  · rw [hr]
  · have halive : roster.isAlive = s.roster.isAlive := funext (Roster.isAlive_setBit hb)
    rw [hr]
    simp only [outline, halive, Roster.nextId_setBit hb]

theorem addComponentWithId_ok {s : Scene} {e : Entity} {id : ComponentId} {v : Value}
    {store : Store} (ha : s.roster.isAlive e = true) (hw : s.store.add e id v = .ok store) :
    (addComponentWithId e id v s).result = .ok () := by
  obtain ⟨roster, hb⟩ := Roster.setBit_of_isAlive ha id true
  rw [addComponentWithId, requireAlive_bind, if_pos ha]
  simp only [Action.get_bind, hw, Action.ofExcept_ok_bind, Action.set_bind]
  rw [setBit_apply (s := { s with store := store }) hb]

/-- A component is added by name where the store takes it. -/
theorem addComponent_ok {s : Scene} {e : Entity} {name : String} {id : ComponentId} {v : Value}
    {store : Store} (ha : s.roster.isAlive e = true) (hid : s.store.id? name = some id)
    (hw : s.store.add e id v = .ok store) :
    ∃ roster, s.roster.setBit e id true = .ok roster ∧
      addComponent e name v s = ⟨.ok (), { s with store := store, roster := roster }, []⟩ := by
  have hok := addComponentWithId_ok ha hw
  rcases addComponentWithId_cases e id v s with ⟨err, hr⟩ | ⟨store', roster, hw', hb, hr⟩
  · rw [hr] at hok
    cases hok
  · cases hw.symm.trans hw'
    refine ⟨roster, hb, ?_⟩
    rw [addComponent, componentId_bind, hid]
    exact hr

theorem rebuilding_addComponentWithId {index : Index} {s : Scene} (hs : Rebuilding index s)
    (e : Entity) (id : ComponentId) (v : Value) :
    Rebuilding index (addComponentWithId e id v s).state := by
  obtain ⟨h, _, hsteps⟩ := addComponentWithId_builds e id v s
  have houtline := addComponentWithId_outline e id v s
  have hnext := congrArg (fun o => o.2.1) houtline
  refine hs.steps hsteps ?_ (Nat.le_trans (Nat.le_of_eq hnext) hs.bound)
  rcases addComponentWithId_cases e id v s with ⟨err, hr⟩ | ⟨store, roster, hw, _, hr⟩
  · rw [hr]
    exact hs.drawn
  · rw [hr]
    intro d hd
    exact hs.drawn d (Store.descriptions_congr (Store.catalog_add hw) ▸ hd)

theorem registerComponent_outline (index : Index) (name : String) :
    Action.Keeps (registerComponent index name) outline :=
  (Action.keeps_ofExcept _).bind fun _ => Action.Keeps.onPart fun _ _ => rfl

theorem restoreComponent_outline (index : Index) (e : Entity) (name : String) (json : Json) :
    Action.Keeps (restoreComponent index e name json) outline :=
  (registerComponent_outline index name).bind fun _ => Action.keeps_get.bind fun _ =>
    (Action.keeps_ofExcept _).bind fun _ => (Action.keeps_ofExcept _).bind fun _ =>
      addComponentWithId_outline e _ _

/-- A document that can be read becomes a component of a live entity. -/
theorem restoreComponent_ok {index : Index} {s : Scene} (hs : Rebuilding index s) {e : Entity}
    (ha : s.roster.isAlive e = true) {name : String} {json : Json} {d : ComponentDescription}
    {v : Value} (hd : ReadsAs index name json d v) :
    (restoreComponent index e name json s).result = .ok () ∧
      Rebuilding index (restoreComponent index e name json s).state := by
  have hs₁ := rebuilding_registerComponent hd.known hd.exact hs
  have houtline := registerComponent_outline index name s
  obtain ⟨id, s₁, records, hr, -⟩ := registerComponent_ok hd.known s
  have hid := id?_registerComponent (congrArg Outcome.result hr)
  rw [hr] at hs₁ hid houtline
  obtain ⟨c, hc, hname⟩ := hs₁.regular.linked.component_of_id? hid
  -- the name may have been registered before, but only with this description
  have hdescription : c.description = d := by
    have hfound := (hs₁.drawn.component hc).known
    rw [show c.description.name = name from hname, hd.known] at hfound
    exact (Option.some.inj hfound).symm
  obtain ⟨h, hsound⟩ := hs₁.sound
  have ht : v.type = c.array.shape := by
    rw [hsound.shape id c hc, hdescription]
    exact hd.type
  obtain ⟨a, hinsert⟩ := ComponentArray.insert_of_exact (hs₁.exact hc) ht e
  have hadd : s₁.store.add e id v = .ok (s₁.store.setArray id a) := by
    simp only [Store.add, Store.component, hc, Result.ok_bind, hinsert, Result.pure_eq]
  have ha₁ : s₁.roster.isAlive e = true := (congrFun (congrArg Prod.fst houtline) e).trans ha
  have heq : restoreComponent index e name json s =
      ⟨(addComponentWithId e id v s₁).result, (addComponentWithId e id v s₁).state,
        records ++ (addComponentWithId e id v s₁).log⟩ := by
    refine (Action.bind_ok hr).trans ?_
    simp only [Action.get_bind, Store.component, hc, Action.ofExcept_ok_bind, hdescription,
      hd.read]
  rw [heq]
  exact ⟨addComponentWithId_ok ha₁ hadd, rebuilding_addComponentWithId hs₁ e id v⟩

/-- A document that can be read as whatever value. -/
def Readable (index : Index) (document : String × Json) : Prop :=
  ∃ d v, ReadsAs index document.1 document.2 d v

theorem restoreComponents_outline (index : Index) (e : Entity)
    (documents : List (String × Json)) :
    Action.Keeps (restoreComponents index e documents) outline := by
  induction documents with
  | nil => exact Action.keeps_pure ()
  | cons document rest ih => exact (restoreComponent_outline index e _ _).bind fun _ => ih

theorem restoreComponents_ok {index : Index} {s : Scene} (hs : Rebuilding index s) {e : Entity}
    (ha : s.roster.isAlive e = true) {documents : List (String × Json)}
    (hd : ∀ document ∈ documents, Readable index document) :
    (restoreComponents index e documents s).result = .ok () ∧
      Rebuilding index (restoreComponents index e documents s).state := by
  induction documents generalizing s with
  | nil => exact ⟨rfl, hs⟩
  | cons document rest ih =>
    obtain ⟨d, v, hreads⟩ := hd document (List.mem_cons_self ..)
    obtain ⟨hone, hs₁⟩ := restoreComponent_ok hs ha hreads
    have houtline := restoreComponent_outline index e document.1 document.2 s
    have ha₁ := (congrFun (congrArg Prod.fst houtline) e).trans ha
    obtain ⟨hrest, hs₂⟩ := ih hs₁ ha₁ fun other ho => hd other (List.mem_cons_of_mem _ ho)
    obtain ⟨hresult, hstate⟩ := Action.bind_of_result (f := fun _ => restoreComponents index e rest)
      hone
    rw [restoreComponents, hresult, hstate]
    exact ⟨hrest, hs₂⟩

/-- A component that was read is there under its name. -/
theorem known_of_restoreComponent {index : Index} {e : Entity} {name : String} {json : Json}
    {s : Scene} (h : (restoreComponent index e name json s).result = .ok ()) :
    ((restoreComponent index e name json s).state.store.id? name).isSome := by
  obtain ⟨id, hid, _, hstate⟩ := Action.bind_result_ok h
  rw [restoreComponent, hstate]
  refine ((grows_get.bind fun _ => (grows_ofExcept _).bind fun _ =>
    (grows_ofExcept _).bind fun _ => addComponentWithId_grows e id _) _).isSome_id? ?_
  rw [id?_registerComponent hid]
  rfl

theorem known_of_restoreComponents {index : Index} {e : Entity}
    {documents : List (String × Json)} {s : Scene}
    (h : (restoreComponents index e documents s).result = .ok ()) {document : String × Json}
    (hm : document ∈ documents) :
    ((restoreComponents index e documents s).state.store.id? document.1).isSome := by
  induction documents generalizing s with
  | nil => cases hm
  | cons first rest ih =>
    obtain ⟨_, hone, hrest, hstate⟩ := Action.bind_result_ok h
    rw [restoreComponents, hstate]
    rcases List.mem_cons.mp hm with rfl | hm
    · exact (restoreComponents_grows index e rest _).isSome_id? (known_of_restoreComponent hone)
    · exact ih hrest hm

theorem known_of_restoreEntities {index : Index} {entries : List (Entity × Table String Json)}
    {s : Scene} (h : (restoreEntities index entries s).result = .ok ())
    {entry : Entity × Table String Json} (he : entry ∈ entries) {document : String × Json}
    (hm : document ∈ entry.2) :
    ((restoreEntities index entries s).state.store.id? document.1).isSome := by
  induction entries generalizing s with
  | nil => cases he
  | cons first rest ih =>
    obtain ⟨_, _, hone, hstate⟩ := Action.bind_result_ok h
    obtain ⟨_, hcomponents, hrest, hstate'⟩ := Action.bind_result_ok hone
    rw [restoreEntities, hstate, hstate']
    rcases List.mem_cons.mp he with rfl | he
    · exact (restoreEntities_grows index rest _).isSome_id?
        (known_of_restoreComponents hcomponents hm)
    · exact ih hrest he

/-- A scene that was rebuilt has every component that its snapshot names. -/
theorem known_of_restore {index : Index} {snapshot : Snapshot}
    (h : (restore index snapshot).result = .ok ()) {entry : Entity × Table String Json}
    (he : entry ∈ snapshot.components) {document : String × Json} (hm : document ∈ entry.2) :
    ((restore index snapshot).state.store.id? document.1).isSome := by
  obtain ⟨_, hentities, hrest, hstate⟩ := Action.bind_result_ok h
  obtain ⟨_, _, _, hstate'⟩ := Action.bind_result_ok hrest
  rw [restore, fill, hstate, hstate']
  simp only [Action.modify_bind, Action.get_bind, Action.log, (addScripts_store ..).1]
  exact (restoreSystems_grows index snapshot.systems _).isSome_id?
    (known_of_restoreEntities hentities he hm)

/-! ### Entities -/

/-- What making some entities does to a scene that is rebuilt. -/
structure Populated (index : Index) (s s' : Scene) (entities : List Entity) : Prop where
  rebuilding : Rebuilding index s'
  alive : ∀ e, s'.roster.isAlive e = true ↔ e ∈ entities ∨ s.roster.isAlive e = true
  registry : s'.registry = s.registry
  scripts : s'.scripts = s.scripts

theorem Populated.append {index : Index} {s s₁ s₂ : Scene} {es es' : List Entity}
    (h₁ : Populated index s s₁ es) (h₂ : Populated index s₁ s₂ es') :
    Populated index s s₂ (es ++ es') := by
  refine ⟨h₂.rebuilding, fun e => ?_, h₂.registry.trans h₁.registry, h₂.scripts.trans h₁.scripts⟩
  rw [h₂.alive, h₁.alive, List.mem_append, or_left_comm, or_assoc]

/-- An entity within the limit that is not alive is made with all of its documents. -/
theorem restoreEntity_ok {index : Index} {s : Scene} (hs : Rebuilding index s) {e : Entity}
    (hl : e.id < Roster.limit) (hdead : s.roster.isAlive e = false)
    {documents : List (String × Json)} (hd : ∀ document ∈ documents, Readable index document) :
    (createEntityAt e s).result = .ok () ∧
      (restoreComponents index e documents (createEntityAt e s).state).result = .ok () ∧
      Populated index s (restoreComponents index e documents (createEntityAt e s).state).state
        [e] := by
  obtain ⟨roster, hroster⟩ := Roster.createAt_of_dead hl hdead
  have halive := Roster.isAlive_createAt hroster
  have hcreate : createEntityAt e s = ⟨.ok (), { s with roster := roster }, []⟩ := by
    simp only [createEntityAt, Action.get_bind, hroster, Action.ofExcept_ok_bind, Action.set]
  have hs₁ : Rebuilding index { s with roster := roster } :=
    hs.steps (Step.placed hroster).steps hs.drawn (Roster.nextId_createAt_le hroster hs.bound)
  obtain ⟨hcomponents, hs₂⟩ := restoreComponents_ok hs₁ ((halive e).mpr (.inl rfl)) hd
  have houtline := restoreComponents_outline index e documents { s with roster := roster }
  rw [hcreate]
  refine ⟨rfl, hcomponents, hs₂, fun e' => ?_, congrArg (fun o => o.2.2.1) houtline,
    congrArg (fun o => o.2.2.2) houtline⟩
  have hsame : Roster.isAlive _ e' = roster.isAlive e' := congrFun (congrArg Prod.fst houtline) e'
  rw [hsame, halive, List.mem_singleton]

/-- Different entities within the limit that are not alive are made with all of their documents. -/
theorem restoreEntities_ok {index : Index} {s : Scene} (hs : Rebuilding index s)
    {entries : List (Entity × Table String Json)} (hn : (entries.map Prod.fst).Nodup)
    (hl : ∀ entry ∈ entries, entry.1.id < Roster.limit)
    (hdead : ∀ entry ∈ entries, s.roster.isAlive entry.1 = false)
    (hd : ∀ entry ∈ entries, ∀ document ∈ entry.2, Readable index document) :
    (restoreEntities index entries s).result = .ok () ∧
      Populated index s (restoreEntities index entries s).state (entries.map Prod.fst) := by
  induction entries generalizing s with
  | nil => exact ⟨rfl, hs, by simp [restoreEntities], rfl, rfl⟩
  | cons entry rest ih =>
    obtain ⟨e, documents⟩ := entry
    obtain ⟨hnotin, hn⟩ := List.nodup_cons.mp hn
    obtain ⟨hlimit, hl⟩ := List.forall_mem_cons.mp hl
    obtain ⟨hdeadOne, hdead⟩ := List.forall_mem_cons.mp hdead
    obtain ⟨hdocuments, hd⟩ := List.forall_mem_cons.mp hd
    obtain ⟨hcreate, hcomponents, hone⟩ := restoreEntity_ok hs hlimit hdeadOne hdocuments
    have hdead' : ∀ entry ∈ rest, Roster.isAlive (Scene.roster _) entry.1 = false :=
      fun entry he => by
        rw [Bool.eq_false_iff, ne_eq, hone.alive, List.mem_singleton, not_or]
        refine ⟨?_, Bool.eq_false_iff.mp (hdead entry he)⟩
        rintro rfl
        exact hnotin (List.mem_map.mpr ⟨entry, he, rfl⟩)
    obtain ⟨hrest, hpopulated⟩ := ih hone.rebuilding hn hl hdead' hd
    obtain ⟨hresult, hstate⟩ := Action.bind_of_result hcreate
    obtain ⟨hresult', hstate'⟩ := Action.bind_of_result hcomponents
    rw [restoreEntities, hresult, hstate, hresult', hstate']
    exact ⟨hrest, hone.append hpopulated⟩

/-! ### Systems and scripts -/

/-- All of a scene but its name and its components. -/
def frame (s : Scene) : Roster × Registry × List String := (s.roster, s.registry, s.scripts)

theorem registerComponents_ok {index : Index} {names : List String}
    (hn : ∀ name ∈ names, ∃ d, index.component? name = some d ∧ d.newArray.Exact) {s : Scene}
    (hs : Rebuilding index s) :
    ∃ s₁ records, registerComponents index names s = ⟨.ok (), s₁, records⟩ ∧
      Rebuilding index s₁ ∧ s₁.frame = s.frame := by
  induction names generalizing s with
  | nil => exact ⟨s, [], rfl, hs, rfl⟩
  | cons name rest ih =>
    obtain ⟨hname, hn⟩ := List.forall_mem_cons.mp hn
    obtain ⟨d, hd, hx⟩ := hname
    have hs₁ := rebuilding_registerComponent hd hx hs
    obtain ⟨id, s₁, records, hr, hstate⟩ := registerComponent_ok hd s
    rw [hr] at hs₁
    obtain ⟨s₂, more, hrest, hs₂, hframe⟩ := ih hn hs₁
    refine ⟨s₂, records ++ more, ?_, hs₂, hframe.trans (by rw [hstate]; rfl)⟩
    rw [registerComponents, Action.bind_ok hr, hrest]

/-- The name of a system of the index that finds all the components it needs there. -/
def Runnable (index : Index) (name : String) : Prop :=
  ∃ system, index.system? name = some system ∧ ∀ component ∈ system.needs,
    ∃ d, index.component? component = some d ∧ d.newArray.Exact

/-- What registering some systems does to a scene that is rebuilt. -/
structure Equipped (index : Index) (s s' : Scene) (names : List String) : Prop where
  rebuilding : Rebuilding index s'
  roster : s'.roster = s.roster
  scripts : s'.scripts = s.scripts
  systems : s'.registry.systems.map System.name = s.registry.systems.map System.name ++ names

theorem Equipped.append {index : Index} {s s₁ s₂ : Scene} {names names' : List String}
    (h₁ : Equipped index s s₁ names) (h₂ : Equipped index s₁ s₂ names') :
    Equipped index s s₂ (names ++ names') := by
  refine ⟨h₂.rebuilding, h₂.roster.trans h₁.roster, h₂.scripts.trans h₁.scripts, ?_⟩
  rw [h₂.systems, h₁.systems, List.append_assoc]

theorem registerSystemByName_ok {index : Index} {name : String} (hr : Runnable index name)
    {s : Scene} (hs : Rebuilding index s) (hnew : name ∉ s.registry.systems.map System.name) :
    ∃ position, (registerSystemByName index name s).result = .ok position ∧
      Equipped index s (registerSystemByName index name s).state [name] := by
  obtain ⟨system, hsystem, hneeds⟩ := hr
  have hname : system.name = name := by simpa using List.find?_some hsystem
  obtain ⟨s₁, records, hcomponents, hs₁, hframe⟩ := registerComponents_ok hneeds hs
  obtain ⟨hroster, hregistry, hscripts⟩ : s₁.roster = s.roster ∧ s₁.registry = s.registry ∧
      s₁.scripts = s.scripts := by
    simpa only [frame, Prod.mk.injEq] using hframe
  obtain ⟨origin, h, hmade⟩ := hs.made
  have hlinked : s₁.registry.Linked := hregistry ▸ (hmade.listed (listed_new origin)).linked
  have hregister : s₁.registry.register system = .ok (_, s₁.registry.push system) :=
    hlinked.register_of_new (by rw [hregistry, hname]; exact hnew)
  have hok : registerSystemByName index name s = registerSystem index system s := by
    simp only [registerSystemByName, hsystem]
  have hsteps := hmade.append (registerSystem_silent index system s)
  rw [registerSystem_ok hcomponents hregister] at hok hsteps
  rw [hok]
  refine ⟨_, rfl, ⟨⟨origin, _, hsteps⟩, hs₁.drawn, hs₁.bound⟩, hroster, hscripts, ?_⟩
  simp only [Registry.push, hregistry, List.map_append, List.map_cons, List.map_nil, hname]

theorem restoreSystems_ok {index : Index} {names : List String}
    (hr : ∀ name ∈ names, Runnable index name) {s : Scene} (hs : Rebuilding index s)
    (hn : (s.registry.systems.map System.name ++ names).Nodup) :
    (restoreSystems index names s).result = .ok () ∧
      Equipped index s (restoreSystems index names s).state names := by
  induction names generalizing s with
  | nil => exact ⟨rfl, hs, rfl, rfl, by simp [restoreSystems]⟩
  | cons name rest ih =>
    obtain ⟨hname, hr⟩ := List.forall_mem_cons.mp hr
    have hnew : name ∉ s.registry.systems.map System.name := fun hm =>
      (List.nodup_append.mp hn).2.2 name hm name (List.mem_cons_self ..) rfl
    obtain ⟨position, hone, hequipped⟩ := registerSystemByName_ok hname hs hnew
    obtain ⟨hrest, hmore⟩ := ih hr hequipped.rebuilding (by
      rw [hequipped.systems, List.append_assoc]
      exact hn)
    obtain ⟨hresult, hstate⟩ := Action.bind_of_result hone
    rw [restoreSystems, hresult, hstate]
    exact ⟨hrest, hequipped.append hmore⟩

theorem addScripts_registry (s : Scene) (paths : List String) :
    (paths.foldl addScript s).registry = s.registry := by
  induction paths generalizing s with
  | nil => rfl
  | cons path rest ih => exact (ih _).trans (addScript_registry s path)

/-- Different scripts that the scene does not have yet are added in order. -/
theorem addScripts_scripts {s : Scene} {paths : List String} (hn : (s.scripts ++ paths).Nodup) :
    (paths.foldl addScript s).scripts = s.scripts ++ paths := by
  induction paths generalizing s with
  | nil => exact (List.append_nil _).symm
  | cons path rest ih =>
    have hnew : s.scripts.contains path = false := by
      rw [Bool.eq_false_iff, ne_eq, List.contains_iff_mem]
      exact fun hm => (List.nodup_append.mp hn).2.2 path hm path (List.mem_cons_self ..) rfl
    have hone : (s.addScript path).scripts = s.scripts ++ [path] := by
      simp only [addScript, hnew, Bool.false_eq_true, if_false]
    rw [List.foldl_cons, ih (by rw [hone, List.append_assoc]; exact hn), hone, List.append_assoc]
    rfl

end Scene

/-- A snapshot that can be read with an index. -/
structure Snapshot.Readable (index : Index) (snapshot : Snapshot) : Prop where
  entities : (snapshot.components.map Prod.fst).Nodup
  limit : ∀ entry ∈ snapshot.components, entry.1.id < Roster.limit
  documents : ∀ entry ∈ snapshot.components, ∀ document ∈ entry.2, Scene.Readable index document
  systems : snapshot.systems.Nodup
  runnable : ∀ name ∈ snapshot.systems, Scene.Runnable index name
  scripts : snapshot.scripts.Nodup

namespace Scene

/-- What a scene has from the snapshot it was rebuilt from, apart from its values. -/
structure Rebuilt (index : Index) (snapshot : Snapshot) (s : Scene) : Prop where
  rebuilding : Rebuilding index s
  name : s.name = snapshot.name
  alive : ∀ e, s.roster.isAlive e = true ↔ e ∈ snapshot.components.map Prod.fst
  systems : s.registry.systems.map System.name = snapshot.systems
  scripts : s.scripts = snapshot.scripts

theorem fill_of_ok {index : Index} {snapshot : Snapshot} {s : Scene}
    (he : (restoreEntities index snapshot.components s).result = .ok ())
    (hs : (restoreSystems index snapshot.systems
      (restoreEntities index snapshot.components s).state).result = .ok ()) :
    (fill index snapshot s).result = .ok () ∧
      (fill index snapshot s).state = snapshot.scripts.foldl addScript
        (restoreSystems index snapshot.systems
          (restoreEntities index snapshot.components s).state).state := by
  unfold fill
  refine ⟨(Action.bind_of_result he).1.trans ((Action.bind_of_result hs).1.trans ?_),
    (Action.bind_of_result he).2.trans ((Action.bind_of_result hs).2.trans ?_)⟩ <;>
    simp only [Action.modify_bind, Action.get_bind, Action.log]

theorem rebuilding_addScripts {index : Index} {s : Scene} (hs : Rebuilding index s)
    (paths : List String) : Rebuilding index (paths.foldl addScript s) := by
  obtain ⟨hstore, hroster⟩ := addScripts_store paths s
  refine hs.steps (addScripts_steps s paths) ?_ ?_
  · rw [hstore]
    exact hs.drawn
  · rw [hroster]
    exact hs.bound

/-- A snapshot that can be read is rebuilt. -/
theorem restore_ok {index : Index} {snapshot : Snapshot} (h : snapshot.Readable index) :
    (restore index snapshot).result = .ok () ∧
      Rebuilt index snapshot (restore index snapshot).state := by
  obtain ⟨hentities, hpopulated⟩ := restoreEntities_ok (rebuilding_new index snapshot.name)
    h.entities h.limit (fun _ _ => rfl) h.documents
  obtain ⟨hsystems, hequipped⟩ := restoreSystems_ok h.runnable hpopulated.rebuilding
    (by rw [hpopulated.registry]; simpa using h.systems)
  obtain ⟨hresult, hstate⟩ := fill_of_ok hentities hsystems
  obtain ⟨_, _, hmade⟩ := restore_steps index snapshot
  refine ⟨hresult, ?_, hmade.name_eq, fun e => ?_, ?_, ?_⟩ <;> rw [restore, hstate]
  · exact rebuilding_addScripts hequipped.rebuilding _
  · rw [(addScripts_store ..).2, hequipped.roster, hpopulated.alive]
    simp [Roster.isAlive, BitSet.contains]
  · rw [addScripts_registry, hequipped.systems, hpopulated.registry]
    rfl
  · have hnone := hequipped.scripts.trans hpopulated.scripts
    rw [addScripts_scripts (by rw [hnone]; exact h.scripts), hnone]
    rfl

end Scene
end SceneScript
