import SceneScript.Proofs.Index.Growth
import SceneScript.Proofs.Scene.Rebuild
import SceneScript.Proofs.Value.Decoded

/-! # Values that fit their components

A component that is described by its name and type alone starts at the default of its type and is
kept in a table, so it takes every value of its type. Defaults and values that are read from a
document are of the right type, so neither is ever refused for its type. Scripts declare no other
components.
-/
namespace SceneScript

/-- The description follows from a name and a type, up to where it was declared. -/
structure ComponentDescription.ByShape (d : ComponentDescription) : Prop where
  default : d.default = d.shape.defaultValue
  kind : d.kind = .map

theorem ComponentDescription.ByShape.exact {d : ComponentDescription} (h : d.ByShape) :
    d.newArray.Exact := by
  rw [newArray, h.kind]
  trivial

/-- A value was refused for its type. -/
def Error.Mismatch : Error → Prop
  | .typeMismatch _ _ => True
  | _ => False

theorem Value.Misfit.not_mismatch {e : Error} (h : Misfit e) : ¬ e.Mismatch := by
  obtain ⟨type, reason, rfl⟩ := h
  exact id

namespace Scene

/-! ### Giving components -/

/-- A live entity takes every value of the type of a component that is described by its type. -/
theorem addComponentWithId_fits {s : Scene} (hm : ∃ name h, Steps { name := name } h s)
    {e : Entity} (ha : s.roster.isAlive e = true) {id : ComponentId} {c : Component}
    (hc : s.store.get? id = some c) (hd : c.description.ByShape) {v : Value}
    (ht : v.type = c.description.shape) : (addComponentWithId e id v s).result = .ok () := by
  obtain ⟨name, h, hs⟩ := hm
  have hsound := hs.sound Store.Sound.empty
  have hexact := Store.exact_of_newArray hsound (hs.regular Store.Regular.empty) hc hd.exact
  have htype : v.type = c.array.shape := ht.trans (hsound.shape id c hc).symm
  obtain ⟨a, hinsert⟩ := ComponentArray.insert_of_exact hexact htype e
  have hadd : s.store.add e id v = .ok (s.store.setArray id a) := by
    simp only [Store.add, Store.component, hc, Result.ok_bind, hinsert, Result.pure_eq]
  exact addComponentWithId_ok ha hadd

/-- A live entity is given the default of every component that is described by its type. -/
theorem addDefaultComponent_fits {s : Scene} (hm : ∃ name h, Steps { name := name } h s)
    {e : Entity} (ha : s.roster.isAlive e = true) {name : String} {id : ComponentId}
    {c : Component} (hid : s.store.id? name = some id) (hc : s.store.get? id = some c)
    (hd : c.description.ByShape) : (addDefaultComponent e name s).result = .ok () := by
  have htype : c.description.default.type = c.description.shape := by
    rw [hd.default, ValueType.type_defaultValue]
  rw [addDefaultComponent, componentId_bind, hid]
  simp only [Action.get_bind, Store.component, hc, Action.ofExcept_ok_bind]
  exact addComponentWithId_fits hm ha hc hd htype

/-! ### Rebuilding -/

/-- What holds of a scene at every point of a rebuild: it is made by steps, and its components have
the descriptions of the index. -/
structure Drafted (index : Index) (s : Scene) : Prop where
  made : ∃ name h, Steps { name := name } h s
  described : ∀ d ∈ s.store.descriptions, index.component? d.name = some d

theorem drafted_new (index : Index) (name : String) : Drafted index { name := name } :=
  ⟨⟨name, [], .nil _⟩, by simp [Store.descriptions]⟩

theorem Drafted.linked {index : Index} {s : Scene} (hs : Drafted index s) : s.store.Linked := by
  obtain ⟨_, _, hsteps⟩ := hs.made
  exact (hsteps.regular .empty).linked

/-- The action goes from one point of a rebuild to another. -/
def Drafts {α : Type} (index : Index) (a : SceneAction α) : Prop :=
  ∀ s, Drafted index s → Drafted index (a s).state

section
variable {α β : Type} {index : Index}

theorem Drafts.bind {a : SceneAction α} {f : α → SceneAction β} (ha : Drafts index a)
    (hf : ∀ x, Drafts index (f x)) : Drafts index (a >>= f) :=
  Action.bind_relates (R := fun s s' : Scene => Drafted index s → Drafted index s')
    (fun h₁ h₂ hs => h₂ (h₁ hs)) ha hf

theorem drafts_pure (x : α) : Drafts index (pure x) := fun _ hs => hs

/-- An action that only looks goes nowhere. -/
theorem drafts_get : Drafts index Action.get := fun _ hs => hs

theorem drafts_ofExcept (x : Except Error α) : Drafts index (Action.ofExcept x) := fun _ hs => hs

theorem Builds.drafts {a : SceneAction α} (ha : Builds a)
    (hd : ∀ s, Drafted index s → ∀ d ∈ (a s).state.store.descriptions,
      index.component? d.name = some d) : Drafts index a := by
  intro s hs
  obtain ⟨name, h, hsteps⟩ := hs.made
  obtain ⟨h', _, hmore⟩ := ha s
  exact ⟨⟨name, _, hsteps.append hmore⟩, hd s hs⟩

end

variable {index : Index}

theorem registerComponent_drafts (name : String) : Drafts index (registerComponent index name) := by
  refine (registerComponent_silent index name).builds.drafts fun s hs => ?_
  cases hd : index.component? name with
  | none =>
    simp only [registerComponent, Index.component, hd, Action.ofExcept_error_bind]
    exact hs.described
  | some d =>
    obtain ⟨id, s₁, records, hr, rfl⟩ := registerComponent_ok hd s
    rw [hr]
    rcases s.store.register_state d with hsame | ⟨-, hmore⟩
    · simp only [hsame]
      exact hs.described
    · simp only [hmore, Store.descriptions_push, List.forall_mem_append]
      refine ⟨hs.described, fun d' hd' => ?_⟩
      cases List.mem_singleton.mp hd'
      exact (name_of_component? hd).symm ▸ hd

theorem addComponentWithId_drafts (e : Entity) (id : ComponentId) (v : Value) :
    Drafts index (addComponentWithId e id v) := by
  refine (addComponentWithId_builds e id v).drafts fun s hs => ?_
  rcases addComponentWithId_cases e id v s with ⟨err, hr⟩ | ⟨store, roster, hw, _, hr⟩
  · rw [hr]
    exact hs.described
  · rw [hr]
    simp only [Store.descriptions_congr (Store.catalog_add hw)]
    exact hs.described

theorem createEntityAt_drafts (e : Entity) : Drafts index (createEntityAt e) := by
  refine (createEntityAt_silent e).builds.drafts fun s hs => ?_
  rcases createEntityAt_cases e s with ⟨err, hr⟩ | ⟨roster, _, hr⟩
  · rw [hr]
    exact hs.described
  · rw [hr]
    exact hs.described

theorem restoreComponent_drafts (e : Entity) (name : String) (json : Json) :
    Drafts index (restoreComponent index e name json) :=
  (registerComponent_drafts name).bind fun _ => drafts_get.bind fun _ =>
    (drafts_ofExcept _).bind fun _ => (drafts_ofExcept _).bind fun _ =>
      addComponentWithId_drafts e _ _

theorem restoreComponents_drafts (e : Entity) (documents : List (String × Json)) :
    Drafts index (restoreComponents index e documents) := by
  induction documents with
  | nil => exact drafts_pure ()
  | cons document rest ih => exact (restoreComponent_drafts e _ _).bind fun _ => ih

/-- Whatever goes wrong, it is not that a value was refused for its type. -/
def Matched {α : Type} (a : SceneAction α) : Prop :=
  a.Meets (fun _ => True) fun err => ¬ err.Mismatch

theorem matched_ofExcept {α : Type} {x : Except Error α}
    (h : Result.Meets x (fun _ => True) fun err => ¬ err.Mismatch) :
    Matched (Action.ofExcept x) := Action.meets_ofExcept h

theorem Matched.bind {α β : Type} {a : SceneAction α} {f : α → SceneAction β} (ha : Matched a)
    (hf : ∀ x, Matched (f x)) : Matched (a >>= f) := Action.Meets.bind ha fun x _ => hf x

theorem registerComponent_matched (name : String) : Matched (registerComponent index name) := by
  intro s
  cases hd : index.component? name with
  | none =>
    simp only [registerComponent, Index.component, hd, Action.ofExcept_error_bind]
    exact id
  | some d =>
    obtain ⟨_, _, _, hr, -⟩ := registerComponent_ok hd s
    rw [hr]
    trivial

/-- A document is refused for its type only under a component that is not described by its type
alone. -/
theorem restoreComponent_mismatch {s : Scene} (hs : Drafted index s) {e : Entity} {name : String}
    {json : Json} {err : Error} (h : (restoreComponent index e name json s).result = .error err)
    (hm : err.Mismatch) : ∃ d, index.component? name = some d ∧ ¬ d.ByShape := by
  have hs₁ := registerComponent_drafts name s hs
  rcases Action.bind_result_error h with hone | ⟨id, hone, h⟩
  · exact absurd hm ((registerComponent_matched name s).of_error hone)
  have hid := id?_registerComponent hone
  revert hs₁ h hid
  generalize (registerComponent index name s).state = s₁
  intro hs₁ h hid
  obtain ⟨c, hc, hname⟩ := hs₁.linked.component_of_id? hid
  have hknown := hs₁.described c.description (List.mem_map_of_mem (List.mem_of_getElem? hc))
  refine ⟨c.description, (show c.description.name = name from hname) ▸ hknown, fun hd => ?_⟩
  simp only [Action.get_bind, Store.component, hc, Action.ofExcept_ok_bind] at h
  have hread := Value.ofJson_meets c.description.shape json
  cases hv : Value.ofJson c.description.shape json with
  | error misfit =>
    rw [hv, Action.ofExcept_error_bind] at h
    cases h
    exact (hread.of_error hv).not_mismatch hm
  | ok v =>
    rw [hv, Action.ofExcept_ok_bind] at h
    by_cases ha : s₁.roster.isAlive e = true
    · rw [addComponentWithId_fits hs₁.made ha hc hd (hread.of_ok hv)] at h
      cases h
    · rw [addComponentWithId, requireAlive_bind, if_neg ha] at h
      cases h
      exact hm

/-- The documents of an entity fail with the error of one of them. -/
theorem restoreComponents_error {s : Scene} (hs : Drafted index s) {e : Entity}
    {documents : List (String × Json)} {err : Error}
    (h : (restoreComponents index e documents s).result = .error err) :
    ∃ document ∈ documents, ∃ s', Drafted index s' ∧
      (restoreComponent index e document.1 document.2 s').result = .error err := by
  induction documents generalizing s with
  | nil => cases h
  | cons document rest ih =>
    rcases Action.bind_result_error h with hone | ⟨_, _, hrest⟩
    · exact ⟨document, List.mem_cons_self .., s, hs, hone⟩
    · obtain ⟨other, ho, hother⟩ := ih (restoreComponent_drafts e _ _ s hs) hrest
      exact ⟨other, List.mem_cons_of_mem _ ho, hother⟩

/-- The entities of a snapshot fail with the error of making one of them or of reading one of their
documents. -/
theorem restoreEntities_error {s : Scene} (hs : Drafted index s)
    {entries : List (Entity × Table String Json)} {err : Error}
    (h : (restoreEntities index entries s).result = .error err) :
    (∃ e s', (createEntityAt e s').result = .error err) ∨
      ∃ entry ∈ entries, ∃ document ∈ entry.2, ∃ s', Drafted index s' ∧
        (restoreComponent index entry.1 document.1 document.2 s').result = .error err := by
  induction entries generalizing s with
  | nil => cases h
  | cons entry rest ih =>
    have hs₁ := createEntityAt_drafts entry.1 s hs
    rcases Action.bind_result_error h with hmake | ⟨_, _, h⟩
    · exact .inl ⟨_, _, hmake⟩
    · rcases Action.bind_result_error h with hone | ⟨_, _, hrest⟩
      · exact .inr ⟨entry, List.mem_cons_self .., restoreComponents_error hs₁ hone⟩
      · refine (ih (restoreComponents_drafts entry.1 entry.2 _ hs₁) hrest).imp_right ?_
        rintro ⟨other, ho, hother⟩
        exact ⟨other, List.mem_cons_of_mem _ ho, hother⟩

theorem createEntityAt_matched (e : Entity) : Matched (createEntityAt e) := by
  refine Matched.bind Action.meets_get fun s => (matched_ofExcept ?_).bind fun _ => ?_
  · unfold Roster.createAt
    split
    · exact id
    · split
      · exact id
      · split <;> trivial
  · exact Action.meets_set _

theorem registerComponents_matched (names : List String) :
    Matched (registerComponents index names) := by
  induction names with
  | nil => exact Action.meets_pure trivial
  | cons name rest ih => exact (registerComponent_matched name).bind fun _ => ih

theorem registerSystem_matched (system : System) : Matched (registerSystem index system) := by
  refine (registerComponents_matched _).bind fun _ => ?_
  refine Matched.bind Action.meets_get fun s => (matched_ofExcept ?_).bind fun _ => ?_
  · unfold Registry.register
    split
    · exact id
    · trivial
  · exact Matched.bind (Action.meets_set _) fun _ => Action.meets_pure trivial

theorem restoreSystems_matched (names : List String) : Matched (restoreSystems index names) := by
  induction names with
  | nil => exact Action.meets_pure trivial
  | cons name rest ih =>
    refine Matched.bind ?_ fun _ => ih
    unfold registerSystemByName
    split
    · exact registerSystem_matched _
    · exact Action.meets_fail id

/-- Where a snapshot is refused for a type, one of its documents was, under a component that is not
described by its type alone. -/
theorem restore_mismatch {snapshot : Snapshot} {err : Error}
    (h : (restore index snapshot).result = .error err) (hm : err.Mismatch) :
    ∃ entry ∈ snapshot.components, ∃ document ∈ entry.2, ∃ s d,
      (restoreComponent index entry.1 document.1 document.2 s).result = .error err ∧
        index.component? document.1 = some d ∧ ¬ d.ByShape := by
  rcases Action.bind_result_error h with hentities | ⟨_, _, hrest⟩
  · rcases restoreEntities_error (drafted_new index snapshot.name) hentities with
      ⟨e, s, he⟩ | ⟨entry, he, document, hd, s, hs, hone⟩
    · exact absurd hm ((createEntityAt_matched e s).of_error he)
    · obtain ⟨d, hknown, hshape⟩ := restoreComponent_mismatch hs hone hm
      exact ⟨entry, he, document, hd, s, d, hone, hknown, hshape⟩
  · have hmatched : Matched (restoreSystems index snapshot.systems >>= fun _ =>
        Action.modify (fun s => snapshot.scripts.foldl addScript s) >>= fun _ =>
          Action.get >>= fun s => Action.log .info ("Restored scene " ++ Error.quoted s.name ++
            " with " ++ toString s.roster.count ++ " entities")) :=
      (restoreSystems_matched _).bind fun _ => Matched.bind (Action.meets_modify _) fun _ =>
        Matched.bind Action.meets_get fun _ => Action.meets_log _ _
    exact absurd hm ((hmatched _).of_error hrest)

end Scene

/-! ### Loading -/

namespace Index

theorem mem_of_component? {i : Index} {name : String} {d : ComponentDescription}
    (h : i.component? name = some d) : d ∈ i.components := List.mem_of_find?_eq_some h

/-- All components that are new are described by their types. -/
def Shaped (i j : Index) : Prop := ∀ d ∈ j.components, d ∈ i.components ∨ d.ByShape

/-- The action declares no other components. -/
def Shaping {ε α : Type} (a : Action ε Index α) : Prop := ∀ i, Shaped i (a i).state

section Shaping
variable {ε δ α β : Type}

theorem shaping_of_keeps {a : Action ε Index α} (h : a.Keeps components) : Shaping a := by
  intro i d hd
  rw [h i] at hd
  exact .inl hd

theorem Shaping.bind {a : Action ε Index α} {f : α → Action ε Index β} (ha : Shaping a)
    (hf : ∀ x, Shaping (f x)) : Shaping (a >>= f) :=
  Action.bind_relates (R := Shaped)
    (fun h₁ h₂ d hd => (h₂ d hd).elim (h₁ d) .inr) ha hf

theorem Shaping.mapError {a : Action ε Index α} (ha : Shaping a) (f : ε → δ) :
    Shaping (a.mapError f) := ha

end Shaping

theorem registerComponent_shaping {d : ComponentDescription} (hd : d.ByShape) :
    Shaping (registerComponent d) := by
  intro i
  rcases registerComponent_cases d i with ⟨known, -, h⟩ | ⟨-, records, h⟩
  · rw [h]
    exact fun _ => .inl
  · rw [h]
    intro d' hd'
    rcases List.mem_append.mp hd' with hd' | hd'
    · exact .inl hd'
    · cases List.mem_singleton.mp hd'
      exact .inr hd

theorem registerSystem_keeps (s : System) : Action.Keeps (registerSystem s) components := by
  intro i
  rcases registerSystem_cases s i with ⟨e, h⟩ | ⟨-, -, j, records, more, hevent, h⟩
  · rw [h]
  · rw [h]
    exact (event?_registerEvent hevent).2.1

end Index

namespace Script
open Index

theorem Node.component_byShape {file : String} {n : Node} {d : ComponentDescription}
    (h : n.component file = .ok d) : d.ByShape := by
  obtain ⟨shape, _, h⟩ := Result.bind_eq_ok.mp h
  cases h
  exact ⟨rfl, rfl⟩

theorem Declaring.component_shaping (file : String) (n : Node) : Shaping (component file n) := by
  intro i
  unfold component
  cases hd : n.component file with
  | error e =>
    rw [Action.ofExcept_error_bind]
    exact fun _ => .inl
  | ok d =>
    rw [Action.ofExcept_ok_bind]
    exact ((registerComponent_shaping (Node.component_byShape hd)).mapError _).bind
      (fun _ => shaping_of_keeps (Action.keeps_pure ())) i

theorem Declaring.all_shaping (config : Config) (file : String) (list : List Node) :
    Shaping (all config file list) := by
  induction list with
  | nil => exact shaping_of_keeps (Action.keeps_pure _)
  | cons n rest ih =>
    unfold all
    split
    · exact (component_shaping file n).bind fun _ => ih
    · refine Shaping.bind (shaping_of_keeps ?_) fun _ =>
        ih.bind fun _ => shaping_of_keeps (Action.keeps_pure _)
      exact Action.keeps_get.bind fun _ => (Action.keeps_ofExcept _).bind fun _ =>
        (Action.keeps_log _ _).bind fun _ =>
          ((registerSystem_keeps _).mapError _).bind fun _ => Action.keeps_pure _
    · exact shaping_of_keeps (Action.keeps_fail _)

/-- Every component that a script declares is described by its type. -/
theorem loadSource_shaping (config : Config) (file source : String) :
    Shaping (loadSource config file source) := by
  have hwork : Shaping (Action.ofExcept (Node.ofSource file source) >>= fun tree =>
      declare config tree >>= fun systems =>
        Action.log .info ("Loaded " ++ Error.quoted file ++ " with " ++
          toString systems.length ++ " systems") >>= fun _ => pure systems) := by
    refine (shaping_of_keeps (Action.keeps_ofExcept _)).bind fun tree => ?_
    refine (Declaring.all_shaping config tree.value tree.children).bind fun systems => ?_
    exact shaping_of_keeps ((Action.keeps_log _ _).bind fun _ => Action.keeps_pure _)
  intro i
  cases hr : (loadSource config file source i).result with
  | ok systems =>
    rw [loadSource, allOrNothing_result] at hr
    rw [loadSource, allOrNothing_ok hr]
    exact hwork i
  | error e =>
    rw [loadSource_atomic config file source i e hr]
    exact fun _ => .inl

end Script

namespace Scene

/-- What is read under a type, and what a type starts with, has the type. So an entity of a scene
that was reached takes the default of every component that is described by its type, and a snapshot
is refused for a type only at a component that is not. A script describes all of its components by
their types. -/
theorem documents_fit :
    (∀ type json v, Value.ofJson type json = .ok v → v.type = type) ∧
      (∀ types json v, Value.ofJson (.record types) json = .ok v →
        ∃ members record, json = .object members ∧ v = .record record ∧
          Table.keys record = Table.keys types ∧
          ∀ name, name ∈ Table.keys members ↔ name ∈ Table.keys types) ∧
      (∀ json v, Value.readTagged json = .ok v → Value.tag? json = some v.tag) ∧
      (∀ type : ValueType, type.defaultValue.type = type) ∧
      (∀ {s₀ s : Scene} {h : List Change}, Initial s₀ → Run s₀ h s →
        ∀ e name id c, s.roster.isAlive e = true → s.store.id? name = some id →
          s.store.get? id = some c → c.description.ByShape →
            (addDefaultComponent e name s).result = .ok ()) ∧
      (∀ index snapshot err, (restore index snapshot).result = .error err → err.Mismatch →
        ∃ entry ∈ snapshot.components, ∃ document ∈ entry.2, ∃ s d,
          (restoreComponent index entry.1 document.1 document.2 s).result = .error err ∧
            index.component? document.1 = some d ∧ ¬ d.ByShape) ∧
      ∀ config file source index,
        ∀ d ∈ (Script.loadSource config file source index).state.components,
          d ∈ index.components ∨ d.ByShape := by
  refine ⟨fun type json v hv => (Value.ofJson_meets type json).of_ok hv,
    fun types json v hv => Value.ofJson_record_ok hv,
    fun json v hv => (Value.readTagged_meets json).of_ok hv, ValueType.type_defaultValue,
    fun hi hr e name id c ha hid hc hd => ?_,
    fun index snapshot err he hm => restore_mismatch he hm,
    fun config file source index => Script.loadSource_shaping config file source index⟩
  exact addDefaultComponent_fits (hr.steps_new hi) ha hid hc hd

/-- Two components, declared by a script. -/
def orchard : String := "component Ripe Boolean\n" ++ "component Fruit\n    Number size\n"

/-- An index with a number that is to be kept as a transform. -/
def oddIndex : Index :=
  { Index.initial with
    components := [⟨"Odd", .number, .number 0, .dense .transform, .builtIn⟩] }

/-- One entity, and a component that it does not have yet. -/
def planted : Scene :=
  (registerComponent Index.initial "Tag" (createEntity { name := "orchard" }).state).state

def oddSnapshot : Snapshot :=
  { name := "odd", components := [(⟨0⟩, [("Odd", .number (.integer 1))])] }

/-- A default that fits, a document that is refused under the odd component, and a component that a
script describes by its type. -/
theorem planted_fits :
    Run { name := "orchard" } [] planted ∧ planted.roster.isAlive ⟨0⟩ = true ∧
      (addDefaultComponent ⟨0⟩ "Tag" planted).result = .ok () ∧
      (∃ err, (restore oddIndex oddSnapshot).result = .error err ∧ err.Mismatch ∧
        ∃ d, oddIndex.component? "Odd" = some d ∧ ¬ d.ByShape) ∧
      ∃ d ∈ (Script.loadSource {} "orchard" orchard Index.initial).state.components,
        d.name = "Fruit" ∧ d.ByShape := by
  have hr : Run { name := "orchard" } [] planted := by
    have h₀ : Run { name := "orchard" } [] _ := .start
    have h₁ := h₀.succeeded .create (x := ⟨0⟩) rfl
    exact h₁.succeeded (.registerComponent Index.initial "Tag") (x := ⟨0⟩) rfl
  obtain ⟨-, -, -, -, hdefault, hrestore, hload⟩ := documents_fit
  have htag := hdefault (.new "orchard") hr ⟨0⟩ "Tag" ⟨0⟩ _ rfl rfl rfl ⟨rfl, rfl⟩
  refine ⟨hr, rfl, htag, ?_, ?_⟩
  · have he : (restore oddIndex oddSnapshot).result =
        .error (.typeMismatch .number .number) := by decide +kernel
    obtain ⟨entry, hentry, document, hdocument, _, d, -, hd⟩ := hrestore _ _ _ he trivial
    cases List.mem_singleton.mp hentry
    cases List.mem_singleton.mp hdocument
    exact ⟨_, he, trivial, d, hd⟩
  · have hfound : ((Script.loadSource {} "orchard" orchard Index.initial).state.component?
        "Fruit").isSome = true := by
      decide +kernel
    obtain ⟨d, hd⟩ := Option.isSome_iff_exists.mp hfound
    have hname := name_of_component? hd
    have hmem := Index.mem_of_component? hd
    refine ⟨d, hmem, hname, (hload {} _ _ _ d hmem).resolve_left fun hinitial => ?_⟩
    have hbuiltIn : d.name ∈ Index.initial.components.map ComponentDescription.name :=
      List.mem_map_of_mem hinitial
    rw [hname] at hbuiltIn
    exact absurd hbuiltIn (by decide)

end Scene
end SceneScript
