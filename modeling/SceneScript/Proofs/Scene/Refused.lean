import SceneScript.Proofs.Index.Accepted
import SceneScript.Proofs.Scene.Reachable

/-! # Refused operations

An operation on a scene is refused before it has changed anything, and then the scene is as it was.
To add a system is the exception. The components that it needs are made available one by one, and
they stay when a later name turns out to be unknown or when the system itself is refused.
-/
namespace SceneScript

/-! ### Components that are made available on the way -/

namespace Store

/-- A store with more components, which have no values yet. -/
def extend (s : Store) (more : List ComponentDescription) : Store := more.foldl push s

variable {s : Store}

theorem extend_nil : s.extend [] = s := rfl

theorem extend_cons (d : ComponentDescription) (more : List ComponentDescription) :
    s.extend (d :: more) = (s.push d).extend more := rfl

theorem extend_extend (more others : List ComponentDescription) :
    (s.extend more).extend others = s.extend (more ++ others) :=
  List.foldl_append.symm

theorem descriptions_extend (more : List ComponentDescription) :
    (s.extend more).descriptions = s.descriptions ++ more := by
  induction more generalizing s with
  | nil => exact (List.append_nil _).symm
  | cons d rest ih =>
    rw [extend_cons, ih, descriptions_push, List.append_assoc, List.singleton_append]

theorem extend_eq_self {more : List ComponentDescription} : s.extend more = s ↔ more = [] := by
  constructor
  · intro h
    have hdescriptions := descriptions_extend (s := s) more
    rw [h] at hdescriptions
    exact List.self_eq_append_right.mp hdescriptions
  · rintro rfl
    exact extend_nil

theorem register_eq (d : ComponentDescription) :
    (register d s).state = if (s.id? d.name).isSome then s else s.extend [d] := by
  unfold register
  cases s.id? d.name <;> rfl

theorem isSome_id?_extend (more : List ComponentDescription) (name : String) :
    ((s.extend more).id? name).isSome ↔
      (s.id? name).isSome ∨ name ∈ more.map ComponentDescription.name := by
  induction more generalizing s with
  | nil => simp [extend_nil]
  | cons d rest ih =>
    rw [extend_cons, ih, id?_push, List.map_cons, List.mem_cons]
    by_cases h : name = d.name <;> simp [h]

/-- Other names keep their numbers. -/
theorem id?_extend_of_notMem {more : List ComponentDescription} {name : String}
    (h : name ∉ more.map ComponentDescription.name) : (s.extend more).id? name = s.id? name := by
  induction more generalizing s with
  | nil => rfl
  | cons d rest ih =>
    rw [List.map_cons, List.mem_cons, not_or] at h
    rw [extend_cons, ih h.2, id?_push, if_neg h.1]

theorem isNone_id?_extend (d : ComponentDescription) (name : String) :
    ((s.extend [d]).id? name).isNone = ((s.id? name).isNone && !(name == d.name)) := by
  rw [extend_cons, extend_nil, id?_push]
  by_cases h : name = d.name <;> simp [h]

/-- New components have no values, so every place has the value it had. -/
theorem at?_extend (more : List ComponentDescription) (e : Entity) (id : ComponentId) :
    (s.extend more).at? e id = s.at? e id := by
  induction more generalizing s with
  | nil => rw [extend_nil]
  | cons d rest ih =>
    rw [extend_cons, ih, at?, at?, get?_push]
    split
    · rename_i hid
      rw [Store.get?_eq_none_iff.mpr (Nat.le_of_eq hid.symm)]
      exact ComponentArray.get?_empty ..
    · rfl

end Store

namespace Index

/-- The names in front of the first one that is no component. -/
def foremost (i : Index) (names : List String) : List String :=
  names.takeWhile fun name => (i.component? name).isSome

/-- The components of the foremost names that a store does not have, each once. -/
def missing (i : Index) (s : Store) (names : List String) : List ComponentDescription :=
  ((i.foremost names).filter fun name => (s.id? name).isNone).eraseDups.filterMap i.component?

variable {i : Index} {s : Store} {name : String} {names rest : List String}
  {d : ComponentDescription}

theorem missing_unknown (hd : i.component? name = none) : i.missing s (name :: rest) = [] := by
  simp [missing, foremost, hd]

theorem missing_there (hd : i.component? name = some d) (hs : (s.id? name).isSome) :
    i.missing s (name :: rest) = i.missing s rest := by
  obtain ⟨id, hid⟩ := Option.isSome_iff_exists.mp hs
  simp [missing, foremost, hd, hid]

theorem missing_new (hd : i.component? name = some d) (hs : s.id? name = none) :
    i.missing s (name :: rest) = d :: i.missing (s.extend [d]) rest := by
  simp only [missing, foremost, List.takeWhile_cons, hd, Option.isSome_some, if_true,
    List.filter_cons, hs, Option.isNone_none, List.eraseDups_cons, List.filterMap_cons,
    List.filter_filter, Store.isNone_id?_extend, Scene.name_of_component? hd, Bool.and_comm]

theorem mem_missing {other : String} :
    other ∈ (i.missing s names).map ComponentDescription.name ↔
      other ∈ i.foremost names ∧ s.id? other = none := by
  simp only [missing, List.mem_map, List.mem_filterMap, List.mem_eraseDups, List.mem_filter,
    Option.isNone_iff_eq_none]
  constructor
  · rintro ⟨d, ⟨found, hfound, hd⟩, rfl⟩
    rwa [Scene.name_of_component? hd]
  · rintro ⟨hm, hs⟩
    have hknown : (i.component? other).isSome := List.all_eq_true.mp List.all_takeWhile other hm
    obtain ⟨d, hd⟩ := Option.isSome_iff_exists.mp hknown
    exact ⟨d, ⟨other, ⟨hm, hs⟩, hd⟩, Scene.name_of_component? hd⟩

theorem missing_eq_nil :
    i.missing s names = [] ↔ ∀ name ∈ i.foremost names, (s.id? name).isSome := by
  rw [← List.map_eq_nil_iff (f := ComponentDescription.name), List.eq_nil_iff_forall_not_mem]
  exact forall_congr' fun name => by
    rw [mem_missing, not_and, Option.isSome_iff_ne_none]

end Index

namespace Scene
variable {α β : Type}

theorem registerComponents_state (index : Index) (names : List String) (s : Scene) :
    (registerComponents index names s).state =
      { s with store := s.store.extend (index.missing s.store names) } := by
  induction names generalizing s with
  | nil =>
    change s = _
    rw [show index.missing s.store [] = [] from rfl, Store.extend_nil]
  | cons name rest ih =>
    unfold registerComponents
    cases hd : index.component? name with
    | none =>
      rw [Action.bind_error (registerComponent_unknown hd s), Index.missing_unknown hd,
        Store.extend_nil]
    | some d =>
      obtain ⟨id, s₁, records, hr, rfl⟩ := registerComponent_ok hd s
      rw [Action.bind_ok hr, ih, Store.register_eq, name_of_component? hd]
      cases hs : s.store.id? name with
      | some known =>
        have hthere : (s.store.id? name).isSome := by rw [hs]; rfl
        simp only [Option.isSome_some, if_true, Index.missing_there hd hthere]
      | none =>
        simp only [Option.isSome_none, Bool.false_eq_true, if_false, Store.extend_extend,
          Index.missing_new hd hs, List.singleton_append]

/-! ### Operations that change nothing when they fail -/

/-- When the action fails, the scene is as it was, and nothing is logged. -/
def Atomic (a : SceneAction α) : Prop :=
  ∀ s err, (a s).result = .error err → a s = ⟨.error err, s, []⟩

/-- It is enough to know what the action comes to where it fails. -/
theorem atomic_of_cases {a : SceneAction α}
    (h : ∀ s, (∃ err, a s = ⟨.error err, s, []⟩) ∨ ∃ x, (a s).result = .ok x) : Atomic a := by
  intro s err hs
  obtain ⟨err', h⟩ | ⟨x, h⟩ := h s
  · rw [h] at hs ⊢
    cases hs
    rfl
  · cases h.symm.trans hs

theorem destroyEntity_atomic (e : Entity) : Atomic (destroyEntity e) := by
  refine atomic_of_cases fun s => ?_
  rw [destroyEntity, requireAlive_bind]
  split
  · rename_i ha
    obtain ⟨roster, hr⟩ := Roster.release_of_isAlive ha
    refine Or.inr ⟨(), ?_⟩
    simp only [Action.modify_bind, onRoster, Action.onPart, Roster.destroy, hr]
  · exact Or.inl ⟨_, rfl⟩

theorem registerComponent_atomic (index : Index) (name : String) :
    Atomic (registerComponent index name) := by
  refine atomic_of_cases fun s => ?_
  cases hd : index.component? name with
  | none => exact Or.inl ⟨_, registerComponent_unknown hd s⟩
  | some d =>
    obtain ⟨id, s₁, records, h, -⟩ := registerComponent_ok hd s
    exact Or.inr ⟨id, by rw [h]⟩

theorem addComponentWithId_atomic (e : Entity) (id : ComponentId) (v : Value) :
    Atomic (addComponentWithId e id v) := by
  refine atomic_of_cases fun s => (addComponentWithId_cases e id v s).imp_right ?_
  rintro ⟨store, roster, -, -, h⟩
  exact ⟨(), by rw [h]⟩

theorem removeComponentWithId_atomic (e : Entity) (id : ComponentId) :
    Atomic (removeComponentWithId e id) := by
  refine atomic_of_cases fun s => ?_
  simp only [removeComponentWithId, Action.get_bind]
  cases s.store.remove e id with
  | error err => exact Or.inl ⟨err, Action.ofExcept_error_bind ..⟩
  | ok removed =>
    obtain ⟨old, store⟩ := removed
    simp only [Action.ofExcept_ok_bind, Action.set_bind]
    split
    · rename_i ha
      obtain ⟨roster, hb⟩ := Roster.setBit_of_isAlive ha id false
      refine Or.inr ⟨old, ?_⟩
      rw [Action.bind_ok (setBit_apply (s := { s with store := store }) hb)]
      rfl
    · exact Or.inr ⟨old, rfl⟩

/-- An unknown name is refused before anything is done with its component. -/
theorem atomic_componentId {name : String} {f : ComponentId → SceneAction α}
    (hf : ∀ id, Atomic (f id)) : Atomic (componentId name >>= f) := by
  intro s err
  rw [componentId_bind]
  cases s.store.id? name with
  | none =>
    rintro h
    cases h
    rfl
  | some id => exact hf id s err

theorem addComponent_atomic (e : Entity) (name : String) (v : Value) :
    Atomic (addComponent e name v) :=
  atomic_componentId fun id => addComponentWithId_atomic e id v

theorem removeComponent_atomic (e : Entity) (name : String) : Atomic (removeComponent e name) :=
  atomic_componentId fun id => removeComponentWithId_atomic e id

theorem addDefaultComponent_atomic (e : Entity) (name : String) :
    Atomic (addDefaultComponent e name) := by
  refine atomic_componentId fun id s err => ?_
  simp only [Action.get_bind]
  cases s.store.component id with
  | error err' =>
    rw [Action.ofExcept_error_bind]
    rintro h
    cases h
    rfl
  | ok c =>
    rw [Action.ofExcept_ok_bind]
    exact addComponentWithId_atomic e id _ s err

/-! ### Systems that are refused -/

/-- The scene got the components of the foremost of these names that it did not have, and is
otherwise as it was. -/
structure Enlists (index : Index) (names : List String) (s s' : Scene) : Prop where
  scene : s' = { s with store := s.store.extend (index.missing s.store names) }
  /-- Every value in every place is as it was. -/
  values : ∀ e id, s'.store.at? e id = s.store.at? e id
  /-- A known name leads to the component that it led to. -/
  kept : ∀ name id, s.store.id? name = some id → s'.store.id? name = some id
  known : ∀ name, (s'.store.id? name).isSome ↔
    (s.store.id? name).isSome ∨ name ∈ index.foremost names
  /-- Nothing was missing exactly when nothing has changed. -/
  same : s' = s ↔ ∀ name ∈ index.foremost names, (s.store.id? name).isSome

theorem enlists_of_scene {index : Index} {names : List String} {s s' : Scene}
    (h : s' = { s with store := s.store.extend (index.missing s.store names) }) :
    Enlists index names s s' := by
  subst h
  refine ⟨rfl, Store.at?_extend _, fun name id hid => ?_, fun name => ?_, ?_⟩
  · have hnew : name ∉ (index.missing s.store names).map ComponentDescription.name := by
      rw [Index.mem_missing, hid]
      exact fun h => Option.some_ne_none id h.2
    exact (Store.id?_extend_of_notMem hnew).trans hid
  · rw [Store.isSome_id?_extend, Index.mem_missing, ← Option.not_isSome_iff_eq_none]
    tauto
  · rw [← Index.missing_eq_nil, ← Store.extend_eq_self]
    exact ⟨congrArg Scene.store, fun h => by rw [h]⟩

/-- A system is refused for a component that nobody knows or for its name. -/
theorem registerSystem_enlists {index : Index} {system : System} {s : Scene} {err : Error}
    (h : (registerSystem index system s).result = .error err) :
    Enlists index system.needs s (registerSystem index system s).state ∧
      match index.unknownComponent? system.needs with
      | some name => err = .unknownComponent name
      | none => err = .duplicateSystem system.name ∧
          Table.contains s.registry.names system.name = true ∧
            (s.registry.Linked → system.name ∈ s.registry.systems.map System.name) := by
  have hresult := registerComponents_result index system.needs s
  have hstate := registerComponents_state index system.needs s
  rcases hr : registerComponents index system.needs s with ⟨result, s₁, records⟩
  rw [hr] at hresult hstate
  cases hu : index.unknownComponent? system.needs with
  | some name =>
    obtain rfl : result = .error (.unknownComponent name) := by simpa only [hu] using hresult
    have heq : registerSystem index system s = ⟨.error (.unknownComponent name), s₁, records⟩ :=
      Action.bind_error hr
    rw [heq] at h ⊢
    cases h
    exact ⟨enlists_of_scene hstate, rfl⟩
  | none =>
    obtain rfl : result = .ok () := by simpa only [hu] using hresult
    obtain rfl : s₁ = { s with store := s.store.extend (index.missing s.store system.needs) } :=
      hstate
    cases hreg : s.registry.register system with
    | ok registered =>
      rw [registerSystem_ok hr hreg] at h
      cases h
    | error err' =>
      rw [registerSystem_error hr hreg] at h ⊢
      cases h
      obtain ⟨herr, htaken⟩ := Registry.register_error hreg
      exact ⟨enlists_of_scene rfl, herr, htaken, fun hlinked => hlinked.contains_iff.mp htaken⟩

/-- Operations that fail change nothing and log nothing, except that a system is refused after its
components were made available: those of its names in front of the first unknown one are there
then, all else is as it was, and nothing at all has changed if they were there before. -/
theorem failed_unchanged (index : Index) (s : Scene) :
    (∀ e, Atomic (destroyEntity e)) ∧
      (∀ name, Atomic (registerComponent index name)) ∧
      (∀ e name v, Atomic (addComponent e name v)) ∧
      (∀ e name, Atomic (addDefaultComponent e name)) ∧
      (∀ e name, Atomic (removeComponent e name)) ∧
      (∀ system err, (registerSystem index system s).result = .error err →
        Enlists index system.needs s (registerSystem index system s).state ∧
          match index.unknownComponent? system.needs with
          | some name => err = .unknownComponent name
          | none => err = .duplicateSystem system.name ∧
              Table.contains s.registry.names system.name = true ∧
                (s.registry.Linked → system.name ∈ s.registry.systems.map System.name)) ∧
      ∀ name, match index.system? name with
        | some system => registerSystemByName index name s = registerSystem index system s
        | none => registerSystemByName index name s = ⟨.error (.unknownSystem name), s, []⟩ := by
  refine ⟨destroyEntity_atomic, registerComponent_atomic index, addComponent_atomic,
    addDefaultComponent_atomic, removeComponent_atomic,
    fun system err h => registerSystem_enlists h, fun name => ?_⟩
  cases hs : index.system? name with
  | some system => simp only [registerSystemByName, hs]
  | none =>
    simp only [registerSystemByName, hs]
    rfl

/-- A system that does nothing with the entities that have some components. -/
def greeter (components : List String) : System :=
  ⟨⟨"greet", "e", components, .tick⟩, .perEntity fun _ _ _ => pure []⟩

/-- A scene with a system that needs no component. -/
def greeting : Scene := (registerSystem .initial (greeter []) { name := "hall" }).state

theorem greeting_enlists :
    (registerSystem .initial (greeter ["Tag"]) greeting).result =
        .error (.duplicateSystem "greet") ∧
      (registerSystem .initial (greeter ["Tag"]) greeting).state =
        { greeting with store := greeting.store.extend [.tag] } := by
  have hfailed := (failed_unchanged .initial greeting).2.2.2.2.2.1 (greeter ["Tag"]) _ rfl
  exact ⟨rfl, hfailed.1.scene⟩

/-- A scene that refuses a second system of one name finds a component afterwards that it did not
find before. -/
theorem greeting_changed :
    (∃ h, Reachable greeting h) ∧
      (∃ err, (registerSystem .initial (greeter ["Tag"]) greeting).result = .error err) ∧
        greeting.store.idOf "Tag" = .error (.unknownComponent "Tag") ∧
          (registerSystem .initial (greeter ["Tag"]) greeting).state.store.idOf "Tag" =
            .ok ⟨0⟩ := by
  have hreach :=
    (Reachable.new "hall").succeeded (.registerSystem .initial (greeter [])) (x := 0) rfl
  exact ⟨⟨_, hreach⟩, ⟨_, rfl⟩, rfl, rfl⟩

end Scene
end SceneScript
