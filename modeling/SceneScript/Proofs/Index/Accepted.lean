import SceneScript.Proofs.Index.Growth
import SceneScript.Proofs.Scene.Rebuild

/-! # Systems that a scene can take from an index

A scene needs the components of a system and those of the groups of its event. The declarations of
a script are checked for both, but an index that is given a system looks at the components of the
system alone. So a scene can take every system of a script, and any other one exactly when the
groups of its event name known components.
-/
namespace SceneScript

/-- The components through which listeners reach the entities of the event. -/
def EventDescription.reached (d : EventDescription) : List String :=
  d.groups.flatMap EntityGroup.components

theorem System.needs_eq (s : System) :
    s.needs = s.declaration.components ++ s.declaration.event.reached := rfl

/-! ### Taking a system from an index -/

namespace Scene

theorem registerComponent_unknown {index : Index} {name : String}
    (h : index.component? name = none) (s : Scene) :
    registerComponent index name s = ⟨.error (.unknownComponent name), s, []⟩ := by
  have hindex : index.component name = .error (.unknownComponent name) := by
    simp only [Index.component, h]
  rw [registerComponent, hindex, Action.ofExcept_error_bind]

theorem registerComponents_keep (index : Index) (names : List String) :
    (registerComponents index names).Keeps registry := by
  induction names with
  | nil => exact Action.keeps_pure ()
  | cons name rest ih =>
    refine Action.Keeps.bind ?_ fun _ => ih
    exact (Action.keeps_ofExcept _).bind fun d => Action.Keeps.onPart fun _ _ => rfl

/-- Only an unknown component cannot be made available. -/
theorem registerComponents_result (index : Index) (names : List String) (s : Scene) :
    (registerComponents index names s).result =
      match index.unknownComponent? names with
      | none => .ok ()
      | some name => .error (.unknownComponent name) := by
  induction names generalizing s with
  | nil => rfl
  | cons name rest ih =>
    unfold registerComponents
    cases hd : index.component? name with
    | none =>
      rw [Action.bind_error (registerComponent_unknown hd s)]
      simp only [Index.unknownComponent?, List.find?_cons, hd, Option.isNone_none]
    | some d =>
      obtain ⟨id, s₁, records, h, -⟩ := registerComponent_ok hd s
      rw [Action.bind_ok h, ih s₁]
      simp only [Index.unknownComponent?, List.find?_cons, hd, Option.isNone_some]

theorem registerSystem_result (index : Index) (system : System) {s : Scene}
    (hs : s.registry = {}) :
    (registerSystem index system s).result =
      match index.unknownComponent? system.needs with
      | none => .ok 0
      | some name => .error (.unknownComponent name) := by
  have hcomponents := registerComponents_result index system.needs s
  have hkeep := registerComponents_keep index system.needs s
  rcases hr : registerComponents index system.needs s with ⟨result, s₁, records⟩
  rw [hr] at hcomponents hkeep
  cases hu : index.unknownComponent? system.needs with
  | some name =>
    obtain rfl : result = .error (.unknownComponent name) := by simpa only [hu] using hcomponents
    exact congrArg Outcome.result (Action.bind_error hr)
  | none =>
    obtain rfl : result = .ok () := by simpa only [hu] using hcomponents
    have hempty : s₁.registry = {} := hkeep.trans hs
    have hregister : s₁.registry.register system = .ok (0, .push {} system) := by
      rw [hempty]
      rfl
    rw [registerSystem_ok hr hregister]

/-- What a scene without systems answers when it is given one of the index. -/
theorem registerSystemByName_result {index : Index} {system : System}
    (hi : index.system? system.name = some system) (hk : index.Knows system) {s : Scene}
    (hs : s.registry = {}) :
    (registerSystemByName index system.name s).result =
      match index.unknownComponent? system.declaration.event.reached with
      | none => .ok 0
      | some name => .error (.unknownComponent name) := by
  have hcomponents := Index.unknownComponent?_eq_none.mpr hk.components
  have hneeds : index.unknownComponent? system.needs =
      index.unknownComponent? system.declaration.event.reached := by
    rw [Index.unknownComponent?] at hcomponents ⊢
    rw [System.needs_eq, List.find?_append, hcomponents, Option.none_or]
    rfl
  simp only [registerSystemByName, hi]
  rw [registerSystem_result index system hs, hneeds]

end Scene

/-! ### Systems of scripts -/

namespace Index

/-- The index has the system and all components that a scene needs for it. -/
structure Serves (i : Index) (s : System) : Prop where
  has : s ∈ i.systems
  reached : ∀ name ∈ s.declaration.event.reached, (i.component? name).isSome

theorem Serves.mono {i j : Index} {s : System} (h : i.Serves s) (hj : j.Extends i) :
    j.Serves s :=
  ⟨hj.systems.subset h.has, fun name hn => hj.isSome_component? (h.reached name hn)⟩

theorem mem_registerSystem {s : System} {i : Index} (h : (registerSystem s i).result = .ok ()) :
    s ∈ (registerSystem s i).state.systems := by
  rcases registerSystem_cases s i with ⟨e, hr⟩ | ⟨-, -, j, records, more, -, hr⟩
  · rw [hr] at h
    cases h
  · rw [hr]
    exact List.mem_append_right _ (List.mem_singleton_self s)

end Index

namespace Script
open Index

theorem Node.requireKnown_ok {n : Node} {file : String} {i : Index}
    (h : n.requireKnown file i = .ok ()) : ∀ name ∈ n.segments, (i.component? name).isSome := by
  unfold requireKnown at h
  split at h
  · cases h
  · rename_i hnone
    intro name hn
    obtain ⟨c, hc, rfl⟩ := List.mem_map.mp hn
    simpa [Option.isSome_iff_ne_none] using List.find?_eq_none.mp hnone c hc

/-- The groups that are read for an event have known components. -/
theorem Node.eventWith_reached {file : String} {i : Index} {list : List Node}
    {event d : EventDescription} (he : ∀ name ∈ event.reached, (i.component? name).isSome)
    (h : eventWith file i event list = .ok d) :
    ∀ name ∈ d.reached, (i.component? name).isSome := by
  induction list generalizing event with
  | nil =>
    cases h
    exact he
  | cons parameter rest ih =>
    unfold eventWith at h
    split at h
    · obtain ⟨type, -, h⟩ := Result.bind_eq_ok.mp h
      obtain ⟨basic, -, h⟩ := Result.bind_eq_ok.mp h
      refine ih ?_ h
      exact he
    · obtain ⟨_, hknown, h⟩ := Result.bind_eq_ok.mp h
      refine ih (fun name hn => ?_) h
      rw [EventDescription.reached, List.flatMap_append, List.mem_append] at hn
      rcases hn with hn | hn
      · exact he name hn
      · exact requireKnown_ok hknown name (by simpa using hn)
    · cases h

theorem Node.systemParts_reached {n : Node} {file : String} {i : Index} {d : Declaration}
    {body : Node} (h : n.systemParts file i = .ok (d, body)) :
    ∀ name ∈ d.event.reached, (i.component? name).isSome := by
  obtain ⟨parameter, -, h⟩ := Result.bind_eq_ok.mp h
  obtain ⟨_, -, h⟩ := Result.bind_eq_ok.mp h
  obtain ⟨event, hevent, h⟩ := Result.bind_eq_ok.mp h
  obtain ⟨block, -, h⟩ := Result.bind_eq_ok.mp h
  cases h
  unfold systemEvent at hevent
  split at hevent
  · exact eventWith_reached (by simp [EventDescription.reached]) hevent
  · cases hevent
    simp [EventDescription.reached, EventDescription.tick]

namespace Declaring
variable {config : Config} {file : String}

theorem system_serves {n : Node} {i : Index} {s : System}
    (h : (system config file n i).result = .ok s) : (system config file n i).state.Serves s := by
  unfold system at h ⊢
  simp only [Action.get_bind] at h ⊢
  cases hparts : n.systemParts file i with
  | error e =>
    simp only [hparts, Action.ofExcept_error_bind] at h
    cases h
  | ok parts =>
    simp only [hparts, Action.ofExcept_ok_bind] at h ⊢
    obtain ⟨_, hlog, h, hstate⟩ := Action.bind_result_ok h
    obtain ⟨_, hregister, h, hstate'⟩ := Action.bind_result_ok h
    cases h
    rw [hstate, hstate']
    have hin : systemOf config parts.2 parts.1 ∈
        (registerSystem (systemOf config parts.2 parts.1) i).state.systems :=
      mem_registerSystem (Result.mapError_eq_ok.mp hregister)
    have hgrown := registerSystem_growing (systemOf config parts.2 parts.1) i
    have hserves : ∀ name ∈ parts.1.event.reached, (i.component? name).isSome :=
      Node.systemParts_reached hparts
    exact ⟨hin, fun name hn => hgrown.extends.isSome_component? (hserves name hn)⟩

theorem all_serves {list : List Node} {i : Index} {systems : List System}
    (h : (all config file list i).result = .ok systems) :
    ∀ s ∈ systems, (all config file list i).state.Serves s := by
  induction list generalizing i systems with
  | nil =>
    cases h
    simp
  | cons n rest ih =>
    rw [all] at h ⊢
    cases hk : n.kind with
    | componentDeclaration =>
      simp only [hk] at h ⊢
      obtain ⟨_, -, h, hstate⟩ := Action.bind_result_ok h
      rw [hstate]
      exact ih h
    | systemDeclaration =>
      simp only [hk] at h ⊢
      obtain ⟨first, hfirst, h, hstate⟩ := Action.bind_result_ok h
      obtain ⟨others, hothers, h, hstate'⟩ := Action.bind_result_ok h
      cases h
      rw [hstate, hstate']
      intro s hs
      rcases List.mem_cons.mp hs with rfl | hs
      · exact (system_serves hfirst).mono (all_growing config file rest _).extends
      · exact ih hothers s hs
    | _ =>
      simp only [hk] at h
      cases h

end Declaring

theorem loadSource_serves {config : Config} {file source : String} {i : Index}
    {systems : List System} (h : (loadSource config file source i).result = .ok systems) :
    ∀ s ∈ systems, (loadSource config file source i).state.Serves s := by
  rw [loadSource, allOrNothing_result] at h
  rw [loadSource, allOrNothing_ok h]
  obtain ⟨tree, htree, h, hstate⟩ := Action.bind_result_ok h
  obtain ⟨found, hfound, h, hstate'⟩ := Action.bind_result_ok h
  obtain ⟨_, hlog, h, hstate''⟩ := Action.bind_result_ok h
  cases h
  rw [hstate, hstate', hstate'']
  exact Declaring.all_serves hfound

end Script

namespace Index

theorem WellFormed.system? {i : Index} (hi : i.WellFormed) {s : System} (hs : s ∈ i.systems) :
    i.system? s.name = some s := find?_name_of_mem hi.systemNames hs

/-- What a new scene answers when it is given a system of an index that can be reached: it takes
the system exactly when the groups of its event name known components, which is so for every system
that a script declared. -/
theorem reachable_runnable {i : Index} (hi : Reachable i) :
    (∀ s ∈ i.systems, ∀ title,
      (Scene.registerSystemByName i s.name { name := title }).result =
        match i.unknownComponent? s.declaration.event.reached with
        | none => .ok 0
        | some name => .error (.unknownComponent name)) ∧
    ∀ config file source systems, (Script.loadSource config file source i).result = .ok systems →
      ∀ j, Run (Script.loadSource config file source i).state j → ∀ s ∈ systems,
        s ∈ j.systems ∧
          ∀ title, (Scene.registerSystemByName j s.name { name := title }).result = .ok 0 := by
  have answer : ∀ {j : Index}, Reachable j → ∀ s ∈ j.systems, ∀ title,
      (Scene.registerSystemByName j s.name { name := title }).result =
        match j.unknownComponent? s.declaration.event.reached with
        | none => .ok 0
        | some name => .error (.unknownComponent name) := by
    intro j hj s hs title
    have hformed := hj.wellFormed
    exact Scene.registerSystemByName_result (hformed.system? hs) (hformed.systems s hs) rfl
  refine ⟨answer hi, fun config file source systems hload j hj s hs => ?_⟩
  have hloaded : Reachable (Script.loadSource config file source i).state :=
    hi.run (.perform .nil (.load config file source))
  have hserves := (Script.loadSource_serves hload s hs).mono hj.grown.extends
  refine ⟨hserves.has, fun title => ?_⟩
  rw [answer (hloaded.run hj) s hserves.has title,
    unknownComponent?_eq_none.mpr hserves.reached]

/-- A system that greets whatever another entity with mana brings along. -/
def greet : System :=
  ⟨⟨"greet", "host", ["Tag"], { name := "Meet", groups := [⟨"other", ["Mana"]⟩] }⟩,
    .perEntity fun _ _ _ => return []⟩

def welcoming : Index := (registerSystem greet initial).state

theorem welcoming_refused :
    Reachable welcoming ∧ welcoming.systems.map System.name = ["greet"] ∧
      (Scene.registerSystemByName welcoming "greet" { name := "" }).result =
        .error (.unknownComponent "Mana") := by
  have hreach : Reachable welcoming := Reachable.new.run (.perform .nil (.system greet))
  have hgreet : greet ∈ welcoming.systems := List.mem_singleton_self greet
  exact ⟨hreach, rfl, (reachable_runnable hreach).1 greet hgreet ""⟩

/-- An index can have a system that no scene takes. -/
theorem welcoming_unrunnable :
    ¬ ∀ i, Reachable i → ∀ s ∈ i.systems, ∀ title, ∃ position,
      (Scene.registerSystemByName i s.name { name := title }).result = .ok position := by
  intro hall
  have hreach : Reachable welcoming := Reachable.new.run (.perform .nil (.system greet))
  obtain ⟨position, h⟩ := hall welcoming hreach greet (List.mem_singleton_self greet) ""
  have hrefused : (Scene.registerSystemByName welcoming greet.name { name := "" }).result =
      .error (.unknownComponent "Mana") := rfl
  cases hrefused.symm.trans h

end Index
end SceneScript
