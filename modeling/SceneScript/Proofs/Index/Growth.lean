import Mathlib.Logic.Relation
import SceneScript.Proofs.Script.Loaded

/-! # What happens to a declaration index

Whatever is declared, by itself or by a whole script, an index changes in three ways only: it gets
one more component, event or system, with a new name and behind the others. So everything that it
has stays where it is, and it stays well formed. An operation that fails leaves no trace in it.
-/
namespace SceneScript

theorem find?_name_of_mem {α : Type} {name : α → String} {list : List α}
    (hn : (list.map name).Nodup) {x : α} (hx : x ∈ list) :
    (list.find? fun y => name y == name x) = some x := by
  induction list with
  | nil => cases hx
  | cons y rest ih =>
    obtain ⟨hy, hn⟩ := List.nodup_cons.mp hn
    rcases List.mem_cons.mp hx with rfl | hx
    · exact List.find?_cons_of_pos (beq_self_eq_true _)
    · have hne : name y ≠ name x := fun he => hy (he ▸ List.mem_map_of_mem hx)
      rw [List.find?_cons_of_neg (by simpa using hne)]
      exact ih hn hx

theorem nodup_names_append {α : Type} {name : α → String} {list : List α}
    (hn : (list.map name).Nodup) {x : α} (hx : (list.find? fun y => name y == name x) = none) :
    ((list ++ [x]).map name).Nodup := by
  rw [List.map_append, List.map_singleton, List.nodup_append]
  refine ⟨hn, List.pairwise_singleton _ _, fun a ha b hb => ?_⟩
  obtain ⟨y, hy, rfl⟩ := List.mem_map.mp ha
  obtain rfl := List.mem_singleton.mp hb
  simpa using List.find?_eq_none.mp hx y hy

namespace Index

/-- The ways in which an index changes. -/
inductive Grows : Index → Index → Prop
  | component {i : Index} (d : ComponentDescription) :
    i.component? d.name = none → Grows i { i with components := i.components ++ [d] }
  | event {i : Index} (d : EventDescription) :
    i.event? d.name = none → Grows i { i with events := i.events ++ [d] }
  | system {i : Index} (s : System) :
    i.system? s.name = none → i.unknownComponent? s.declaration.components = none →
      i.event? s.declaration.event.name = some s.declaration.event →
        Grows i { i with systems := i.systems ++ [s] }

def Grown : Index → Index → Prop := Relation.ReflTransGen Grows

/-! ### What stays -/

/-- An index has all that the other one has, in the same places. -/
structure Extends (j i : Index) : Prop where
  components : i.components <+: j.components
  events : i.events <+: j.events
  systems : i.systems <+: j.systems

theorem Extends.refl (i : Index) : i.Extends i :=
  ⟨List.prefix_rfl, List.prefix_rfl, List.prefix_rfl⟩

theorem Extends.trans {i j k : Index} (h : k.Extends j) (h' : j.Extends i) : k.Extends i :=
  ⟨h'.components.trans h.components, h'.events.trans h.events, h'.systems.trans h.systems⟩

theorem Extends.component? {i j : Index} (h : j.Extends i) {name : String}
    {d : ComponentDescription} (hd : i.component? name = some d) : j.component? name = some d :=
  h.components.find?_eq_some hd

theorem Extends.isSome_component? {i j : Index} (h : j.Extends i) {name : String}
    (hn : (i.component? name).isSome) : (j.component? name).isSome := by
  obtain ⟨d, hd⟩ := Option.isSome_iff_exists.mp hn
  exact Option.isSome_iff_exists.mpr ⟨d, h.component? hd⟩

theorem Extends.event? {i j : Index} (h : j.Extends i) {name : String} {d : EventDescription}
    (hd : i.event? name = some d) : j.event? name = some d :=
  h.events.find?_eq_some hd

theorem Grows.extends {i j : Index} (h : Grows i j) : j.Extends i := by
  cases h with
  | component d _ => exact ⟨List.prefix_append .., List.prefix_rfl, List.prefix_rfl⟩
  | event d _ => exact ⟨List.prefix_rfl, List.prefix_append .., List.prefix_rfl⟩
  | system s _ _ _ => exact ⟨List.prefix_rfl, List.prefix_rfl, List.prefix_append ..⟩

theorem Grown.extends {i j : Index} (h : Grown i j) : j.Extends i := by
  induction h with
  | refl => exact Extends.refl i
  | tail _ hstep ih => exact hstep.extends.trans ih

/-! ### What holds of every index -/

/-- A system asks for known components, and its event is the known one of that name. -/
structure Knows (i : Index) (s : System) : Prop where
  components : ∀ name ∈ s.declaration.components, (i.component? name).isSome
  event : i.event? s.declaration.event.name = some s.declaration.event

theorem Knows.mono {i j : Index} {s : System} (h : i.Knows s) (hj : j.Extends i) : j.Knows s :=
  ⟨fun name hn => hj.isSome_component? (h.components name hn), hj.event? h.event⟩

/-- The names of each kind are different, what is built in is there in its built-in form, and all
systems are known. -/
structure WellFormed (i : Index) : Prop where
  componentNames : (i.components.map ComponentDescription.name).Nodup
  eventNames : (i.events.map EventDescription.name).Nodup
  systemNames : (i.systems.map System.name).Nodup
  tag : i.component? "Tag" = some .tag
  transform : i.component? "Transform" = some .transform
  tick : i.event? "Tick" = some .tick
  systems : ∀ s ∈ i.systems, i.Knows s

theorem wellFormed_initial : initial.WellFormed where
  componentNames := by decide
  eventNames := by decide
  systemNames := by decide
  tag := by rfl
  transform := by rfl
  tick := by rfl
  systems := by simp [initial]

theorem unknownComponent?_eq_none {i : Index} {names : List String} :
    i.unknownComponent? names = none ↔ ∀ name ∈ names, (i.component? name).isSome := by
  simp [unknownComponent?, Option.isSome_iff_ne_none]

theorem Grows.wellFormed {i j : Index} (h : Grows i j) (hi : i.WellFormed) : j.WellFormed := by
  have hj := h.extends
  have hknown : ∀ s ∈ i.systems, j.Knows s := fun s hs => (hi.systems s hs).mono hj
  have tag := hj.component? hi.tag
  have transform := hj.component? hi.transform
  have tick := hj.event? hi.tick
  cases h with
  | component d hnew =>
    exact { hi with
      componentNames := nodup_names_append hi.componentNames hnew
      tag, transform, tick
      systems := hknown }
  | event d hnew =>
    exact { hi with
      eventNames := nodup_names_append hi.eventNames hnew
      tag, transform, tick
      systems := hknown }
  | system s hnew hcomponents hevent =>
    refine { hi with
      systemNames := nodup_names_append hi.systemNames hnew
      tag, transform, tick
      systems := fun other ho => ?_ }
    rcases List.mem_append.mp ho with ho | ho
    · exact hknown other ho
    · obtain rfl := List.mem_singleton.mp ho
      exact ⟨unknownComponent?_eq_none.mp hcomponents, hevent⟩

theorem Grown.wellFormed {i j : Index} (h : Grown i j) (hi : i.WellFormed) : j.WellFormed := by
  induction h with
  | refl => exact hi
  | tail _ hstep ih => exact hstep.wellFormed ih

/-! ### Declarations one by one -/

theorem registerComponent_cases (d : ComponentDescription) (i : Index) :
    (∃ known, i.component? d.name = some known ∧ registerComponent d i = ⟨.ok known, i, []⟩) ∨
      i.component? d.name = none ∧ ∃ records,
        registerComponent d i = ⟨.ok d, { i with components := i.components ++ [d] }, records⟩ := by
  unfold registerComponent
  cases h : i.component? d.name with
  | some known => exact .inl ⟨known, rfl, by simp only [Action.get_bind, h, Action.pure_apply]⟩
  | none => exact .inr ⟨rfl, _, by simp only [Action.get_bind, h]; rfl⟩

theorem registerEvent_cases (d : EventDescription) (i : Index) :
    (i.event? d.name = some d ∧ registerEvent d i = ⟨.ok (), i, []⟩) ∨
      (∃ e, registerEvent d i = ⟨.error e, i, []⟩) ∨
        i.event? d.name = none ∧ ∃ records,
          registerEvent d i = ⟨.ok (), { i with events := i.events ++ [d] }, records⟩ := by
  unfold registerEvent
  cases h : i.event? d.name with
  | none => exact .inr (.inr ⟨rfl, _, by simp only [Action.get_bind, h]; rfl⟩)
  | some known =>
    by_cases heq : known = d
    · exact .inl ⟨by rw [heq], by simp only [Action.get_bind, h, if_pos heq, Action.pure_apply]⟩
    · exact .inr (.inl ⟨_, by simp only [Action.get_bind, h, if_neg heq]; rfl⟩)

theorem registerSystem_new {s : System} {i : Index} (hs : i.system? s.name = none)
    (hc : i.unknownComponent? s.declaration.components = none) :
    registerSystem s i = (registerEvent s.declaration.event >>= fun _ =>
      Action.log .debug ("Declared system " ++ Error.quoted s.name) >>= fun _ =>
        Action.modify fun i => { i with systems := i.systems ++ [s] }) i := by
  simp only [registerSystem, Action.get_bind, hs, hc]
  rfl

/-- A system that is refused leaves no event behind. One that is accepted comes after its event. -/
theorem registerSystem_cases (s : System) (i : Index) :
    (∃ e, registerSystem s i = ⟨.error e, i, []⟩) ∨
      i.system? s.name = none ∧ i.unknownComponent? s.declaration.components = none ∧
        ∃ j records more, registerEvent s.declaration.event i = ⟨.ok (), j, records⟩ ∧
          registerSystem s i = ⟨.ok (), { j with systems := j.systems ++ [s] }, more⟩ := by
  cases hs : i.system? s.name with
  | some known =>
    refine .inl ⟨.duplicateSystem s.name, ?_⟩
    simp only [registerSystem, Action.get_bind, hs, Option.isSome_some, if_true, Action.fail_bind]
  | none =>
    cases hc : i.unknownComponent? s.declaration.components with
    | some name =>
      refine .inl ⟨.unknownComponent name, ?_⟩
      simp only [registerSystem, Action.get_bind, hs, hc]
      rfl
    | none =>
      have accepted : ∀ {j records}, registerEvent s.declaration.event i = ⟨.ok (), j, records⟩ →
          ∃ more, registerSystem s i = ⟨.ok (), { j with systems := j.systems ++ [s] }, more⟩ := by
        intro j records he
        exact ⟨_, (registerSystem_new hs hc).trans (Action.bind_ok he)⟩
      rcases registerEvent_cases s.declaration.event i with ⟨-, he⟩ | ⟨e, he⟩ | ⟨-, records, he⟩
      · obtain ⟨more, h⟩ := accepted he
        exact .inr ⟨rfl, rfl, _, _, more, he, h⟩
      · exact .inl ⟨e, (registerSystem_new hs hc).trans (Action.bind_error he)⟩
      · obtain ⟨more, h⟩ := accepted he
        exact .inr ⟨rfl, rfl, _, _, more, he, h⟩

theorem event?_registerEvent {d : EventDescription} {i j : Index} {records : List LogRecord}
    (h : registerEvent d i = ⟨.ok (), j, records⟩) :
    j.event? d.name = some d ∧ j.components = i.components ∧ j.systems = i.systems := by
  rcases registerEvent_cases d i with ⟨hsame, hr⟩ | ⟨e, hr⟩ | ⟨hnew, _, hr⟩
  · cases hr.symm.trans h
    exact ⟨hsame, rfl, rfl⟩
  · cases hr.symm.trans h
  · cases hr.symm.trans h
    refine ⟨?_, rfl, rfl⟩
    rw [event?] at hnew ⊢
    simp [List.find?_append, hnew]

/-! ### Actions on an index -/

/-- The action makes no other changes. -/
def Growing {ε α : Type} (a : Action ε Index α) : Prop := ∀ i, Grown i (a i).state

/-- The action changes nothing when it fails. -/
def Atomic {ε α : Type} (a : Action ε Index α) : Prop :=
  ∀ i e, (a i).result = .error e → (a i).state = i

section Growing
variable {ε δ α β : Type}

theorem growing_pure (x : α) : Growing (pure x : Action ε Index α) := fun _ => .refl

theorem growing_fail (e : ε) : Growing (Action.fail e : Action ε Index α) := fun _ => .refl

theorem growing_get : Growing (Action.get : Action ε Index Index) := fun _ => .refl

theorem growing_log (level : LogLevel) (message : String) :
    Growing (Action.log level message : Action ε Index Unit) := fun _ => .refl

theorem growing_ofExcept (x : Except ε α) : Growing (Action.ofExcept x) := fun _ => .refl

theorem Growing.bind {a : Action ε Index α} {f : α → Action ε Index β} (ha : Growing a)
    (hf : ∀ x, Growing (f x)) : Growing (a >>= f) :=
  Action.bind_relates (R := Grown) (fun h h' => Relation.ReflTransGen.trans h h') ha hf

theorem Growing.mapError {a : Action ε Index α} (ha : Growing a) (f : ε → δ) :
    Growing (a.mapError f) := ha

end Growing

theorem registerComponent_growing (d : ComponentDescription) : Growing (registerComponent d) := by
  intro i
  rcases registerComponent_cases d i with ⟨known, -, h⟩ | ⟨hnew, records, h⟩
  · rw [h]
    exact .refl
  · rw [h]
    exact .single (.component d hnew)

theorem registerComponent_atomic (d : ComponentDescription) : Atomic (registerComponent d) := by
  intro i e he
  rcases registerComponent_cases d i with ⟨known, -, h⟩ | ⟨-, records, h⟩
  · rw [h]
  · rw [h] at he
    cases he

theorem registerEvent_growing (d : EventDescription) : Growing (registerEvent d) := by
  intro i
  rcases registerEvent_cases d i with ⟨-, h⟩ | ⟨e, h⟩ | ⟨hnew, records, h⟩
  · rw [h]
    exact .refl
  · rw [h]
    exact .refl
  · rw [h]
    exact .single (.event d hnew)

theorem registerEvent_atomic (d : EventDescription) : Atomic (registerEvent d) := by
  intro i e he
  rcases registerEvent_cases d i with ⟨-, h⟩ | ⟨_, h⟩ | ⟨-, records, h⟩
  · rw [h]
  · rw [h]
  · rw [h] at he
    cases he

theorem registerSystem_growing (s : System) : Growing (registerSystem s) := by
  intro i
  rcases registerSystem_cases s i with ⟨e, h⟩ | ⟨hnew, hcomponents, j, records, more, hevent, h⟩
  · rw [h]
    exact .refl
  · rw [h]
    have hj : Grown i j := by
      have hgrown := registerEvent_growing s.declaration.event i
      rwa [hevent] at hgrown
    obtain ⟨hlistens, hsame, hsystems⟩ := event?_registerEvent hevent
    refine hj.tail (.system s ?_ ?_ hlistens)
    · rw [system?, hsystems]
      exact hnew
    · simp only [unknownComponent?, component?, hsame]
      exact hcomponents

theorem registerSystem_atomic (s : System) : Atomic (registerSystem s) := by
  intro i e he
  rcases registerSystem_cases s i with ⟨_, h⟩ | ⟨-, -, j, records, more, -, h⟩
  · rw [h]
  · rw [h] at he
    cases he

end Index

/-! ### Scripts -/

namespace Script
open Index

theorem Declaring.all_growing (config : Config) (file : String) (list : List Node) :
    Growing (all config file list) := by
  induction list with
  | nil => exact growing_pure _
  | cons n rest ih =>
    unfold all
    split
    · refine Growing.bind ?_ fun _ => ih
      refine (growing_ofExcept _).bind fun d => ?_
      exact ((registerComponent_growing d).mapError _).bind fun _ => growing_pure _
    · refine Growing.bind ?_ fun _ => ih.bind fun _ => growing_pure _
      refine growing_get.bind fun known => (growing_ofExcept _).bind fun parts => ?_
      refine (growing_log _ _).bind fun _ => ?_
      exact ((registerSystem_growing _).mapError _).bind fun _ => growing_pure _
    · exact growing_fail _

theorem allOrNothing_growing {α : Type} {work : Declaring α} (h : Growing work) :
    Growing (allOrNothing work) := by
  intro i
  cases hr : (work i).result with
  | ok x =>
    rw [allOrNothing_ok hr]
    exact h i
  | error e =>
    rw [allOrNothing_error hr]
    exact .refl

theorem loadSource_growing (config : Config) (file source : String) :
    Growing (loadSource config file source) := by
  apply allOrNothing_growing
  refine (growing_ofExcept _).bind fun tree => ?_
  refine (Declaring.all_growing config tree.value tree.children).bind fun systems => ?_
  exact (growing_log _ _).bind fun _ => growing_pure _

theorem loadSource_atomic (config : Config) (file source : String) :
    Atomic (loadSource config file source) := by
  intro i e he
  rw [loadSource, allOrNothing_result] at he
  exact allOrNothing_error he

end Script

/-! ### Runs -/

namespace Index

/-- The operations that declare something. -/
inductive Operation : {ε α : Type} → Action ε Index α → Prop
  | component (d : ComponentDescription) : Operation (registerComponent d)
  | event (d : EventDescription) : Operation (registerEvent d)
  | system (s : System) : Operation (registerSystem s)
  | load (config : Script.Config) (file source : String) :
    Operation (Script.loadSource config file source)

/-- The indexes that some operations make of one, whether each of them succeeds or fails. -/
inductive Run (i : Index) : Index → Prop
  | nil : Run i i
  | perform {j : Index} {ε α : Type} {a : Action ε Index α} :
    Run i j → Operation a → Run i (a j).state

/-- The indexes at the end of runs, with resets in between. -/
inductive Reachable : Index → Prop
  | new : Reachable initial
  | run {i j : Index} : Reachable i → Run i j → Reachable j
  | reset {i : Index} : Reachable i → Reachable (reset i).state

variable {ε α : Type} {a : Action ε Index α}

theorem Operation.growing (h : Operation a) : Growing a := by
  cases h with
  | component d => exact registerComponent_growing d
  | event d => exact registerEvent_growing d
  | system s => exact registerSystem_growing s
  | load config file source => exact Script.loadSource_growing config file source

theorem Operation.atomic (h : Operation a) : Atomic a := by
  cases h with
  | component d => exact registerComponent_atomic d
  | event d => exact registerEvent_atomic d
  | system s => exact registerSystem_atomic s
  | load config file source => exact Script.loadSource_atomic config file source

theorem Run.grown {i j : Index} (h : Run i j) : Grown i j := by
  induction h with
  | nil => exact .refl
  | perform _ ha ih => exact Relation.ReflTransGen.trans ih (ha.growing _)

theorem Reachable.wellFormed {i : Index} (h : Reachable i) : i.WellFormed := by
  induction h with
  | new => exact wellFormed_initial
  | run _ hrun ih => exact hrun.grown.wellFormed ih
  | reset _ _ => exact wellFormed_initial

/-- A component has the first of its declarations, whatever is declared later. -/
theorem registerComponent_first (d : ComponentDescription) (i : Index) :
    (registerComponent d i).result = .ok ((i.component? d.name).getD d) ∧
      (registerComponent d i).state.component? d.name = some ((i.component? d.name).getD d) := by
  rcases registerComponent_cases d i with ⟨known, hknown, h⟩ | ⟨hnew, records, h⟩
  · rw [h, hknown]
    exact ⟨rfl, rfl⟩
  · rw [h, hnew]
    refine ⟨rfl, ?_⟩
    rw [component?] at hnew ⊢
    simp [List.find?_append, hnew]

/-- Every index that can be reached is well formed. Until it is reset it keeps what it has in its
places, and components keep their first declaration. An operation that fails does nothing to it. -/
theorem reachable_kept {i : Index} (h : Reachable i) :
    i.WellFormed ∧ (∀ j, Run i j → j.WellFormed ∧ j.Extends i) ∧
      (∀ d, (registerComponent d i).result = .ok ((i.component? d.name).getD d) ∧
        (registerComponent d i).state.component? d.name =
          some ((i.component? d.name).getD d)) ∧
        ∀ {ε α : Type} {a : Action ε Index α}, Operation a →
          ∀ e, (a i).result = .error e → (a i).state = i := by
  refine ⟨h.wellFormed, fun j hj => ?_, fun d => registerComponent_first d i, ?_⟩
  · exact ⟨(h.run hj).wellFormed, hj.grown.extends⟩
  · intro ε α a ha e he
    exact ha.atomic i e he

/-- The built-in declarations and one more component. -/
def healing : Index := (registerComponent (.ofShape "Health" .number) initial).state

/-- A component, and a system for one that nobody declares. -/
def armory : String := "component Shield Number\n" ++ "system pierce(foe<Armor>)\n foe.Armor=0\n"

/-- A script that fails in its last declaration declares nothing. -/
theorem armory_kept :
    Reachable healing ∧ healing.WellFormed ∧
      (∀ j, Run healing j → j.WellFormed ∧ j.Extends healing) ∧
      healing.components.map ComponentDescription.name = ["Tag", "Transform", "Health"] ∧
      ∃ e, (Script.loadSource {} "armory" armory healing).result = .error e ∧
        (Script.loadSource {} "armory" armory healing).state = healing := by
  have hreach : Reachable healing :=
    Reachable.new.run (.perform .nil (.component (.ofShape "Health" .number)))
  obtain ⟨hformed, hruns, -, hfailed⟩ := reachable_kept hreach
  have hfails : (match (Script.loadSource {} "armory" armory healing).result with
      | .error ⟨_, _, _, .unknownComponent name⟩ => name == "Armor"
      | _ => false) = true := by
    decide +kernel
  refine ⟨hreach, hformed, hruns, rfl, ?_⟩
  cases he : (Script.loadSource {} "armory" armory healing).result with
  | ok systems => simp [he] at hfails
  | error e => exact ⟨e, rfl, hfailed (.load {} "armory" armory) e he⟩

end Index
end SceneScript
