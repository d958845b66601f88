import SceneScript.Proofs.Action
import SceneScript.Script.Load

/-! # Loaded systems

A system that a load answers runs a block of the loaded text: the one of the declaration in the
syntax tree that the name, the components and the event of the system are taken from.
-/
namespace SceneScript.Script
open SceneScript.Error (quoted)

theorem allOrNothing_result {α : Type} (work : Declaring α) (index : Index) :
    (allOrNothing work index).result = (work index).result := by
  unfold allOrNothing
  cases h : (work index).result with
  | ok x => simp only [h]
  | error e => simp only [h]

theorem allOrNothing_ok {α : Type} {work : Declaring α} {index : Index} {x : α}
    (h : (work index).result = .ok x) : allOrNothing work index = work index := by
  simp only [allOrNothing, h]

theorem allOrNothing_error {α : Type} {work : Declaring α} {index : Index} {e : LoadError}
    (h : (work index).result = .error e) : (allOrNothing work index).state = index := by
  simp only [allOrNothing, h]

/-- A load does what the declarations of the parsed text do. -/
theorem loadSource_declare {config : Config} {file source : String} {tree : Node} {index : Index}
    {systems : List System} (ht : Node.ofSource file source = .ok tree)
    (hd : (declare config tree index).result = .ok systems) :
    ∃ records, (loadSource config file source).run index =
      ⟨.ok systems, (declare config tree index).state, records⟩ := by
  let work : Declaring (List System) := do
    let tree ← Action.ofExcept (Node.ofSource file source)
    let systems ← declare config tree
    Action.log .info ("Loaded " ++ quoted file ++ " with " ++ toString systems.length ++ " systems")
    return systems
  have hwork : (work index).result = .ok systems ∧
      (work index).state = (declare config tree index).state := by
    simp only [work, ht, Action.ofExcept_ok_bind]
    exact Action.bind_of_result hd
  have hload : (loadSource config file source).run index = work index := allOrNothing_ok hwork.1
  rw [hload, ← hwork.1, ← hwork.2]
  exact ⟨_, rfl⟩

namespace Declaring
variable {config : Config} {file : String}

/-- The system is made of the parts of a declaration, read with what was declared before it. -/
def Declares (config : Config) (file : String) (n : Node) (system : System) : Prop :=
  ∃ known d body, n.systemParts file known = .ok (d, body) ∧ system = systemOf config body d

theorem system_meets_declares (n : Node) :
    (system config file n).Meets (Declares config file n) fun _ => True := by
  refine Action.meets_get.bind fun known _ => ?_
  refine (Action.meets_ofExcept (Result.meets_self _)).bind fun parts hparts => ?_
  refine (Action.meets_log _ _).bind fun _ _ => ?_
  exact (Action.meets_any _).bind fun _ _ =>
    Action.meets_pure ⟨known, parts.1, parts.2, hparts, rfl⟩

theorem all_meets_declares (list : List Node) :
    (all config file list).Meets
      (fun systems => ∀ system ∈ systems, ∃ n ∈ list, Declares config file n system)
      fun _ => True := by
  induction list with
  | nil => exact Action.meets_pure (by simp)
  | cons n rest ih =>
    unfold all
    split
    · refine (Action.meets_any _).bind fun _ _ => ih.mono (fun systems h system hs => ?_)
        fun _ h => h
      obtain ⟨m, hm, hd⟩ := h system hs
      exact ⟨m, List.mem_cons_of_mem _ hm, hd⟩
    · refine (system_meets_declares n).bind fun first hfirst => ?_
      refine ih.bind fun others hothers => Action.meets_pure fun system hs => ?_
      rcases List.mem_cons.mp hs with rfl | hs
      · exact ⟨n, List.mem_cons_self .., hfirst⟩
      · obtain ⟨m, hm, hd⟩ := hothers system hs
        exact ⟨m, List.mem_cons_of_mem _ hm, hd⟩
    · exact Action.meets_fail trivial

section
variable {n : Node} {rest : List Node} {index index' index'' : Index} {systems : List System}
  {log log' : List LogRecord}

theorem all_component (hk : n.kind = .componentDeclaration)
    (h : component file n index = ⟨.ok (), index', log⟩)
    (hrest : all config file rest index' = ⟨.ok systems, index'', log'⟩) :
    all config file (n :: rest) index = ⟨.ok systems, index'', log ++ log'⟩ := by
  rw [all, hk]
  exact (Action.bind_ok h).trans (by rw [hrest])

theorem all_system {system : System} (hk : n.kind = .systemDeclaration)
    (h : Declaring.system config file n index = ⟨.ok system, index', log⟩)
    (hrest : all config file rest index' = ⟨.ok systems, index'', log'⟩) :
    all config file (n :: rest) index =
      ⟨.ok (system :: systems), index'', log ++ (log' ++ [])⟩ := by
  rw [all, hk]
  exact (Action.bind_ok h).trans (by rw [Action.bind_ok hrest]; rfl)

end

end Declaring

/-- The answer of a load: every system runs the body that its declaration has in the text. -/
theorem loadSource_ok {config : Config} {file source : String} {index : Index}
    {systems : List System} (h : (loadSource config file source index).result = .ok systems) :
    ∃ tree, Node.ofSource file source = .ok tree ∧
      ∀ system ∈ systems, ∃ n ∈ tree.children, Declaring.Declares config tree.value n system := by
  rw [loadSource, allOrNothing_result] at h
  obtain ⟨tree, htree, h, -⟩ := Action.bind_result_ok h
  obtain ⟨systems', hsystems, h, -⟩ := Action.bind_result_ok h
  obtain ⟨_, _, h, -⟩ := Action.bind_result_ok h
  cases h
  exact ⟨tree, htree, (Declaring.all_meets_declares tree.children _).of_ok hsystems⟩

theorem Node.systemParts_ok {n : Node} {file : String} {known : Index} {d : Declaration}
    {body : Node} (h : n.systemParts file known = .ok (d, body)) :
    d.name = n.value ∧ n.child? .block = some body := by
  obtain ⟨parameter, _, h⟩ := Result.bind_eq_ok.mp h
  obtain ⟨_, _, h⟩ := Result.bind_eq_ok.mp h
  obtain ⟨event, _, h⟩ := Result.bind_eq_ok.mp h
  obtain ⟨block, hblock, h⟩ := Result.bind_eq_ok.mp h
  cases h
  refine ⟨rfl, ?_⟩
  unfold child at hblock
  split at hblock
  · cases hblock
    assumption
  · cases hblock

/-- A load has answered the system. -/
def IsLoaded (system : System) : Prop :=
  ∃ config file source index systems,
    (loadSource config file source index).result = .ok systems ∧ system ∈ systems

/-- A load has answered the system, which runs the body that its declaration has in the text. -/
structure Loaded (config : Config) (body : Node) (system : System) : Prop where
  load : ∃ file source index systems tree, ∃ n ∈ tree.children, ∃ known,
    (loadSource config file source index).result = .ok systems ∧ system ∈ systems ∧
      Node.ofSource file source = .ok tree ∧
        n.systemParts tree.value known = .ok (system.declaration, body)
  runs : system = systemOf config body system.declaration

theorem isLoaded_iff {system : System} :
    IsLoaded system ↔ ∃ config body, Loaded config body system := by
  constructor
  · rintro ⟨config, file, source, index, systems, hload, hs⟩
    obtain ⟨tree, htree, hall⟩ := loadSource_ok hload
    obtain ⟨n, hn, known, d, body, hparts, rfl⟩ := hall system hs
    exact ⟨config, body,
      ⟨file, source, index, systems, tree, n, hn, known, hload, hs, htree, hparts⟩, rfl⟩
  · rintro ⟨config, _, ⟨file, source, index, systems, _, _, _, _, hload, hs, _⟩, _⟩
    exact ⟨config, file, source, index, systems, hload, hs⟩

end SceneScript.Script
