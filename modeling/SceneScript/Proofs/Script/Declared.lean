import SceneScript.Proofs.Action
import SceneScript.Proofs.Script.WellFormed
import SceneScript.Script.Declare

/-! # What the declaration pass promises

On a well-formed file the declaration pass finds every child it looks for. It can only be refused:
for a type or a component that nobody knows, for a system that is there already, or for an event
that is declared differently. The systems it answers run the blocks of the file.
-/
namespace SceneScript.Script

/-- A declaration that cannot be accepted although it is well formed. -/
def LoadFault.IsRefusal : LoadFault → Prop
  | unknownType _ => True
  | unknownComponent _ => True
  | duplicateSystem _ => True
  | conflictingEvent _ => True
  | _ => False

def Refused (e : LoadError) : Prop := e.fault.IsRefusal

theorem HasType.child {n : Node} (h : HasType n) (file what : String) :
    ∃ type, n.child file .type what = .ok type := by
  obtain ⟨type, hc, hk⟩ := h
  exact ⟨type, by simp [Node.child, Node.child?, hc, hk]⟩

namespace Node
variable (file : String) (index : Index)

theorem basicType_meets (n : Node) :
    Result.Meets (n.basicType file) (fun _ => True) Refused := by
  unfold basicType
  split
  · trivial
  · trivial

theorem recordType_meets {known : RecordType} {list : List Node} (h : AreProperties list)
    (hk : ∀ p ∈ list, Table.contains known p.value = false) :
    Result.Meets (recordType file known list) (fun _ => True) Refused := by
  induction list generalizing known with
  | nil => trivial
  | cons p rest ih =>
    obtain ⟨hnodup, hall⟩ := h
    obtain ⟨hnew, hrest⟩ := List.nodup_cons.mp hnodup
    obtain ⟨type, hc⟩ := (hall p (List.mem_cons_self ..)).2.child file "property type"
    simp only [recordType, hc, Result.ok_bind]
    refine (basicType_meets file type).bind fun t _ => ?_
    rw [if_neg (by simp [hk p (List.mem_cons_self ..)])]
    refine ih ⟨hrest, fun q hq => hall q (List.mem_cons_of_mem _ hq)⟩ fun q hq => ?_
    have hne : q.value ≠ p.value := by
      intro he
      exact hnew (he ▸ List.mem_map_of_mem hq)
    simpa [Table.contains, Table.find?_insert_ne _ _ hne] using hk q (List.mem_cons_of_mem _ hq)

theorem componentShape_meets {n : Node} (h : IsComponent n) :
    Result.Meets (n.componentShape file) (fun _ => True) Refused := by
  unfold componentShape
  rcases h.2 with ⟨type, hc, hk⟩ | ⟨hne, hp⟩
  · simp only [hc, hk, if_true]
    exact basicType_meets file type
  · have hall : n.childrenOf .property = n.children := by
      rw [childrenOf, List.filter_eq_self]
      intro p hm
      simp [(hp.2 p hm).1]
    rw [hall]
    cases hl : n.children with
    | nil => exact (hne hl).elim
    | cons first rest =>
      have hf : first.kind ≠ .type := by
        rw [(hp.2 first (by simp [hl])).1]
        simp
      simp only [if_neg hf]
      rw [hl] at hp
      exact (recordType_meets file hp fun _ _ => rfl).bind fun _ _ => trivial

theorem component_meets {n : Node} (h : IsComponent n) :
    Result.Meets (n.component file) (fun _ => True) Refused :=
  (componentShape_meets file h).bind fun _ _ => trivial

theorem requireKnown_meets (n : Node) :
    Result.Meets (requireKnown file index n) (fun _ => True) Refused := by
  unfold requireKnown
  split
  · trivial
  · trivial

theorem eventWith_meets {event : EventDescription} {list : List Node}
    (h : ∀ p ∈ list, IsEventParameter p) :
    Result.Meets (eventWith file index event list) (fun _ => True) Refused := by
  induction list generalizing event with
  | nil => trivial
  | cons p rest ih =>
    have hrest : ∀ event,
        Result.Meets (eventWith file index event rest) (fun _ => True) Refused :=
      fun _ => ih fun q hq => h q (List.mem_cons_of_mem _ hq)
    unfold eventWith
    rcases h p (List.mem_cons_self ..) with hk | ⟨hk, ht⟩
    · rw [hk]
      exact (requireKnown_meets file index p).bind fun _ _ => hrest _
    · rw [hk]
      obtain ⟨type, hc⟩ := ht.child file "payload type"
      simp only [hc, Result.ok_bind]
      exact (basicType_meets file type).bind fun _ _ => hrest _

/-- The block of a system is the one that the declaration pass takes. -/
theorem systemParts_meets {n : Node} (h : IsSystem n) :
    Result.Meets (n.systemParts file index)
      (fun parts => n.child? .block = some parts.2 ∧ IsBlock parts.2) Refused := by
  obtain ⟨-, parameter, events, body, hc, hp, -, he, hb⟩ := h
  have hbody : body.kind = .block := by
    obtain ⟨kind, value, line, column, children⟩ := body
    cases kind <;> first | rfl | exact hb.elim
  have hparameter : n.child? .entityParameter = some parameter := by
    simp [child?, hc, hp]
  have hblock : n.child? .block = some body := by
    have hnone : (events.find? fun c => c.kind == .block) = none := by
      rw [List.find?_eq_none]
      intro e hm
      simp [(he e hm).1]
    simp [child?, hc, hp, List.find?_append, hnone, hbody]
  have hevent : ∀ event, n.child? .eventDeclaration = some event → IsEvent event := by
    intro event hf
    have hk := List.find?_some hf
    have hm := List.mem_of_find?_eq_some hf
    rw [hc] at hm
    simp only [List.cons_append, List.mem_cons, List.mem_append, List.not_mem_nil,
      or_false] at hm
    rcases hm with rfl | hm | rfl
    · simp [hp] at hk
    · exact he event hm
    · simp [hbody] at hk
  have hsystemEvent : Result.Meets (n.systemEvent file index) (fun _ => True) Refused := by
    unfold systemEvent
    split
    · rename_i event hf
      exact eventWith_meets file index (hevent event hf).2
    · trivial
  unfold systemParts
  simp only [child, hparameter, hblock, Result.ok_bind]
  exact (requireKnown_meets file index parameter).bind fun _ _ =>
    hsystemEvent.bind fun _ _ => ⟨rfl, hb⟩

end Node

theorem registerComponent_meets (d : ComponentDescription) {fails : Error → Prop} :
    (Index.registerComponent d).Meets (fun _ => True) fails := by
  refine Action.meets_get.bind fun i _ => ?_
  split
  · exact Action.meets_pure trivial
  · exact (Action.meets_log _ _).bind fun _ _ => (Action.meets_set _).bind fun _ _ =>
      Action.meets_pure trivial

theorem registerEvent_meets (d : EventDescription) :
    (Index.registerEvent d).Meets (fun _ => True) fun e => (LoadFault.ofError e).IsRefusal := by
  refine Action.meets_get.bind fun i _ => ?_
  split
  · split
    · exact Action.meets_pure trivial
    · exact Action.meets_fail trivial
  · exact (Action.meets_log _ _).bind fun _ _ => Action.meets_set _

theorem registerSystem_meets (system : System) :
    (Index.registerSystem system).Meets (fun _ => True)
      fun e => (LoadFault.ofError e).IsRefusal := by
  refine Action.meets_get.bind fun i _ => ?_
  dsimp only
  split
  · have hfail : Action.Meets (Action.fail (.duplicateSystem system.name) : Action Error Index Unit)
        (fun _ => False) fun e => (LoadFault.ofError e).IsRefusal := Action.meets_fail trivial
    exact hfail.bind fun _ h => h.elim
  · split
    · exact Action.meets_fail trivial
    · exact (registerEvent_meets _).bind fun _ _ => (Action.meets_log _ _).bind fun _ _ =>
        Action.meets_modify _

def RunsBlock (config : Config) (list : List Node) (system : System) : Prop :=
  ∃ n ∈ list, ∃ body, n.child? .block = some body ∧ IsBlock body ∧
    system = systemOf config body system.declaration

namespace Declaring
variable (config : Config) (file : String)

theorem component_meets {n : Node} (h : IsComponent n) :
    (component file n).Meets (fun _ => True) Refused :=
  (Action.meets_ofExcept (Node.component_meets file h)).bind fun d _ =>
    (registerComponent_meets d).mapError.bind fun _ _ => Action.meets_pure trivial

theorem system_meets {n : Node} (h : IsSystem n) :
    (system config file n).Meets (RunsBlock config [n]) Refused := by
  refine Action.meets_get.bind fun index _ => ?_
  refine (Action.meets_ofExcept (Node.systemParts_meets file index h)).bind fun parts hp => ?_
  refine (Action.meets_log _ _).bind fun _ _ => ?_
  have hregister : Action.Meets ((Index.registerSystem (systemOf config parts.2 parts.1)).mapError
      fun e => n.error file (.ofError e)) (fun _ => True) Refused :=
    Action.Meets.mapError (registerSystem_meets _)
  exact hregister.bind fun _ _ => Action.meets_pure
    ⟨n, List.mem_singleton_self n, parts.2, hp.1, hp.2, rfl⟩

theorem all_meets {list : List Node} (h : ∀ d ∈ list, IsComponent d ∨ IsSystem d) :
    (all config file list).Meets (fun systems => ∀ system ∈ systems, RunsBlock config list system)
      Refused := by
  induction list with
  | nil => exact Action.meets_pure (by simp)
  | cons n rest ih =>
    have hrest := ih fun d hd => h d (List.mem_cons_of_mem _ hd)
    have hmore : ∀ system, RunsBlock config rest system → RunsBlock config (n :: rest) system :=
      fun system ⟨m, hm, hb⟩ => ⟨m, List.mem_cons_of_mem _ hm, hb⟩
    unfold all
    rcases h n (List.mem_cons_self ..) with hn | hn
    · rw [hn.1]
      exact (component_meets file hn).bind fun _ _ =>
        hrest.mono (fun _ hs system hm => hmore system (hs system hm)) fun _ he => he
    · rw [hn.1]
      refine (system_meets config file hn).bind fun first hfirst => ?_
      refine hrest.bind fun others hothers => Action.meets_pure fun system hs => ?_
      rcases List.mem_cons.mp hs with rfl | hs
      · obtain ⟨m, hm, hb⟩ := hfirst
        obtain rfl := List.mem_singleton.mp hm
        exact ⟨m, List.mem_cons_self .., hb⟩
      · exact hmore system (hothers system hs)

end Declaring
end SceneScript.Script
