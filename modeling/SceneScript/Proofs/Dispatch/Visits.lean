import Mathlib.Data.List.TakeWhile
import SceneScript.Proofs.Component.Intersection
import SceneScript.Proofs.Dispatch.Thread

/-! # The entities that a system visits

When an event reaches a system, the entities it is run for are settled: those that have all of its
components at this moment. The runs may change the world, but not who is visited.
-/
namespace SceneScript

namespace Dispatch

/-- Right behind every offer are the runs that the offer makes, and a run is behind an offer or
another run. -/
structure Answered (roster : Roster) (world : World) (steps : List Step) : Prop where
  opens : steps.takeWhile Step.isCall = []
  runs : ∀ before event system after, steps = before ++ .offered event system :: after →
    after.takeWhile Step.isCall =
      (offerSteps roster event (leave world before) system).filter Step.isCall

section
variable {roster : Roster} {world : World}

theorem answered_nil : Answered roster world [] where
  opens := rfl
  runs before event system after h := by
    have := congrArg List.length h
    simp at this

theorem Answered.append {xs ys : List Step} (hx : Answered roster world xs)
    (hy : Answered roster (leave world xs) ys) : Answered roster world (xs ++ ys) where
  opens := by
    rw [List.takeWhile_append, hx.opens, hy.opens, List.append_nil]
    split
    · rename_i hlength
      exact List.length_eq_zero_iff.mp hlength.symm
    · rfl
  runs before event system after h := by
    rcases List.append_eq_append_iff.mp h with ⟨more, rfl, hys⟩ | ⟨more, hxs, hmore⟩
    · rw [leave_append]
      exact hy.runs more event system after hys
    · cases more with
      | nil =>
        rw [List.append_nil] at hxs
        subst hxs
        exact hy.runs [] event system after hmore.symm
      | cons x more =>
        rw [List.cons_append, List.cons_eq_cons] at hmore
        obtain ⟨rfl, rfl⟩ := hmore
        -- the runs of an offer in front cannot go on behind
        rw [← hx.runs before event system more hxs, List.takeWhile_append, hy.opens,
          List.append_nil]
        split
        · rename_i hlength
          exact (List.takeWhile_prefix _).eq_of_length hlength |>.symm
        · rfl

theorem answered_singleton {x : Step} (hcall : x.isCall = false)
    (hoffer : ∀ event system, x ≠ .offered event system) : Answered roster world [x] where
  opens := by simp [hcall]
  runs before event system after h := by
    have hm : Step.offered event system ∈ [x] := by simp [h]
    exact absurd (List.mem_singleton.mp hm).symm (hoffer event system)

theorem callSteps_isCall {system : System} {context : EventContext} {targets : List Target} :
    ∀ x ∈ callSteps system context world targets, x.isCall = true := by
  induction targets generalizing world with
  | nil => intro x hx; cases hx
  | cons t rest ih =>
    intro x hx
    rcases List.mem_cons.mp hx with rfl | hx
    · rfl
    · exact ih x hx

/-- Behind the offer itself there are only runs, or the reason why there are none. -/
theorem answered_offer {event : Event} {system : System} (answer : List Step)
    (hsteps : offerSteps roster event world system = .offered event system :: answer)
    (hanswer : (∀ x ∈ answer, x.isCall = true) ∨
      ∃ x, answer = [x] ∧ x.isCall = false ∧ ∀ event system, x ≠ .offered event system) :
    Answered roster world (offerSteps roster event world system) where
  opens := by rw [hsteps]; rfl
  runs before event' system' after h := by
    have hnone : ∀ event system, Step.offered event system ∉ answer := by
      intro event system hm
      rcases hanswer with hcalls | ⟨x, rfl, _, hx⟩
      · cases hcalls _ hm
      · exact hx event system (List.mem_singleton.mp hm).symm
    rw [hsteps] at h
    cases before with
    | cons first before =>
      rw [List.cons_append, List.cons_eq_cons] at h
      exact absurd (h.2 ▸ List.mem_append_right _ (List.mem_cons_self ..)) (hnone event' system')
    | nil =>
      obtain ⟨heq, rfl⟩ := List.cons_eq_cons.mp h
      cases heq
      rw [leave_nil, hsteps, List.filter_cons_of_neg (by simp [Step.isCall])]
      rcases hanswer with hcalls | ⟨x, rfl, hx, _⟩
      · rw [List.filter_eq_self.mpr hcalls, List.takeWhile_eq_self_iff.mpr hcalls]
      · simp [hx]

theorem offerSteps_answered (event : Event) (system : System) :
    Answered roster world (offerSteps roster event world system) := by
  cases hm : system.declaration.event.mismatch? event with
  | some reason =>
    refine answered_offer [.skipped event system reason] ?_ (.inr ⟨_, rfl, rfl, ?_⟩)
    · simp only [offerSteps, hm]
    · intro _ _ h
      cases h
  | none =>
    cases hp : Progress.prepare world.store system event with
    | error err =>
      refine answered_offer [.unbound event system err] ?_ (.inr ⟨_, rfl, rfl, ?_⟩)
      · simp only [offerSteps, hm, hp]
      · intro _ _ h
        cases h
    | ok bound =>
      refine answered_offer (callSteps system ⟨event, bound.1, roster⟩ world
        (targets system bound.2)) ?_ (.inl callSteps_isCall)
      simp only [offerSteps, hm, hp]

theorem listenerSteps_answered (event : Event) (systems : List System) :
    Answered roster world (listenerSteps roster event world systems) := by
  induction systems generalizing world with
  | nil => exact answered_nil
  | cons system rest ih => exact (offerSteps_answered event system).append ih

theorem deliverySteps_answered (registry : Registry) (event : Event) :
    Answered roster world (deliverySteps registry roster world event) := by
  have hdelivered : Answered roster world [.delivered event] :=
    answered_singleton rfl fun _ _ h => by cases h
  refine hdelivered.append ?_
  split
  · exact answered_singleton rfl fun _ _ h => by cases h
  · exact listenerSteps_answered event _

theorem roundSteps_answered (registry : Registry) (events : List Event) :
    Answered roster world (roundSteps registry roster world events) := by
  induction events generalizing world with
  | nil => exact answered_nil
  | cons event rest ih => exact (deliverySteps_answered registry event).append ih

theorem drainRounds_answered (registry : Registry) (limit : Nat) (stream : Stream Event)
    (p : Progress) :
    Answered roster p.toWorld (drainRounds registry roster limit stream p).flatten := by
  induction limit generalizing stream p with
  | zero =>
    rw [drainRounds_zero]
    exact answered_nil
  | succ limit ih =>
    by_cases he : stream.pending = []
    · rw [drainRounds_nil he]
      exact answered_nil
    · rw [drainRounds_succ he]
      exact (roundSteps_answered registry stream.pending).append
        (ih _ ((p.addRounds 1).record (roundSteps registry roster p.toWorld stream.pending)))

/-- Right behind every offer in a dispatch are the runs that it makes. -/
theorem rounds_answered (registry : Registry) (limit : Nat) (event : Event) :
    Answered roster world (rounds registry roster limit world event).flatten :=
  drainRounds_answered registry limit _ { toWorld := world }

end

theorem targets_of_perEntity {system : System} (h : system.isBatch = false) (m : Matching) :
    targets system m = m.entities.map fun e => .one (m.bind e) := by
  cases hb : system.behaviour with
  | perEntity invoke =>
    simp only [targets, hb]
    exact List.map_map ..
  | batch invoke =>
    simp only [System.isBatch, hb] at h
    cases h

/-- The runs that an offer makes when the event fits and everything is bound. -/
theorem runs_of_prepared {roster : Roster} {world : World} {event : Event} {system : System}
    {groups : List (String × Binding)} {m : Matching} (hs : system.isBatch = false)
    (hm : system.declaration.event.mismatch? event = none)
    (hp : Progress.prepare world.store system event = .ok (groups, m)) :
    (offerSteps roster event world system).filter Step.isCall =
      callSteps system ⟨event, groups, roster⟩ world (m.entities.map fun e => .one (m.bind e)) := by
  simp only [offerSteps, hm, hp, targets_of_perEntity hs]
  rw [List.filter_cons_of_neg (by simp [Step.isCall]), List.filter_eq_self.mpr callSteps_isCall]

/-- The systems change the store only by writes and removals in the arrays. -/
def Edit (registry : Registry) : Prop :=
  ∀ c, Registered registry c → ∃ h, c.before.store.Edits h c.outcome.state.store

/-- Scripts do. -/
theorem Scripted.edit {programs : System → Program} {registry : Registry}
    (hp : Scripted programs registry) : Edit registry :=
  fun _ hc => ⟨_, (call_rewrites hp hc).edits⟩

/-- The store that an event finds is built as the first one was. -/
theorem built_before {registry : Registry} {roster : Roster} {limit : Nat} {world : World}
    {event : Event} (hs : world.store.Built) (he : Edit registry) {before after : List Step}
    (h : (rounds registry roster limit world event).flatten = before ++ after) :
    (leave world before).store.Built := by
  have ht := rounds_threaded registry roster limit world event
  rw [h] at ht
  refine (threaded_append.mp ht).1.leave ?_ hs
  intro c hc hb
  obtain ⟨_, hedits⟩ := he c hc
  exact hb.edited hedits

end Dispatch

/-- The entity has all of some named components. -/
def Store.HasAll (s : Store) (e : Entity) (names : List String) : Prop :=
  ∀ name ∈ names, ∃ id, s.id? name = some id ∧ s.has e id = true

/-- A matching by names has the entities that have all of the named components. -/
theorem Matching.Columns.mem_iff {s : Store} {names : List String} {m : Matching}
    (hc : m.Columns s names) (hm : m.Intersects s) (e : Entity) :
    e ∈ m.entities ↔ names ≠ [] ∧ s.HasAll e names := by
  rw [hm.mem, ← hc.names]
  refine and_congr (by simp [Matching.names]) ?_
  simp only [Store.HasAll, Matching.names, List.forall_mem_map]
  refine forall₂_congr fun column hcolumn => ?_
  simp [hc.ids column hcolumn]

/-- A matching is the intersection of its arrays, in ascending order, wherever it starts and in
whatever order they are listed. Each binding refers to every array in the order of the list, and
reads what is there after any later changes. A system that is run for one entity at a time is run
for exactly the entities that have all of its components when the event reaches it, once for each
and in ascending order. -/
theorem Store.Built.matches_exactly {s : Store} (hs : s.Built) :
    (∀ columns : List (ComponentId × String),
      let m := Matching.scan s columns
      m.Intersects s ∧
        (∀ column ∈ columns, m.entities = (Matching.entitiesWith s column.1).filter fun e =>
          columns.all fun other => s.has e other.1) ∧
        (∀ columns' : List (ComponentId × String),
          (∀ id, id ∈ columns.map Prod.fst ↔ id ∈ columns'.map Prod.fst) →
            (Matching.scan s columns').entities = m.entities) ∧
        (∀ i, m.bindings[i]? = m.get? i ∧ m.get? i = m.entities[i]?.map fun e =>
          ⟨e, columns.map fun (id, name) => ⟨e, id, name⟩⟩) ∧
        ∀ h t, s.Edits h t → m.bindings.map (fun b => (b.entity, b.refs.map fun r => r.get? t)) =
          m.entities.map fun e => (e, columns.map fun column => t.at? e column.1)) ∧
      ∀ (registry : Registry) (roster : Roster) (random : Random) (limit : Nat)
        (first event : Event)
        (before after : List Dispatch.Step) (system : System) (groups : List (String × Binding))
        (m : Matching), Dispatch.Edit registry →
        (Dispatch.rounds registry roster limit ⟨s, random⟩ first).flatten =
          before ++ .offered event system :: after →
        system.isBatch = false → system.declaration.components ≠ [] →
        system.declaration.event.mismatch? event = none →
        let here := Dispatch.leave ⟨s, random⟩ before
        Progress.prepare here.store system event = .ok (groups, m) →
          (m.entities.Pairwise fun a b => a.index < b.index) ∧
            (∀ e, e ∈ m.entities ↔ here.store.HasAll e system.declaration.components) ∧
            after.takeWhile Dispatch.Step.isCall =
              Dispatch.callSteps system ⟨event, groups, roster⟩ here
                (m.entities.map fun e => .one (m.bind e)) := by
  refine ⟨fun columns => ?_, ?_⟩
  · have hm := Matching.scan_intersects hs.tidy columns
    exact ⟨hm, fun column hc => Matching.scan_eq_filter hs.tidy hc,
      fun columns' h => (Matching.scan_congr hs.tidy h).symm,
      fun i => ⟨Matching.getElem?_bindings _ i, rfl⟩, fun h t _ => Matching.bindings_read _ t⟩
  · intro registry roster random limit first event before after system groups m hedit hsplit
      hbatch hne hmismatch here hprepare
    have hbuilt := Dispatch.built_before hs hedit hsplit
    obtain ⟨_, _, h⟩ := Result.bind_eq_ok.mp hprepare
    obtain ⟨_, hof, h⟩ := Result.bind_eq_ok.mp h
    cases h
    have hm : m.Intersects here.store := by
      rw [Matching.of_eq_scan hof]
      exact Matching.scan_intersects hbuilt.tidy _
    have hmem := (Matching.of_ok hof).1.mem_iff hm
    refine ⟨hm.ascending, fun e => by rw [hmem e, and_iff_right hne], ?_⟩
    exact ((Dispatch.rounds_answered registry limit first).runs before event system after
      hsplit).trans (Dispatch.runs_of_prepared hbatch hmismatch hprepare)

/-! ### A system that takes a component away -/

namespace Lull

def awake : ComponentDescription := .ofShape "Awake" (.basic .boolean)

def moving : ComponentDescription := { awake with name := "Moving", kind := .dense .value }

def mark (s : Store) (e : Entity) (id : ComponentId) : Store :=
  match s.add e id (.boolean true) with
  | .ok t => t
  | .error _ => s

theorem built_mark {s : Store} (hs : s.Built) (e : Entity) (id : ComponentId) :
    (mark s e id).Built := by
  unfold mark
  split
  · rename_i h
    exact hs.edited (.wrote h (.nil _))
  · exact hs

/-- The entities 0, 1 and 2 are awake, and of these 1 and 2 are moving. -/
def store : Store :=
  let s := (Store.register moving (Store.register awake {}).state).state
  mark (mark (mark (mark (mark s ⟨2⟩ ⟨0⟩) ⟨0⟩ ⟨0⟩) ⟨1⟩ ⟨0⟩) ⟨2⟩ ⟨1⟩) ⟨1⟩ ⟨1⟩

theorem built_store : store.Built := by
  have hregistered := Store.Built.empty.registered awake |>.registered moving
  exact built_mark (built_mark (built_mark (built_mark (built_mark hregistered ⟨2⟩ ⟨0⟩) ⟨0⟩ ⟨0⟩)
    ⟨1⟩ ⟨0⟩) ⟨2⟩ ⟨1⟩) ⟨1⟩ ⟨1⟩

/-- Whoever it is run for, it stops entity 2. -/
def still : System where
  declaration := ⟨"still", "e", ["Moving", "Awake", "Moving"], .tick⟩
  behaviour := .perEntity fun _ _ _ => World.onStore fun s =>
    match s.remove ⟨2⟩ ⟨1⟩ with
    | .ok (_, t) => ⟨.ok [], t, []⟩
    | .error err => ⟨.error err.message, s, []⟩

theorem edit_still : Dispatch.Edit (.ofSystems [still]) := by
  rintro ⟨system, target, context, w⟩ ⟨hm, _⟩
  cases List.mem_singleton.mp hm
  cases target with
  | all m => exact ⟨[], .nil w.store⟩
  | one b =>
    simp only [Dispatch.Call.outcome, Dispatch.invocation, World.onStore, Action.onPart]
    split
    · rename_i h
      exact ⟨_, .removed h (.nil _)⟩
    · exact ⟨[], .nil w.store⟩

def steps : List Dispatch.Step :=
  (Dispatch.rounds (.ofSystems [still]) {} 1 ⟨store, .lowest⟩ (.tick 0)).flatten

/-- Entity 2 is still visited when its turn comes. -/
theorem still_visits :
    let m := Matching.scan store [(⟨1⟩, "Moving"), (⟨0⟩, "Awake"), (⟨1⟩, "Moving")]
    m.entities = [⟨1⟩, ⟨2⟩] ∧
      (steps.drop 2).takeWhile Dispatch.Step.isCall =
        Dispatch.callSteps still ⟨.tick 0, [], {}⟩ ⟨store, .lowest⟩
          [.one (m.bind ⟨1⟩), .one (m.bind ⟨2⟩)] := by
  intro m
  have hmoving := (built_store.matches_exactly.1 m.components).2.1 (⟨1⟩, "Moving")
    (List.mem_cons_self ..)
  have hentities : m.entities = [⟨1⟩, ⟨2⟩] := hmoving.trans (by decide)
  refine ⟨hentities, ?_⟩
  have hvisits := built_store.matches_exactly.2 (.ofSystems [still]) {} .lowest 1 (.tick 0)
    (.tick 0) [.delivered (.tick 0)] (steps.drop 2) still [] m edit_still rfl rfl (by decide)
    (by rfl) rfl
  rw [hvisits.2.2, hentities]
  rfl

end Lull
end SceneScript
