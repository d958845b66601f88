import SceneScript.Proofs.Component.Combination
import SceneScript.Proofs.Scene.Reachable
import SceneScript.Proofs.Scene.Steps
import SceneScript.Proofs.Script.Loaded
import SceneScript.Proofs.Script.Places

/-! # Scripts keep the structure of a scene

While scripts handle an event, nobody is born or dies, nobody gains or loses a component, and no
value changes its type. Only values of components that a listener names can change, and whoever a
later event is about is alive.
-/
namespace SceneScript

/-- A listener is prepared for places of the components that it needs, and for no others. -/
theorem Progress.prepare_reached {store : Store} {system : System} {event : Event}
    {groups : List (String × Binding)} {m : Matching}
    (h : Progress.prepare store system event = .ok (groups, m)) (e : Entity) (roster : Roster) :
    ∀ r ∈ Script.reached (m.bind e) ⟨event, groups, roster⟩,
      ∃ name ∈ system.needs, store.id? name = some r.component := by
  obtain ⟨bound, hbound, h⟩ := Result.bind_eq_ok.mp h
  obtain ⟨matching, hmatching, h⟩ := Result.bind_eq_ok.mp h
  cases h
  intro r hr
  rcases List.mem_append.mp hr with hm | hm
  · obtain ⟨_, hname, hid⟩ := (Matching.of_ok hmatching).1.mem_refs hm
    exact ⟨r.name, List.mem_append_left _ hname, hid⟩
  · obtain ⟨group, hg, hr⟩ := List.mem_flatMap.mp hm
    obtain ⟨⟨declared, carried⟩, hz, hgroup⟩ := Result.mem_of_mapM hbound hg
    obtain ⟨b, hb, hgroup⟩ := Result.bind_eq_ok.mp hgroup
    cases hgroup
    obtain ⟨name, hname, href⟩ := (Binding.of_ok hb).2 r hr
    have hid := (Binding.refTo_ok href).2
    have hdeclared := (List.of_mem_zip hz).1
    exact ⟨name, List.mem_append_right _ (List.mem_flatMap.mpr ⟨declared, hdeclared, hname⟩), hid⟩

namespace Dispatch

/-- Loaded systems run the scripts behind them. -/
theorem exists_scripted {registry : Registry}
    (h : ∀ system ∈ registry.systems, Script.IsLoaded system) :
    ∃ programs, Scripted programs registry := by
  have hprogram : ∀ system, ∃ p : Program,
      system ∈ registry.systems → system = p.system system.declaration := by
    intro system
    by_cases hm : system ∈ registry.systems
    · obtain ⟨config, body, hloaded⟩ := Script.isLoaded_iff.mp (h system hm)
      exact ⟨⟨config, body⟩, fun _ => hloaded.runs⟩
    · exact ⟨⟨{}, .mk .block "" 0 0 []⟩, fun hm' => absurd hm' hm⟩
  choose programs hprograms using hprogram
  exact ⟨programs, hprograms⟩

section
variable {programs : System → Program} {registry : Registry} {roster : Roster}
  {I : Store → Prop} {c : Call}

/-- What a prepared run of a script comes down to. -/
theorem Prepared.execute (hp : Scripted programs registry) (h : Prepared registry roster I c) :
    ∃ config body store m e, I store ∧
      Progress.prepare store c.system c.context.event = .ok (c.context.groups, m) ∧
      c.outcome = ((Script.execute config body c.system.declaration (m.bind e) c.context).mapError
        Script.RuntimeError.message) c.before := by
  obtain ⟨store, m, hi, hprepare, ht⟩ := h.bound
  obtain ⟨e, _, _, hout⟩ := hp.outcome_eq (List.mem_of_mem_filter h.listens) ht
  exact ⟨_, _, store, m, e, hi, hprepare, hout⟩

/-- A run that changes a place changes one of a component that its system needs. -/
theorem Prepared.needs (hp : Scripted programs registry) (h : Prepared registry roster I c)
    {e : Entity} {id : ComponentId}
    (hne : c.outcome.state.store.at? e id ≠ c.before.store.at? e id) :
    ∃ store, I store ∧ ∃ name ∈ c.system.needs, store.id? name = some id := by
  obtain ⟨config, body, store, m, target, hi, hprepare, hout⟩ := h.execute hp
  by_contra hnone
  push Not at hnone
  apply hne
  rw [hout]
  refine Script.execute_elsewhere config body _ (m.bind target) c.context c.before ?_
  rintro r hr ⟨-, hid⟩
  obtain ⟨name, hname, hr⟩ := Progress.prepare_reached hprepare target c.context.roster r hr
  exact hnone store hi name hname (hid ▸ hr)

/-- A run emits events for nobody but live entities. -/
theorem Prepared.live (hp : Scripted programs registry) (h : Prepared registry roster I c) :
    ∀ event ∈ c.emitted, ∀ e ∈ event.entities, roster.isAlive e = true := by
  obtain ⟨config, body, _, m, target, _, _, hout⟩ := h.execute hp
  intro event hm e he
  rw [← h.roster]
  unfold Call.emitted at hm
  rw [hout] at hm
  cases hr : (Script.execute config body c.system.declaration (m.bind target) c.context
      c.before).result with
  | error err => simp [Action.mapError, hr, Except.mapError] at hm
  | ok events =>
    simp only [Action.mapError, hr, Except.mapError] at hm
    exact Script.execute_live hr event hm e he

end

end Dispatch

namespace Scene
open Dispatch

/-- A dispatch to loaded scripts leaves who is alive, with which components, and the types of all
values as they are. A value that it changes is one of a component that a listener names in its
signature or in the groups of its event, and the events behind the first round are about live
entities. All this holds whatever numbers are drawn. -/
theorem send_structure {s : Scene} {h : List Change} (hs : s.Consistent h)
    (hl : ∀ system ∈ s.registry.systems, Script.IsLoaded system) {random : Random} {limit : Nat}
    {event : Event} {o : Outcome Error Scene Report} (ho : s.send? random limit event = some o) :
    let rs := rounds s.registry s.roster limit ⟨s.store, random⟩ event
    (∃ report, o.result = .ok report ∧ report.rounds = rs.length ∧
      report.events = (delivers rs.flatten).length) ∧
    o.state.roster = s.roster ∧
    o.state.store.catalog = s.store.catalog ∧
    (∀ e id, o.state.store.has e id = s.store.has e id) ∧
    (∀ e id, (o.state.store.at? e id).map Value.type = (s.store.at? e id).map Value.type) ∧
    (∀ e id, o.state.store.at? e id ≠ s.store.at? e id →
      ∃ sent ∈ delivers rs.flatten, ∃ system ∈ s.registry.listeners sent.name,
        ∃ name ∈ system.needs, s.store.id? name = some id) ∧
    ∀ round ∈ rs.tail, ∀ sent ∈ delivers round, ∀ e ∈ sent.entities, s.roster.isAlive e = true := by
  intro rs
  obtain ⟨programs, hp⟩ := exists_scripted hl
  obtain ⟨p, hd, rfl⟩ := Option.map_eq_some_iff.mp ho
  obtain ⟨cs, hdrained⟩ := drain_start hd
  have hstore : p.store = (leave ⟨s.store, random⟩ rs.flatten).store := dispatch_store hd
  -- the stores of the dispatch have the components of the first one, under the same numbers
  let I : Store → Prop := fun store => store.catalog = s.store.catalog
  have hstep : ∀ c, Prepared s.registry s.roster I c → I c.before.store → I c.outcome.state.store :=
    fun c hc hi => (call_rewrites hp hc.registered).catalog_eq.trans hi
  have hthread : Threaded (Prepared s.registry s.roster I) ⟨s.store, random⟩ rs.flatten :=
    rounds_prepared hstep rfl limit event
  have hrewrites := steps_rewrite hp (hthread.imp fun _ hc => hc.registered)
  have hhas := hrewrites.has_eq
  refine ⟨⟨p.report, rfl, ?_, ?_⟩, rfl, ?_, ?_, ?_, ?_, ?_⟩
  · rw [hdrained.progress]
    simp [Progress.record, Progress.addRounds, rs]
  · rw [hdrained.progress]
    simp [Progress.record, Progress.addRounds, rs]
  · exact (congrArg Store.catalog hstore).trans hrewrites.catalog_eq
  · intro e id
    rw [← hhas e id, ← hstore]
  · intro e id
    have htype := Store.type_at?_congr hs.sound (hrewrites.sound hs.sound) (hrewrites.form?_eq id)
      (hhas e id)
    rw [← htype, ← hstore]
  · intro e id hne
    have hchanged : (leave ⟨s.store, random⟩ rs.flatten).store.at? e id ≠ s.store.at? e id :=
      hstore ▸ hne
    obtain ⟨c, hm, hc, hcall⟩ := hthread.changed (fun store => store.at? e id) hchanged
    obtain ⟨store, hi, name, hname, hid⟩ := hc.needs hp hcall
    refine ⟨c.context.event, rounds_heard _ _ _ _ _ c hm, c.system, hc.listens, name, hname, ?_⟩
    rwa [Store.id?_congr hi] at hid
  · intro round hround sent hsent e he
    have hshift : rs.map delivers ++ [[]] = [event] :: rs.map emits := hdrained.shift
    obtain ⟨first, rest, hrs⟩ : ∃ first rest, rs = first :: rest := by
      cases hrs : rs with
      | nil => simp [hrs] at hround
      | cons first rest => exact ⟨first, rest, rfl⟩
    -- a later round delivers what the runs of the round in front of it emitted
    have hemitted : delivers round ∈ rs.map emits := by
      rw [hrs, List.map_cons, List.cons_append] at hshift
      rw [hrs, ← (List.cons.inj hshift).2]
      rw [hrs, List.tail_cons] at hround
      exact List.mem_append_left _ (List.mem_map_of_mem hround)
    obtain ⟨earlier, hearlier, heq⟩ := List.mem_map.mp hemitted
    rw [← heq] at hsent
    obtain ⟨step, hstepm, hsent⟩ := List.mem_flatMap.mp hsent
    cases step with
    | called c =>
      have hc := hthread.of_mem (List.mem_flatten.mpr ⟨earlier, hearlier, hstepm⟩)
      exact hc.live hp sent hsent e he
    | _ => cases hsent

/-- Two systems that rename an entity one after the other. -/
def renames : String :=
  "system a(e<Tag>) event Ping\n e.Tag.name=\"b\"\n emitTo(\"Pong\",1,e)\n" ++
    "system b(e<Tag>) event Pong(o<Tag>,Integer n)\n o.Tag.name=\"c\"\n"

/-- A scene with some systems and one entity, which has a name. -/
def inhabited (systems : List System) : Scene :=
  let s := (registerComponent .initial "Tag" { name := "", registry := .ofSystems systems }).state
  (addComponent ⟨0⟩ "Tag" (tagValue "a") (createEntity s).state).state

theorem inhabited_consistent (systems : List System) :
    (inhabited systems).Consistent [.wrote ⟨0⟩ ⟨0⟩ (tagValue "a")] := by
  have h₀ : Consistent { name := "", registry := .ofSystems systems } [] :=
    ⟨Store.Sound.empty, Roster.tidy_empty, fun _ _ => rfl⟩
  have h₁ := createEntity_preserves _ _ (registerComponent_preserves .initial "Tag" _ _ h₀)
  exact addComponent_records ⟨0⟩ "Tag" (tagValue "a") _ _ h₁

theorem renames_structure :
    ∃ systems o, (Script.loadSource {} "renames" renames .initial).result = .ok systems ∧
      (inhabited systems).send? .lowest 3 ⟨"Ping", .void, []⟩ = some o ∧
      (o.state.store.at? ⟨0⟩ ⟨0⟩ == some (tagValue "c")) = true ∧
      (o.state.store.at? ⟨0⟩ ⟨0⟩).map Value.type = some (.record [("name", .string)]) ∧
      o.state.roster.hasComponent ⟨0⟩ ⟨0⟩ = true ∧ o.state.store.has ⟨0⟩ ⟨0⟩ = true ∧
      ∃ round ∈ (rounds (.ofSystems systems) (inhabited systems).roster 3
          ⟨(inhabited systems).store, .lowest⟩ ⟨"Ping", .void, []⟩).tail,
        ∃ sent ∈ delivers round, sent.entities = [⟨0⟩] ∧
          (inhabited systems).roster.isAlive ⟨0⟩ = true := by
  have hrun : (match (Script.loadSource {} "renames" renames .initial).result with
      | .ok systems =>
        match (inhabited systems).send? .lowest 3 ⟨"Ping", .void, []⟩ with
        | some o => o.state.store.at? ⟨0⟩ ⟨0⟩ == some (tagValue "c") &&
          (rounds (.ofSystems systems) (inhabited systems).roster 3
            ⟨(inhabited systems).store, .lowest⟩ ⟨"Ping", .void, []⟩).tail.any fun round =>
              (delivers round).any fun sent => sent.entities == [⟨0⟩]
        | none => false
      | .error _ => false) = true := by
    decide +kernel
  split at hrun
  · rename_i systems hload
    split at hrun
    · rename_i o ho
      obtain ⟨hvalue, hround⟩ := Bool.and_eq_true_iff.mp hrun
      obtain ⟨round, hround, hsent⟩ := List.any_eq_true.mp hround
      obtain ⟨sent, hsent, hentities⟩ := List.any_eq_true.mp hsent
      have hentities : sent.entities = [⟨0⟩] := by simpa using hentities
      have hloaded : ∀ system ∈ (Registry.ofSystems systems).systems, Script.IsLoaded system := by
        rw [Registry.systems_ofSystems]
        exact fun system hs => ⟨{}, "renames", renames, .initial, systems, hload, hs⟩
      obtain ⟨-, hroster, -, hhas, htype, -, hlive⟩ :=
        send_structure (inhabited_consistent systems) hloaded ho
      refine ⟨systems, o, hload, ho, hvalue, htype ⟨0⟩ ⟨0⟩, ?_, hhas ⟨0⟩ ⟨0⟩, round, hround, sent,
        hsent, hentities, ?_⟩
      · rw [hroster]
        rfl
      · exact hlive round hround sent hsent ⟨0⟩ (by rw [hentities]; exact List.mem_singleton_self _)
    · cases hrun
  · cases hrun

end Scene
end SceneScript
