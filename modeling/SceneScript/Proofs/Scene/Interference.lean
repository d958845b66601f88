import SceneScript.Proofs.Scene.Reachable
import SceneScript.Proofs.Script.Loaded
import SceneScript.Proofs.Script.Places
import SceneScript.Proofs.Script.Twins

/-! # Entities do not interfere

The runs of one script system for its matched entities have nothing to do with each other: each does
what it would do alone. So it does not matter in which order the entities are visited, as long as
the event has no groups through which a run could reach another entity, and no numbers are drawn.
-/
namespace SceneScript

/-- As far as some entities are concerned, nothing has changed. -/
structure Store.Untouched (s : Store) (entities : List Entity) (s' : Store) : Prop where
  catalog : s'.catalog = s.catalog
  forms : ∀ id, s'.form? id = s.form? id
  values : ∀ e ∈ entities, ∀ id, s'.at? e id = s.at? e id

theorem Store.untouched_self (s : Store) (entities : List Entity) : s.Untouched entities s :=
  ⟨rfl, fun _ => rfl, fun _ _ _ => rfl⟩

theorem Store.Untouched.holding {s s' : Store} {entities : List Entity}
    (h : s.Untouched entities s') {e : Entity} (he : e ∈ entities) (name : String) :
    s'.holding? e name = s.holding? e name := by
  simp only [holding?, id?_congr h.catalog, h.forms, h.values e he]

namespace Script
variable {config : Config} {body : Node} {d : Declaration} {m : Matching} {c : EventContext}
  {s s' : Store} {random random' : Random}

/-- Without groups a run changes components of its own entity, and of these only the ones that the
entity is matched by. -/
theorem execute_own (hm : m.Columns s d.components) (hgroups : c.groups = []) {e e' : Entity}
    {id : ComponentId} (hne : ¬(e' = e ∧ ∃ name ∈ d.components, s.id? name = some id)) :
    (execute config body d (m.bind e) c ⟨s, random⟩).state.store.at? e' id = s.at? e' id := by
  refine execute_elsewhere config body d (m.bind e) c ⟨s, random⟩ ?_
  rintro r hr ⟨he, hid⟩
  rw [reached, hgroups, List.flatMap_nil, List.append_nil] at hr
  obtain ⟨hentity, hname, hnumber⟩ := hm.mem_refs hr
  exact hne ⟨he.symm.trans hentity, r.name, hname, hid ▸ hnumber⟩

/-- A run in a store that is untouched for its entity does what it does in the first store, and
leaves the store untouched for the others, whatever numbers there are to draw. -/
theorem execute_untouched (hbody : "randint" ∉ body.callees) (hlinked : s.Linked)
    (hm : m.Columns s d.components) (hgroups : c.groups = []) {e : Entity} {rest : List Entity}
    (hrest : e ∉ rest) (hs : s.Untouched (e :: rest) s') :
    let o := execute config body d (m.bind e) c ⟨s', random'⟩
    let o' := execute config body d (m.bind e) c ⟨s, random⟩
    o.result = o'.result ∧ o.log = o'.log ∧
      (∀ id, o.state.store.at? e id = o'.state.store.at? e id) ∧
      (∀ e' id, e' ≠ e → o.state.store.at? e' id = s'.at? e' id) ∧
      s.Untouched rest o.state.store := by
  intro o o'
  have hm' := hm.congr hs.catalog
  have hwrites := execute_rewrites config body d (m.bind e) c ⟨s', random'⟩
  have hwrites' := execute_rewrites config body d (m.bind e) c ⟨s, random⟩
  have hself := List.mem_cons_self (a := e) (l := rest)
  obtain ⟨hresult, hlog, hagree⟩ := execute_twins hbody (hlinked.congr hs.catalog) hlinked hm' hm
    hgroups hgroups rfl rfl (fun name _ => hs.holding hself name) config random' random
  have hother : ∀ e' id, e' ≠ e → o.state.store.at? e' id = s'.at? e' id :=
    fun e' id hne => execute_own hm' hgroups fun hsame => hne hsame.1
  refine ⟨hresult, hlog, fun id => ?_, hother, ?_⟩
  · by_cases hid : ∃ name ∈ d.components, s.id? name = some id
    · obtain ⟨name, hname, hid⟩ := hid
      have hid₁ : o.state.store.id? name = some id := by
        rw [Store.id?_congr hwrites.catalog_eq, Store.id?_congr hs.catalog, hid]
      have hid₂ : o'.state.store.id? name = some id := by
        rw [Store.id?_congr hwrites'.catalog_eq, hid]
      exact Store.at?_of_holding? hid₁ hid₂ (hagree name hname)
    · have hid' : ¬∃ name ∈ d.components, s'.id? name = some id := by
        simpa only [Store.id?_congr hs.catalog] using hid
      have hkept : o.state.store.at? e id = s'.at? e id := execute_own hm' hgroups fun h => hid' h.2
      have hkept' : o'.state.store.at? e id = s.at? e id := execute_own hm hgroups fun h => hid h.2
      rw [hkept, hkept', hs.values e hself id]
  · refine ⟨hwrites.catalog_eq.trans hs.catalog, fun id => ?_, fun e' he' id => ?_⟩
    · exact (hwrites.form?_eq id).trans (hs.forms id)
    · have hne : e' ≠ e := fun heq => hrest (heq ▸ he')
      exact (hother e' id hne).trans (hs.values e' (List.mem_cons_of_mem _ he') id)

end Script

namespace Dispatch

/-- The run of a system for one of the matched entities. -/
def visit (system : System) (m : Matching) (c : EventContext) (w : World) (e : Entity) : Call :=
  ⟨system, .one (m.bind e), c, w⟩

/-- The runs of a system for some of the matched entities, one after the other. -/
def visits (system : System) (m : Matching) (c : EventContext) (w : World)
    (order : List Entity) : List Step :=
  callSteps system c w (order.map fun e => .one (m.bind e))

theorem visits_cons (system : System) (m : Matching) (c : EventContext) (w : World) (e : Entity)
    (rest : List Entity) :
    visits system m c w (e :: rest) = .called (visit system m c w e) ::
      visits system m c (visit system m c w e).outcome.state rest := rfl

/-- Runs that answer and log the same count the same in a dispatch. -/
theorem visit_congr {system : System} {m : Matching} {c : EventContext} {w w' : World} {e : Entity}
    (hresult : (visit system m c w e).outcome.result = (visit system m c w' e).outcome.result)
    (hlog : (visit system m c w e).outcome.log = (visit system m c w' e).outcome.log) :
    (visit system m c w e).emitted = (visit system m c w' e).emitted ∧
      (visit system m c w e).failed = (visit system m c w' e).failed ∧
      (visit system m c w e).log = (visit system m c w' e).log := by
  refine ⟨?_, ?_, ?_⟩
  · rw [Call.emitted, Call.emitted, hresult]
  · rw [Call.failed, Call.failed, hresult]
  · rw [Call.log, Call.log, hresult, hlog]
    rfl

section
variable (config : Script.Config) {body : Script.Node} {d : Declaration} {m : Matching}
  {c : EventContext} {s : Store} (random : Random)

/-- Every visit is what it would be if it were the only one. -/
theorem visits_alone (hbody : "randint" ∉ body.callees) (hlinked : s.Linked)
    (hm : m.Columns s d.components) (hgroups : c.groups = []) {order : List Entity}
    (horder : order.Nodup) {w : World} (hs : s.Untouched order w.store) :
    let system := Script.systemOf config body d
    emits (visits system m c w order) =
        order.flatMap (fun e => (visit system m c ⟨s, random⟩ e).emitted) ∧
      (visits system m c w order).flatMap Step.log =
        order.flatMap (fun e => (visit system m c ⟨s, random⟩ e).log) ∧
      (visits system m c w order).countP Step.isFailure =
        order.countP (fun e => (visit system m c ⟨s, random⟩ e).failed) ∧
      (∀ e ∈ order, ∀ id, (leave w (visits system m c w order)).store.at? e id =
        (visit system m c ⟨s, random⟩ e).outcome.state.store.at? e id) ∧
      ∀ e, e ∉ order → ∀ id,
        (leave w (visits system m c w order)).store.at? e id = w.store.at? e id := by
  intro system
  induction order generalizing w with
  | nil => exact ⟨rfl, rfl, rfl, by simp, fun _ _ _ => rfl⟩
  | cons e rest ih =>
    obtain ⟨hrest, hnodup⟩ := List.nodup_cons.mp horder
    obtain ⟨hresult, hlog, hown, hother, hnext⟩ :=
      Script.execute_untouched hbody hlinked hm hgroups hrest hs
    have hresult : (visit system m c w e).outcome.result =
        (visit system m c ⟨s, random⟩ e).outcome.result :=
      congrArg (Except.mapError Script.RuntimeError.message) hresult
    obtain ⟨hemitted, hfailed, hlogged⟩ := visit_congr hresult hlog
    have hstate : (visit system m c w e).outcome.state =
        (Script.execute config body d (m.bind e) c w).state := rfl
    rw [← hstate] at hown hother hnext
    obtain ⟨hemits, hlogs, hfailures, hvalues, hkept⟩ := ih hnodup hnext
    rw [visits_cons]
    refine ⟨?_, ?_, ?_, ?_, ?_⟩
    · rw [emits_cons, hemits, List.flatMap_cons, ← hemitted]
      rfl
    · rw [List.flatMap_cons, hlogs, List.flatMap_cons, ← hlogged]
      rfl
    · rw [List.countP_cons, hfailures, List.countP_cons, ← hfailed]
      rfl
    · intro x hx id
      rw [leave_cons]
      rcases List.mem_cons.mp hx with rfl | hx
      · exact (hkept x hrest id).trans (hown id)
      · exact hvalues x hx id
    · intro x hx id
      rw [leave_cons]
      rw [List.mem_cons, not_or] at hx
      exact (hkept x hx.2 id).trans (hother x id hx.1)

/-- The loop over the matched entities in any order: what it emits, logs and counts comes entity by
entity from the visits alone, and so do the values that it leaves. -/
theorem invokeEach_alone (hbody : "randint" ∉ body.callees) (hlinked : s.Linked)
    (hm : m.Columns s d.components) (hgroups : c.groups = []) {order : List Entity}
    (horder : order.Nodup) {p : Progress} (hs : p.store = s) :
    let system := Script.systemOf config body d
    let visited := p.invokeEach system
      (fun b => (Script.execute config body d b c).mapError Script.RuntimeError.message)
      (order.map m.bind)
    visited.1 = order.flatMap (fun e => (visit system m c ⟨s, random⟩ e).emitted) ∧
      visited.2.log = p.log ++ order.flatMap (fun e => (visit system m c ⟨s, random⟩ e).log) ∧
      visited.2.report.failures =
        p.report.failures + order.countP (fun e => (visit system m c ⟨s, random⟩ e).failed) ∧
      (∀ e ∈ order, ∀ id,
        visited.2.store.at? e id = (visit system m c ⟨s, random⟩ e).outcome.state.store.at? e id) ∧
      ∀ e, e ∉ order → ∀ id, visited.2.store.at? e id = s.at? e id := by
  intro system visited
  subst hs
  have hvisited : visited = (emits (visits system m c p.toWorld order),
      p.record (visits system m c p.toWorld order)) := by
    have heq := @Progress.invokeEach_eq p system c _ rfl (order.map m.bind)
    rwa [List.map_map] at heq
  obtain ⟨hemits, hlogs, hfailures, hvalues, hkept⟩ :=
    visits_alone config random hbody hlinked hm hgroups horder (Store.untouched_self p.store order)
  rw [hvisited]
  exact ⟨hemits, congrArg (p.log ++ ·) hlogs, congrArg (p.report.failures + ·) hfailures, hvalues,
    hkept⟩

end

theorem prepare_ungrouped {system : System} {event : Event} {groups : List (String × Binding)}
    {m : Matching} {s : Store} (hgroups : system.declaration.event.groups = [])
    (hp : Progress.prepare s system event = .ok (groups, m)) :
    groups = [] ∧ Matching.of s system.declaration.components = .ok m := by
  obtain ⟨bound, hbound, hp⟩ := Result.bind_eq_ok.mp hp
  obtain ⟨matching, hmatching, hp⟩ := Result.bind_eq_ok.mp hp
  cases hp
  rw [EventDescription.bindGroups, hgroups, List.zip_nil_left] at hbound
  cases hbound
  exact ⟨rfl, hmatching⟩

/-- A loaded system whose event has no groups and whose body draws no numbers treats every entity by
itself, in any store whose names lead to its components. A run changes components of its own entity
that the entity is matched by, and no others. Its answer, its log and what it leaves in these
components depend on them, the payload and the roster alone, and on no source of numbers. So in
whatever order the entities are visited, each visit does what it would do as the only one, and the
same values are left. -/
theorem loaded_isolated {config : Script.Config} {body : Script.Node} {system : System}
    (hl : Script.Loaded config body system) (hgroups : system.declaration.event.groups = [])
    (hbody : "randint" ∉ body.callees) {s : Store} (hs : s.Linked) {event : Event}
    {groups : List (String × Binding)} {m : Matching}
    (hp : Progress.prepare s system event = .ok (groups, m)) (roster : Roster)
    (random : Random) :
    let c : EventContext := ⟨event, groups, roster⟩
    let run := fun b => (Script.execute config body system.declaration b c).mapError
      Script.RuntimeError.message
    (∀ e e' id, ¬(e' = e ∧ ∃ name ∈ system.declaration.components, s.id? name = some id) →
      (visit system m c ⟨s, random⟩ e).outcome.state.store.at? e' id = s.at? e' id) ∧
    (∀ t event' groups' m', t.Linked → Progress.prepare t system event' = .ok (groups', m') →
      event.payload = event'.payload → ∀ e,
        (∀ name ∈ system.declaration.components, s.holding? e name = t.holding? e name) →
          ∀ random',
            let o := Script.execute config body system.declaration (m.bind e) c ⟨s, random⟩
            let o' := Script.execute config body system.declaration (m'.bind e)
              ⟨event', groups', roster⟩ ⟨t, random'⟩
            o.result = o'.result ∧ o.log = o'.log ∧
              ∀ name ∈ system.declaration.components,
                o.state.store.holding? e name = o'.state.store.holding? e name) ∧
    ∀ order : List Entity, order.Nodup → ∀ p : Progress, p.store = s →
      let visited := fun order : List Entity => p.invokeEach system run (order.map m.bind)
      (visited order).1 = order.flatMap (fun e => (visit system m c ⟨s, random⟩ e).emitted) ∧
      (visited order).2.log =
        p.log ++ order.flatMap (fun e => (visit system m c ⟨s, random⟩ e).log) ∧
      (visited order).2.report.failures =
        p.report.failures + order.countP (fun e => (visit system m c ⟨s, random⟩ e).failed) ∧
      (∀ e ∈ order, ∀ id, (visited order).2.store.at? e id =
        (visit system m c ⟨s, random⟩ e).outcome.state.store.at? e id) ∧
      (∀ e, e ∉ order → ∀ id, (visited order).2.store.at? e id = s.at? e id) ∧
      ∀ order', order'.Perm order → ∀ e id,
        (visited order').2.store.at? e id = (visited order).2.store.at? e id := by
  intro c run
  obtain ⟨hbound, hmatching⟩ := prepare_ungrouped hgroups hp
  have hruns := hl.runs
  generalize system.declaration = d at *
  subst hruns
  have hm := (Matching.of_ok hmatching).1
  have hc : c.groups = [] := hbound
  refine ⟨fun e e' id => Script.execute_own hm hc, ?_, ?_⟩
  · intro t event' groups' m' ht hp' hpayload e hagree random'
    obtain ⟨hbound', hmatching'⟩ := prepare_ungrouped hgroups hp'
    have hc' : (⟨event', groups', roster⟩ : EventContext).groups = [] := hbound'
    exact Script.execute_twins hbody hs ht hm (Matching.of_ok hmatching').1 hc hc' hpayload rfl
      hagree config random random'
  · intro order horder p hp visited
    obtain ⟨hemits, hlogs, hfailures, hvalues, hkept⟩ :=
      invokeEach_alone config random hbody hs hm hc horder hp
    refine ⟨hemits, hlogs, hfailures, hvalues, hkept, fun order' hperm e id => ?_⟩
    obtain ⟨-, -, -, hvalues', hkept'⟩ :=
      invokeEach_alone config random hbody hs hm hc (hperm.nodup_iff.mpr horder) hp
    by_cases he : e ∈ order
    · exact (hvalues' e (hperm.mem_iff.mpr he) id).trans (hvalues e he id).symm
    · have he' : e ∉ order' := fun hm => he (hperm.mem_iff.mp hm)
      exact (hkept' e he' id).trans (hkept e he id).symm

/-- A system that lengthens the name of every entity. -/
def shouts : String := "system s(e<Tag>)\n e.Tag.name=e.Tag.name+\"!\"\n"

/-- A store with names and nothing else. -/
def nameStore (entries : Table Entity Value) : Store :=
  ⟨[("Tag", ⟨0⟩)], [⟨.tag, ⟨.record [("name", .string)], .table entries⟩⟩]⟩

theorem linked_nameStore (entries : Table Entity Value) : (nameStore entries).Linked :=
  (Store.linked_empty.register .tag).congr rfl

def twoNames : Store := nameStore [(⟨0⟩, Scene.tagValue "a"), (⟨1⟩, Scene.tagValue "b")]

def oneName : Store := nameStore [(⟨0⟩, Scene.tagValue "a")]

theorem shouts_isolated :
    ∃ body system m m', Script.Loaded {} body system ∧
      Progress.prepare twoNames system (.tick 0) = .ok ([], m) ∧ m.entities = [⟨0⟩, ⟨1⟩] ∧
      Progress.prepare oneName system (.tick 0) = .ok ([], m') ∧
      let c : EventContext := ⟨.tick 0, [], {}⟩
      let run := fun b => (Script.execute {} body system.declaration b c).mapError
        Script.RuntimeError.message
      let visited := fun order : List Entity =>
        Progress.invokeEach { store := twoNames, random := .lowest } system run (order.map m.bind)
      (visit system m c ⟨twoNames, .lowest⟩ ⟨0⟩).outcome.state.store.at? ⟨1⟩ ⟨0⟩ =
          some (Scene.tagValue "b") ∧
      (Script.execute {} body system.declaration (m.bind ⟨0⟩) c ⟨twoNames, .lowest⟩).result =
        (Script.execute {} body system.declaration (m'.bind ⟨0⟩) c
          ⟨oneName, .lowest⟩).result ∧
      ∀ e id, (visited [⟨1⟩, ⟨0⟩]).2.store.at? e id = (visited [⟨0⟩, ⟨1⟩]).2.store.at? e id := by
  have hparsed : ((Script.Node.ofSource "shouts" shouts).toOption.all fun tree =>
      tree.children.all fun n =>
        (n.child? .block).all fun body => !body.callees.contains "randint") = true := by
    decide +kernel
  have hrun : ((Script.loadSource {} "shouts" shouts .initial).result.toOption.map
      (List.map fun system => (system.declaration.components, system.declaration.event.groups))) =
        some [(["Tag"], [])] := by
    decide +kernel
  cases hload : (Script.loadSource {} "shouts" shouts .initial).result with
  | error e =>
    rw [hload] at hrun
    cases hrun
  | ok systems =>
    rw [hload] at hrun
    obtain ⟨system, rfl, hsystem⟩ := List.map_eq_singleton_iff.mp (Option.some.inj hrun)
    obtain ⟨hcomponents, hgroups⟩ := Prod.mk.inj hsystem
    obtain ⟨tree, htree, hall⟩ := Script.loadSource_ok hload
    obtain ⟨n, hn, known, d, body, hparts, rfl⟩ := hall system (List.mem_singleton_self system)
    have hbody : "randint" ∉ body.callees := by
      rw [htree, Except.toOption, Option.all_some] at hparsed
      have hnode := List.all_eq_true.mp hparsed n hn
      rw [(Script.Node.systemParts_ok hparts).2] at hnode
      simpa using hnode
    have hl : Script.Loaded {} body (Script.systemOf {} body d) :=
      ⟨⟨"shouts", shouts, .initial, _, tree, n, hn, known, hload, List.mem_singleton_self _, htree,
        hparts⟩, rfl⟩
    obtain ⟨m, hm, hentities⟩ : ∃ m,
        Progress.prepare twoNames (Script.systemOf {} body d) (.tick 0) = .ok ([], m) ∧
          m.entities = [⟨0⟩, ⟨1⟩] := by
      simp only [Progress.prepare, EventDescription.bindGroups, hgroups, hcomponents]
      exact ⟨_, rfl, rfl⟩
    obtain ⟨m', hm'⟩ : ∃ m', Progress.prepare oneName (Script.systemOf {} body d) (.tick 0) =
        .ok ([], m') := by
      simp only [Progress.prepare, EventDescription.bindGroups, hgroups, hcomponents]
      exact ⟨_, rfl⟩
    obtain ⟨hown, htwins, horder⟩ := loaded_isolated hl hgroups hbody (linked_nameStore _) hm {}
      .lowest
    have hagree : ∀ name ∈ (Script.systemOf {} body d).declaration.components,
        twoNames.holding? ⟨0⟩ name = oneName.holding? ⟨0⟩ name := by
      intro name hname
      rw [hcomponents, List.mem_singleton] at hname
      rw [hname]
      rfl
    refine ⟨body, _, m, m', hl, hm, hentities, hm', ?_, ?_, ?_⟩
    · exact hown ⟨0⟩ ⟨1⟩ ⟨0⟩ (by simp)
    · exact (htwins oneName (.tick 0) [] m' (linked_nameStore _) hm' rfl ⟨0⟩ hagree .lowest).1
    · have hperm : [(⟨1⟩ : Entity), ⟨0⟩].Perm [⟨0⟩, ⟨1⟩] := List.Perm.swap ..
      exact (horder [⟨0⟩, ⟨1⟩] (by decide)
        { store := twoNames, random := .lowest } rfl).2.2.2.2.2 _ hperm

end Dispatch
end SceneScript
