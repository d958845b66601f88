import SceneScript.Proofs.Scene.Documents
import SceneScript.Proofs.Scene.Rebuild

/-! # Snapshots and back

A scene whose components and systems come from an index is rebuilt from its snapshot with that
index. What comes out tells the same: it has the same snapshot, the same entities are alive, and it
hands out the same numbers.
-/
namespace SceneScript

namespace Store

theorem mem_documentWrite {s : Store} {e e' : Entity} {name : String} {json : Json}
    {id : ComponentId} {v : Value} :
    .wrote e id v ∈ s.documentWrite e' name json ↔
      e' = e ∧ s.id? name = some id ∧
        ∃ c, s.get? id = some c ∧ Value.ofJson c.description.shape json = .ok v := by
  unfold documentWrite
  cases hn : s.id? name with
  | none => simp
  | some known =>
    simp only
    cases hc : s.get? known with
    | none =>
      simp only [Option.map_none, List.not_mem_nil, false_iff]
      rintro ⟨_, hid, c, hget, _⟩
      cases hid
      simp [hc] at hget
    | some c =>
      cases hv : Value.ofJson c.description.shape json with
      | error err =>
        simp only [Option.map_some, hv, List.not_mem_nil, false_iff]
        rintro ⟨_, hid, c', hget, hread⟩
        cases hid
        cases Option.some.inj (hc.symm.trans hget)
        simp [hv] at hread
      | ok w =>
        simp only [Option.map_some, hv, List.mem_singleton, Change.wrote.injEq]
        constructor
        · rintro ⟨rfl, rfl, rfl⟩
          exact ⟨rfl, rfl, c, hc, hv⟩
        · rintro ⟨rfl, hid, c', hget, hread⟩
          cases hid
          cases Option.some.inj (hc.symm.trans hget)
          exact ⟨rfl, rfl, Except.ok.inj (hread.symm.trans hv)⟩

end Store

namespace Snapshot

theorem mem_writes {snapshot : Snapshot} {s : Store} {e : Entity} {id : ComponentId} {v : Value} :
    .wrote e id v ∈ snapshot.writes s ↔
      ∃ documents, (e, documents) ∈ snapshot.components ∧
        ∃ name json, (name, json) ∈ documents ∧ s.id? name = some id ∧
          ∃ c, s.get? id = some c ∧ Value.ofJson c.description.shape json = .ok v := by
  simp only [writes, Store.documentWrites, List.mem_flatMap, Store.mem_documentWrite]
  constructor
  · rintro ⟨⟨e', documents⟩, he, ⟨name, json⟩, hm, rfl, hrest⟩
    exact ⟨documents, he, name, json, hm, hrest⟩
  · rintro ⟨documents, he, name, json, hm, hrest⟩
    exact ⟨(e, documents), he, (name, json), hm, rfl, hrest⟩

/-- A snapshot stands for writes and nothing else. -/
theorem wrote_of_mem_writes {snapshot : Snapshot} {s : Store} {c : Change}
    (h : c ∈ snapshot.writes s) : ∃ e id v, c = .wrote e id v := by
  obtain ⟨entry, _, h⟩ := List.mem_flatMap.mp h
  obtain ⟨document, _, h⟩ := List.mem_flatMap.mp h
  unfold Store.documentWrite at h
  split at h
  · cases h
  · split at h
    · exact ⟨_, _, _, List.mem_singleton.mp h⟩
    · cases h

end Snapshot

namespace Scene

/-- What a scene needs to be rebuilt from its snapshot with an index: its components and systems
are those of the index, and live entities have numbers within the limit and values that documents
can tell. -/
structure Persistable (s : Scene) (index : Index) : Prop where
  components : s.store.DrawnFrom index
  systems : ∀ system ∈ s.registry.systems, index.system? system.name = some system
  /-- The tables in the values are in order, as all operations on tables leave them. -/
  ordered : ∀ e ∈ s.roster.alive, ∀ c ∈ s.store.components, ∀ v ∈ c.array.get? e, v.Ordered
  finite : ∀ e ∈ s.roster.alive, ∀ c ∈ s.store.components, ∀ v ∈ c.array.get? e,
    ∀ x ∈ v.floats, x.isFinite = true
  limit : ∀ e ∈ s.roster.alive, e.id < Roster.limit
  /-- The counter has not run over the numbers that entities can have. -/
  counter : s.roster.nextId ≤ UInt32.size

variable {s : Scene} {index : Index} {origin : String} {h : List Change}

/-- The document of a value of a live entity is read as the canonical form of the value. -/
theorem Persistable.readsAs (hp : s.Persistable index) (hm : Steps { name := origin } h s)
    {e : Entity} (he : e ∈ s.roster.alive) {name : String} {v : Value}
    (hv : s.store.named? e name = some v) :
    ∃ d, ReadsAs index name v.toJson d v.canonical := by
  have hsound := hm.sound Store.Sound.empty
  have hregular := hm.regular Store.Regular.empty
  obtain ⟨id, c, hid, hc, hget⟩ := Store.named?_eq_some.mp hv
  have hname := hregular.linked.name_of_id? hid hc
  have hoffers := hp.components.component hc
  have hknown : index.component? name = some c.description := hname ▸ hoffers.known
  have hx := Store.exact_of_newArray hsound hregular hc hoffers.exact
  have htype : v.type = c.description.shape := hsound.typed id c hc hx e v hget
  have hmem : c ∈ s.store.components := List.mem_of_getElem? hc
  have hread := Value.ofJson_toJson_canonical (hp.ordered e he c hmem v hget)
    (hp.finite e he c hmem v hget)
  refine ⟨c.description, hknown, hoffers.exact, htype ▸ hread, ?_⟩
  rw [Value.type_canonical, htype]

theorem Persistable.snapshot_readable (hp : s.Persistable index)
    (hm : Steps { name := origin } h s) : s.snapshot.Readable index := by
  have hregular := hm.regular Store.Regular.empty
  have hlisted := hm.listed (listed_new origin)
  have hnumbered := hm.numbered Roster.numbered_empty hp.counter
  have hkeys : s.snapshot.components.map Prod.fst = s.roster.alive := by
    simp [snapshot, Function.comp_def]
  have hentry : ∀ entry ∈ s.snapshot.components,
      entry.1 ∈ s.roster.alive ∧ entry.2 = s.documentsOf entry.1 := fun entry he => by
    obtain ⟨e, halive, rfl⟩ := List.mem_map.mp he
    exact ⟨halive, rfl⟩
  refine ⟨?_, fun entry he => hp.limit _ (hentry entry he).1, fun entry he document hd => ?_,
    hlisted.linked.nodup, fun name hn => ?_, hlisted.scripts⟩
  · rw [hkeys]
    refine hnumbered.alive_ascending.imp fun {a b} hab => ?_
    rintro rfl
    simp at hab
  · obtain ⟨halive, hdocuments⟩ := hentry entry he
    rw [hdocuments] at hd
    obtain ⟨v, hv, hjson⟩ := (mem_documentsOf hregular).mp hd
    obtain ⟨d, hreads⟩ := hp.readsAs hm halive hv
    exact ⟨d, v.canonical, hjson ▸ hreads⟩
  · obtain ⟨system, hsystem, rfl⟩ := List.mem_map.mp hn
    refine ⟨system, hp.systems system hsystem, fun component hc => ?_⟩
    obtain ⟨id, hid⟩ := Option.isSome_iff_exists.mp (hlisted.needs system hsystem component hc)
    obtain ⟨c, hget, rfl⟩ := hregular.linked.component_of_id? hid
    have hoffers := hp.components.component hget
    exact ⟨c.description, hoffers.known, hoffers.exact⟩

/-- The writes that the snapshot stands for in a store with the components of the index are those of
the named values in canonical form. -/
theorem Persistable.mem_writes_iff (hp : s.Persistable index) (hm : Steps { name := origin } h s)
    {e : Entity} (he : e ∈ s.roster.alive) {t : Store} (ht : t.Linked) {id : ComponentId}
    {c : Component} (hid : t.id? c.name = some id) (hc : t.get? id = some c)
    (hknown : index.component? c.name = some c.description) (v : Value) :
    .wrote e id v ∈ s.snapshot.writes t ↔
      (s.store.named? e c.name).map Value.canonical = some v := by
  have hregular := hm.regular Store.Regular.empty
  rw [Snapshot.mem_writes]
  constructor
  · rintro ⟨documents, hcomponents, name, json, hdocument, hname, c', hc', hread⟩
    obtain ⟨_, _, heq⟩ := List.mem_map.mp hcomponents
    cases heq
    obtain ⟨w, hw, rfl⟩ := (mem_documentsOf hregular).mp hdocument
    obtain ⟨d, hreads⟩ := hp.readsAs hm he hw
    obtain rfl := ht.name_of_id? hname hc
    cases Option.some.inj (hc.symm.trans hc')
    cases Option.some.inj (hknown.symm.trans hreads.known)
    rw [hw, Option.map_some, Except.ok.inj (hreads.read.symm.trans hread)]
  · intro hv
    obtain ⟨w, hw, rfl⟩ := Option.map_eq_some_iff.mp hv
    obtain ⟨d, hreads⟩ := hp.readsAs hm he hw
    cases Option.some.inj (hknown.symm.trans hreads.known)
    exact ⟨_, List.mem_map.mpr ⟨e, he, rfl⟩, c.name, w.toJson,
      (mem_documentsOf hregular).mpr ⟨w, hw, rfl⟩, hid, c, hc, hreads.read⟩

/-- The rebuilt scene has the values of the scene under the same names, in canonical form. -/
theorem Persistable.named?_restore (hp : s.Persistable index)
    (hm : Steps { name := origin } h s) {e : Entity} (he : e ∈ s.roster.alive) (name : String) :
    (restore index s.snapshot).state.store.named? e name =
      (s.store.named? e name).map Value.canonical := by
  have hregular := hm.regular Store.Regular.empty
  obtain ⟨hok, hrebuilt⟩ := restore_ok (hp.snapshot_readable hm)
  cases ht : (restore index s.snapshot).state.store.id? name with
  | none =>
    cases hv : s.store.named? e name with
    | none => simp [Store.named?, ht]
    | some v =>
      -- a document of the name was read, so the rebuilt scene knows the name
      have hknown := known_of_restore hok (List.mem_map.mpr ⟨e, he, rfl⟩)
        ((mem_documentsOf hregular).mpr ⟨v, hv, rfl⟩)
      simp [ht] at hknown
  | some id =>
    have hlinked := hrebuilt.rebuilding.regular.linked
    obtain ⟨c, hc, rfl⟩ := hlinked.component_of_id? ht
    -- the arrays of the rebuilt scene give back what they take: what counts is the last write
    have hknown := (hrebuilt.rebuilding.drawn.component hc).known
    have hrecalls := (restore_consistent hok).sound.recalls id c hc (hrebuilt.rebuilding.exact hc) e
    have hlast := lastWritten_eq (fun c => Snapshot.wrote_of_mem_writes)
      (hp.mem_writes_iff hm he hlinked ht hc hknown)
    rw [← hlast, ← hrecalls]
    simp only [Store.named?, ht, Option.bind_some, hc]

/-- The rebuilt scene has a roster in order, with the entities of the scene alive. -/
theorem Persistable.roster_restore (hp : s.Persistable index) (hm : Steps { name := origin } h s) :
    (restore index s.snapshot).state.roster.Numbered ∧
      (restore index s.snapshot).state.roster.nextId ≤ UInt32.size ∧
      ∀ e, (restore index s.snapshot).state.roster.isAlive e = s.roster.isAlive e := by
  obtain ⟨_, hrebuilt⟩ := restore_ok (hp.snapshot_readable hm)
  obtain ⟨origin', h', hmade⟩ := hrebuilt.rebuilding.made
  have hnumbered := hm.numbered Roster.numbered_empty hp.counter
  have hlimit : Roster.limit.toNat ≤ UInt32.size := by decide
  have hbound := Nat.le_trans hrebuilt.rebuilding.bound hlimit
  refine ⟨hmade.numbered Roster.numbered_empty hbound, hbound, fun e => ?_⟩
  rw [Bool.eq_iff_iff, hrebuilt.alive, ← hnumbered.mem_alive]
  simp [snapshot]

/-- A scene that was reached by any run is rebuilt from its snapshot: the rebuilt scene has the same
snapshot, the same entities are alive, and new entities get the same numbers. -/
theorem restore_snapshot {s₀ : Scene} (hi : Initial s₀) (hr : Run s₀ h s)
    (hp : s.Persistable index) :
    (restore index s.snapshot).result = .ok () ∧
      (restore index s.snapshot).state.snapshot = s.snapshot ∧
      (restore index s.snapshot).state.roster.alive = s.roster.alive ∧
      ∀ n, ((restore index s.snapshot).state.roster.createMany n).1 =
        (s.roster.createMany n).1 := by
  obtain ⟨origin, h', hm⟩ := hr.steps_new hi
  obtain ⟨hok, hrebuilt⟩ := restore_ok (hp.snapshot_readable hm)
  obtain ⟨hnumbered', hbound, halive⟩ := hp.roster_restore hm
  have hnumbered := hm.numbered Roster.numbered_empty hp.counter
  have hregular := hm.regular Store.Regular.empty
  have hsame : (restore index s.snapshot).state.roster.alive = s.roster.alive :=
    hnumbered'.alive_eq hnumbered.alive_ascending fun e => by rw [halive, hnumbered.mem_alive]
  have hsnapshot : (restore index s.snapshot).state.snapshot = s.snapshot :=
    snapshot_eq hregular hrebuilt.rebuilding.regular hrebuilt.name hsame hrebuilt.systems
      hrebuilt.scripts fun e he name => hp.named?_restore hm he name
  exact ⟨hok, hsnapshot, hsame, hnumbered'.createMany_eq hnumbered hbound hp.counter halive⟩

/-- An index that has the system as well. -/
def relabelIndex : Index := { Index.initial with systems := [relabelSystem] }

/-- A scene with a gap below the one entity that is alive. -/
def town : Scene where
  name := "town"
  roster := ⟨#[⟨1⟩, ⟨0⟩], [1], #[[], [0]], [(0, 1)], 2, 1⟩
  store := ⟨[("Tag", ⟨0⟩)],
    [⟨.tag, ⟨.record [("name", .string)], .table [(⟨1⟩, tagValue "new")]⟩⟩]⟩
  registry := .ofSystems [relabelSystem]
  scripts := ["relabel.pivotscript"]

theorem town_reached : ∃ h, Run { name := "town" } h town := by
  have h₀ : Run { name := "town" } [] _ := .start
  have h₁ := h₀.succeeded (.registerSystemByName relabelIndex "Relabel") (x := 0) rfl
  have h₂ := h₁.succeeded .create (x := ⟨0⟩) rfl
  have h₃ := h₂.succeeded .create (x := ⟨1⟩) rfl
  have h₄ := h₃.succeeded (.add ⟨1⟩ "Tag" (tagValue "old")) (x := ()) rfl
  have h₅ := h₄.succeeded (.destroy ⟨0⟩) (x := ()) rfl
  have hscripted : Dispatch.Scripted (fun _ => relabel) (.ofSystems [relabelSystem]) := by
    intro system hm
    cases List.mem_singleton.mp hm
    rfl
  have h₆ := @Run.sent_scripts _ _ _ h₅ (fun _ => relabel) hscripted .lowest 1
    ⟨"Ping", .void, []⟩ _ rfl
  exact ⟨_, h₆.scripted "relabel.pivotscript"⟩

theorem town_persistable : town.Persistable relabelIndex := by
  refine ⟨fun d hd => ?_, fun system hs => ?_, fun e he c hc v hv => ?_, fun e he c hc v hv => ?_,
    by decide, by decide⟩
  · cases List.mem_singleton.mp hd
    exact ⟨rfl, trivial⟩
  · cases List.mem_singleton.mp hs
    rfl
  · cases List.mem_singleton.mp he
    cases List.mem_singleton.mp hc
    cases hv
    decide
  · cases List.mem_singleton.mp he
    cases List.mem_singleton.mp hc
    cases hv
    decide

theorem town_restored :
    ∃ h, Run { name := "town" } h town ∧ town.Persistable relabelIndex ∧
      (restore relabelIndex town.snapshot).result = .ok () ∧
      (restore relabelIndex town.snapshot).state.snapshot = town.snapshot ∧
      (restore relabelIndex town.snapshot).state.roster.alive = town.roster.alive ∧
      ∀ n, ((restore relabelIndex town.snapshot).state.roster.createMany n).1 =
        (town.roster.createMany n).1 := by
  obtain ⟨h, hr⟩ := town_reached
  exact ⟨h, hr, town_persistable, restore_snapshot (.new "town") hr town_persistable⟩

end Scene
end SceneScript
