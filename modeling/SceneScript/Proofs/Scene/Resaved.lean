import SceneScript.Proofs.Scene.Fitting
import SceneScript.Proofs.Scene.Persisted
import SceneScript.Proofs.Value.Resaved

/-! # Files that are loaded and saved

A scene that was rebuilt from a file, however it was written, can be saved, and the saved file can
be loaded. The values come back in canonical form, and from then on saving and loading change
nothing.
-/
namespace SceneScript

/-- The documents of a snapshot are those of a text. -/
def Snapshot.Plain (snapshot : Snapshot) : Prop :=
  ∀ entry ∈ snapshot.components, ∀ document ∈ entry.2, document.2.Plain

/-- The record types of an index are in name order. -/
def Index.Ordered (index : Index) : Prop := ∀ d ∈ index.components, d.shape.Ordered

namespace Scene
variable {index : Index}

/-! ### Systems of the index -/

/-- Every system that is registered is the one that the index has under its name. -/
def Staffed (index : Index) (s : Scene) : Prop :=
  ∀ system ∈ s.registry.systems, index.system? system.name = some system

/-- The action registers no others. -/
def Staffs {α : Type} (index : Index) (a : SceneAction α) : Prop :=
  ∀ s, s.Staffed index → (a s).state.Staffed index

section
variable {α β : Type}

theorem Staffs.bind {a : SceneAction α} {f : α → SceneAction β} (ha : Staffs index a)
    (hf : ∀ x, Staffs index (f x)) : Staffs index (a >>= f) :=
  Action.bind_relates (R := fun s s' : Scene => s.Staffed index → s'.Staffed index)
    (fun h₁ h₂ hs => h₂ (h₁ hs)) ha hf

theorem staffs_of_keeps {a : SceneAction α} (h : a.Keeps registry) : Staffs index a := by
  intro s hs
  rw [Staffed, h s]
  exact hs

theorem keeps_registry {a : SceneAction α} (h : a.Keeps outline) : a.Keeps registry :=
  fun s => congrArg (fun o => o.2.2.1) (h s)

end

theorem registerComponents_staffs (names : List String) :
    Staffs index (registerComponents index names) := by
  induction names with
  | nil => exact staffs_of_keeps (Action.keeps_pure ())
  | cons name rest ih =>
    exact (staffs_of_keeps (keeps_registry (registerComponent_outline index name))).bind
      fun _ => ih

theorem registerSystem_staffs {system : System}
    (hsystem : index.system? system.name = some system) :
    Staffs index (registerSystem index system) := by
  refine (registerComponents_staffs _).bind fun _ s hs => ?_
  rw [Action.get_bind]
  cases hr : s.registry.register system with
  | error err =>
    rw [Action.ofExcept_error_bind]
    exact hs
  | ok registered =>
    obtain ⟨position, registry⟩ := registered
    obtain ⟨-, rfl⟩ := Registry.register_ok hr
    simp only [Action.ofExcept_ok_bind, Action.set_bind, Action.pure_apply]
    refine List.forall_mem_append.mpr ⟨hs, fun other ho => ?_⟩
    cases List.mem_singleton.mp ho
    exact hsystem

theorem restoreSystems_staffs (names : List String) :
    Staffs index (restoreSystems index names) := by
  induction names with
  | nil => exact staffs_of_keeps (Action.keeps_pure ())
  | cons name rest ih =>
    refine Staffs.bind ?_ fun _ => ih
    unfold registerSystemByName
    split
    · rename_i system hsystem
      have hname : system.name = name := by simpa using List.find?_some hsystem
      exact registerSystem_staffs (hname.symm ▸ hsystem)
    · exact staffs_of_keeps (Action.keeps_fail _)

theorem restoreEntities_staffs (entries : List (Entity × Table String Json)) :
    Staffs index (restoreEntities index entries) := by
  induction entries with
  | nil => exact staffs_of_keeps (Action.keeps_pure ())
  | cons entry rest ih =>
    have hcreate : Action.Keeps (createEntityAt entry.1) registry := fun s => by
      rcases createEntityAt_cases entry.1 s with ⟨err, hr⟩ | ⟨roster, _, hr⟩ <;> rw [hr]
    refine (staffs_of_keeps hcreate).bind fun _ => ?_
    exact (staffs_of_keeps (keeps_registry (restoreComponents_outline index _ _))).bind fun _ => ih

/-- A scene that was rebuilt has systems of the index only. -/
theorem restore_staffed (index : Index) (snapshot : Snapshot) :
    (restore index snapshot).state.Staffed index := by
  have hfill : Staffs index (fill index snapshot) :=
    (restoreEntities_staffs _).bind fun _ => (restoreSystems_staffs _).bind fun _ =>
      Staffs.bind (staffs_of_keeps fun s => addScripts_registry s _) fun _ =>
        staffs_of_keeps (Action.keeps_get.bind fun _ => Action.keeps_log _ _)
  exact hfill _ (by simp [Staffed])

/-! ### Values of documents -/

/-- A value of a scene that was rebuilt was read from a document, under a type of the index. -/
theorem read_of_restore {snapshot : Snapshot} (hs : snapshot.Readable index) {e : Entity}
    {id : ComponentId} {c : Component} (hc : (restore index snapshot).state.store.get? id = some c)
    {v : Value} (hv : c.array.get? e = some v) :
    ∃ documents, (e, documents) ∈ snapshot.components ∧ ∃ document ∈ documents,
      ∃ d ∈ index.components, Value.ofJson d.shape document.2 = .ok v := by
  obtain ⟨hok, hrebuilt⟩ := restore_ok hs
  have hrecalls := (restore_consistent hok).sound.recalls id c hc (hrebuilt.rebuilding.exact hc) e
  obtain ⟨documents, hdocuments, name, json, hdocument, hid, c', hc', hread⟩ :=
    Snapshot.mem_writes.mp (mem_of_lastWritten (hrecalls.symm.trans hv))
  cases Option.some.inj (hc.symm.trans hc')
  have hknown := (hrebuilt.rebuilding.drawn.component hc).known
  exact ⟨documents, hdocuments, _, hdocument, _, Index.mem_of_component? hknown, hread⟩

theorem storable_of_restore {snapshot : Snapshot} (hs : snapshot.Readable index)
    (ht : index.Ordered) (hj : snapshot.Plain) {e : Entity} {id : ComponentId} {c : Component}
    (hc : (restore index snapshot).state.store.get? id = some c) {v : Value}
    (hv : c.array.get? e = some v) : v.Storable := by
  obtain ⟨documents, hdocuments, document, hdocument, d, hd, hread⟩ := read_of_restore hs hc hv
  have hplain := hj _ hdocuments document hdocument
  exact (Value.ofJson_storable d.shape (ht d hd) document.2 hplain).of_ok hread

/-- A scene that was rebuilt from a file can be saved. -/
theorem persistable_restore {snapshot : Snapshot} (hs : snapshot.Readable index)
    (ht : index.Ordered) (hj : snapshot.Plain) :
    (restore index snapshot).state.Persistable index := by
  obtain ⟨hok, hrebuilt⟩ := restore_ok hs
  obtain ⟨origin, h, hmade⟩ := hrebuilt.rebuilding.made
  have hlimit : Roster.limit.toNat ≤ UInt32.size := by decide
  have hcounter := Nat.le_trans hrebuilt.rebuilding.bound hlimit
  have hnumbered := hmade.numbered Roster.numbered_empty hcounter
  have hstorable : ∀ e, ∀ c ∈ (restore index snapshot).state.store.components,
      ∀ v ∈ c.array.get? e, v.Storable := fun e c hc v hv => by
    obtain ⟨i, hi⟩ := List.mem_iff_getElem?.mp hc
    have hget : (restore index snapshot).state.store.get? ⟨i⟩ = some c := hi
    exact storable_of_restore hs ht hj hget hv
  refine ⟨hrebuilt.rebuilding.drawn, restore_staffed index snapshot,
    fun e _ c hc v hv => (hstorable e c hc v hv).ordered,
    fun e _ c hc v hv => (hstorable e c hc v hv).finite, fun e he => ?_, hcounter⟩
  obtain ⟨entry, hentry, rfl⟩ :=
    List.mem_map.mp ((hrebuilt.alive e).mp (hnumbered.mem_alive.mp he))
  exact hs.limit entry hentry

/-- The values of a scene that was rebuilt from a file come back in canonical form when it is saved
and loaded. -/
theorem value?_resaved {snapshot : Snapshot} (hs : snapshot.Readable index) (ht : index.Ordered)
    (hj : snapshot.Plain) {e : Entity} {name : String} {v : Value}
    (hv : (restore index snapshot).state.value? e name = .ok (some v)) :
    (restore index (restore index snapshot).state.snapshot).state.value? e name =
      .ok (some v.canonical) := by
  have hp := persistable_restore hs ht hj
  obtain ⟨hok, hrebuilt⟩ := restore_ok hs
  obtain ⟨origin, h, hmade⟩ := hrebuilt.rebuilding.made
  have hnamed := value?_eq_some.mp hv
  obtain ⟨id, c, _, hc, hget⟩ := Store.named?_eq_some.mp hnamed
  -- an entity with a value is alive, so the file that is saved has its documents
  have hhas : (restore index snapshot).state.roster.hasComponent e id = true := by
    rw [← (restore_consistent hok).agrees, Store.has_eq hc, ComponentArray.has, hget]
    rfl
  have halive : (restore index snapshot).state.roster.isAlive e = true := by
    by_contra hdead
    rw [Roster.hasComponent_eq_false (Bool.eq_false_iff.mpr hdead)] at hhas
    cases hhas
  have hmem := (hmade.numbered Roster.numbered_empty hp.counter).mem_alive.mpr halive
  rw [value?_eq_some, hp.named?_restore hmade hmem, hnamed, Option.map_some]

/-- A value that was read under a type is put into canonical form when it is saved and read again,
and nothing does more. It is the same value unless a reference in it has the number of the empty one
and a generation of its own. So it is, too, wherever the value came from a file: the file that is
saved can be loaded, has the value in canonical form, and stays as it is when it is saved again. -/
theorem resaved {type : ValueType} {json : Json} {v : Value} (ht : type.Ordered) (hj : json.Plain)
    (hv : Value.ofJson type json = .ok v) :
    Value.ofJson type v.toJson = .ok v.canonical ∧
      Value.ofJson type v.canonical.toJson = .ok v.canonical ∧
      (Value.ofJson type v.toJson = .ok v ↔
        ∀ r ∈ v.refs, r.entity.id = EntityRef.emptyId → r.generation = Generation.first) ∧
      ∀ {index : Index} {snapshot : Snapshot}, snapshot.Readable index → index.Ordered →
        snapshot.Plain →
          (restore index (restore index snapshot).state.snapshot).result = .ok () ∧
            (restore index (restore index snapshot).state.snapshot).state.snapshot =
              (restore index snapshot).state.snapshot ∧
            ∀ e name, (restore index snapshot).state.value? e name = .ok (some v) →
              (restore index (restore index snapshot).state.snapshot).state.value? e name =
                .ok (some v.canonical) := by
  obtain ⟨hback, hstays, hiff⟩ := Value.ofJson_resaved ht hj hv
  refine ⟨hback, hstays, hiff, fun hs htypes hplain => ?_⟩
  obtain ⟨hok, -⟩ := restore_ok hs
  obtain ⟨hagain, hsame, -, -⟩ :=
    restore_snapshot (.restored hok) .start (persistable_restore hs htypes hplain)
  exact ⟨hagain, hsame, fun e name => value?_resaved hs htypes hplain⟩

/-- Where something is, and what is in it. -/
def spotType : ValueType := .record [("at", .vec2), ("inside", .list)]

/-- A document written by hand: a float without a fraction, a tag behind a remark, and nobody. -/
def spotDocument : Json := .object [
  ("at", .array [.number (.integer 3), .number (.real 0.5)]),
  ("inside", .array [.object [
    ("remark", .string "lost"), ("type", .string "Entity"), ("value", .null)]])]

def spot : Value := .record [
  ("at", .vec2 ⟨Number.ofInt 3, 0.5⟩), ("inside", .list [.entity .empty])]

def spotIndex : Index := ⟨[.ofShape "Spot" spotType], [], []⟩

def spotSnapshot : Snapshot := { name := "map", components := [(⟨3⟩, [("Spot", spotDocument)])] }

theorem spotDocument_read : Value.ofJson spotType spotDocument = .ok spot := by
  simp [spotType, spotDocument, spot, Value.ofJson, Value.readDeclared, Value.readBasic,
    Value.readItems, Value.readTagged, Value.readRef, Value.orMisfit, Value.floats?,
    Value.extraMember?, Json.array?, Json.float?, Json.string?, JsonNumber.toFloat, Table.find?,
    Table.keys, Table.contains, recordTag, BasicType.ofScriptName?, BasicType.declarable,
    BasicType.scriptName]

theorem spotDocument_plain : spotDocument.Plain := by
  unfold spotDocument
  simp only [Json.Plain, Json.MembersPlain, Json.ItemsPlain, JsonNumber.Plain, Table.Sorted]
  decide

theorem spotType_ordered : spotType.Ordered := by
  refine ⟨?_, trivial, trivial, trivial⟩
  unfold Table.Sorted
  decide

theorem spotSnapshot_readable : spotSnapshot.Readable spotIndex where
  entities := by decide
  limit := by decide
  documents entry he document hd := by
    cases List.mem_singleton.mp he
    cases List.mem_singleton.mp hd
    exact ⟨_, spot, rfl, trivial, spotDocument_read, rfl⟩
  systems := List.nodup_nil
  runnable := by simp [spotSnapshot]
  scripts := List.nodup_nil

theorem spotSnapshot_filled :
    (restore spotIndex spotSnapshot).state.value? ⟨3⟩ "Spot" = .ok (some spot) := by
  have hfilled :
      ((restore spotIndex spotSnapshot).state.store.named? ⟨3⟩ "Spot").isSome = true := by
    decide +kernel
  obtain ⟨v, hv⟩ := Option.isSome_iff_exists.mp hfilled
  obtain ⟨id, c, _, hc, hget⟩ := Store.named?_eq_some.mp hv
  obtain ⟨documents, hdocuments, document, hdocument, d, hd, hread⟩ :=
    read_of_restore spotSnapshot_readable hc hget
  cases List.mem_singleton.mp hdocuments
  cases List.mem_singleton.mp hdocument
  cases List.mem_singleton.mp hd
  rw [value?_eq_some, hv, Except.ok.inj (spotDocument_read.symm.trans hread)]

theorem spot_resaved :
    spotType.Ordered ∧ spotDocument.Plain ∧ Value.ofJson spotType spotDocument = .ok spot ∧
      Value.ofJson spotType spot.toJson = .ok spot ∧
      (restore spotIndex spotSnapshot).state.value? ⟨3⟩ "Spot" = .ok (some spot) ∧
      (restore spotIndex (restore spotIndex spotSnapshot).state.snapshot).state.value? ⟨3⟩
        "Spot" = .ok (some spot.canonical) := by
  have ht : spotIndex.Ordered := fun d hd => by
    cases List.mem_singleton.mp hd
    exact spotType_ordered
  have hj : spotSnapshot.Plain := fun entry he document hd => by
    cases List.mem_singleton.mp he
    cases List.mem_singleton.mp hd
    exact spotDocument_plain
  have hrefs : ∀ r ∈ spot.refs, r.entity.id = EntityRef.emptyId →
      r.generation = Generation.first := by
    decide
  obtain ⟨-, -, hiff, hfiles⟩ := resaved spotType_ordered spotDocument_plain spotDocument_read
  obtain ⟨-, -, hkept⟩ := hfiles spotSnapshot_readable ht hj
  exact ⟨spotType_ordered, spotDocument_plain, spotDocument_read, hiff.mpr hrefs,
    spotSnapshot_filled, hkept ⟨3⟩ "Spot" spotSnapshot_filled⟩

end Scene
end SceneScript
