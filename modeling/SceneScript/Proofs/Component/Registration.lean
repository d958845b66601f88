import SceneScript.Proofs.Calls
import SceneScript.Proofs.Component.Requests

/-! # Registration is stable

Components are registered in between writes, removals and reads, by themselves or together with a
question for typed storage that may be refused. Whatever is done in between, the names are listed
with the numbers of their first registrations, and no registration that comes later changes anything
of a component that is there: at any time it is as if nothing had been registered since.
-/
namespace SceneScript

namespace StoreCall

/-- The calls that register nothing. -/
def quiet (calls : List StoreCall) : List StoreCall := calls.filter (·.registered?.isNone)

/-- The descriptions that are registered first under their names, in order. -/
def firsts (calls : List StoreCall) : List ComponentDescription :=
  (calls.filterMap registered?).eraseDupsBy fun d d' => d.name == d'.name

end StoreCall

namespace Store

/-! ### Sequences of calls -/

theorem Regular.after {s : Store} (hs : s.Regular) (calls : List StoreCall) :
    (SceneScript.after Store.perform s calls).Regular :=
  after_induction (P := Regular) (fun _ call hs => hs.perform call) hs calls

/-- The components behind a sequence of calls are the known ones and then, of the registered ones
with other names, the first of every name. -/
theorem descriptions_after (s : Store) (calls : List StoreCall) :
    (after perform s calls).descriptions = s.descriptions ++
      ((calls.filterMap StoreCall.registered?).filter fun d => (s.id? d.name).isNone).eraseDupsBy
        fun d d' => d.name == d'.name := by
  induction calls generalizing s with
  | nil => simp [after]
  | cons call calls ih =>
    have hstep := s.catalog_perform call
    rw [after_cons, ih]
    cases hd : call.registered? with
    | none =>
      have hsame : (s.perform call).2.catalog = s.catalog := by
        rw [hstep, hd, Option.toList_none, List.filter_nil, extend_nil]
      simp only [List.filterMap_cons_none hd, descriptions_congr hsame, id?_congr hsame]
    | some d =>
      rw [List.filterMap_cons_some hd]
      cases hnew : (s.id? d.name).isNone with
      | false =>
        have hsame : (s.perform call).2.catalog = s.catalog := by
          rw [hstep, hd]
          simp [hnew, extend_nil]
        rw [List.filter_cons, if_neg (by simp [hnew])]
        simp only [descriptions_congr hsame, id?_congr hsame]
      | true =>
        have hmore : (s.perform call).2.catalog = (s.extend [d]).catalog := by
          rw [hstep, hd]
          simp [hnew]
        rw [List.filter_cons, if_pos hnew, List.eraseDupsBy_cons, List.filter_filter,
          descriptions_congr hmore]
        simp only [id?_congr hmore, isNone_id?_extend, descriptions_extend, List.append_assoc,
          List.singleton_append, Bool.decide_eq_false, Bool.and_comm]

/-- What a component is behind a sequence of calls is told by the calls that register nothing. -/
theorem get?_after_quiet {s t : Store} {id : ComponentId} {c : Component}
    (hs : s.get? id = some c) (ht : t.get? id = some c) (calls : List StoreCall) :
    (after perform s calls).get? id = (after perform t (StoreCall.quiet calls)).get? id := by
  induction calls generalizing s t c with
  | nil => exact hs.trans ht.symm
  | cons call calls ih =>
    cases hd : call.registered? with
    | none =>
      obtain ⟨c', hc', -, -⟩ := exists_get?_perform call hs
      have hsame := get?_perform_congr hd hs ht
      have hquiet : StoreCall.quiet (call :: calls) = call :: StoreCall.quiet calls := by
        simp [StoreCall.quiet, hd]
      rw [after_cons, hquiet, after_cons]
      exact ih hc' (hsame.symm.trans hc')
    | some d =>
      have hquiet : StoreCall.quiet (call :: calls) = StoreCall.quiet calls := by
        simp [StoreCall.quiet, hd]
      rw [after_cons, hquiet]
      exact ih (get?_perform_registered hd hs) ht

/-- Whatever is called, a component keeps its description and the form of its array. -/
theorem exists_get?_after {s : Store} {id : ComponentId} {c : Component} (hs : s.get? id = some c)
    (calls : List StoreCall) : ∃ c', (after perform s calls).get? id = some c' ∧
      c'.description = c.description ∧ c'.array.form = c.array.form := by
  refine after_induction
    (P := fun t : Store => ∃ c', t.get? id = some c' ∧ c'.description = c.description ∧
      c'.array.form = c.array.form) (fun t call ht => ?_) ⟨c, hs, rfl, rfl⟩ calls
  obtain ⟨c₁, hc₁, hd₁, hf₁⟩ := ht
  obtain ⟨c₂, hc₂, hd₂, hf₂⟩ := exists_get?_perform call hc₁
  exact ⟨c₂, hc₂, hd₂.trans hd₁, hf₂.trans hf₁⟩

/-! ### The components of an entity -/

theorem ids_ascending (s : Store) : s.ids.Pairwise fun a b => a.index < b.index :=
  List.pairwise_map.mpr List.pairwise_lt_range

theorem mem_ids {s : Store} {id : ComponentId} : id ∈ s.ids ↔ id.index < s.size := by
  constructor
  · intro h
    obtain ⟨i, hi, rfl⟩ := List.mem_map.mp h
    exact List.mem_range.mp hi
  · intro h
    exact List.mem_map.mpr ⟨id.index, List.mem_range.mpr h, rfl⟩

theorem all_ascending (s : Store) (e : Entity) :
    (ComponentRef.all s e).Pairwise fun r r' => r.component.index < r'.component.index := by
  rw [ComponentRef.all, List.pairwise_filterMap]
  refine (s.ids_ascending.filter _).imp fun {a b} hab r hr r' hr' => ?_
  obtain ⟨c, -, rfl⟩ := Option.map_eq_some_iff.mp hr
  obtain ⟨c', -, rfl⟩ := Option.map_eq_some_iff.mp hr'
  exact hab

theorem mem_all {s : Store} {e : Entity} {r : ComponentRef} :
    r ∈ ComponentRef.all s e ↔ ∃ c v, s.get? r.component = some c ∧ c.array.get? e = some v ∧
      r = ⟨e, r.component, c.name⟩ := by
  constructor
  · intro h
    obtain ⟨id, hid, hr⟩ := List.mem_filterMap.mp h
    obtain ⟨c, hc, rfl⟩ := Option.map_eq_some_iff.mp hr
    have hhas : c.array.has e = true := by
      rw [← has_eq hc]
      exact (List.mem_filter.mp hid).2
    obtain ⟨v, hv⟩ := Option.isSome_iff_exists.mp hhas
    exact ⟨c, v, hc, hv, rfl⟩
  · rintro ⟨c, v, hc, hv, hr⟩
    exact (mem_refs_iff.mpr ⟨r.component, c, hc, hv, hr⟩).1

/-! ### Registrations -/

/-- A registration answers the number that the name has then. Whether typed storage is given depends
on the description that the component was first registered with. -/
theorem perform_register {s : Store} (hs : s.Regular) (d : ComponentDescription) :
    ∃ id c, (register d s).state.id? d.name = some id ∧ (register d s).state.get? id = some c ∧
      s.perform (.register d) = (.ok (.number id), (register d s).state) ∧
        ∀ kind, s.perform (.registerTyped d kind) =
          (if c.description.kind = kind then .ok (.typed id c.array)
            else .error (.storageMismatch d.name), (register d s).state) := by
  obtain ⟨id, hid⟩ : ∃ id, (register d s).result = .ok id := by
    unfold register
    split
    · exact ⟨_, rfl⟩
    · exact ⟨_, rfl⟩
  have hname := id?_register hid
  obtain ⟨c, hc, hcname⟩ := (hs.register d).linked.component_of_id? hname
  have hkind : c.array.storage.kind = c.description.kind := (hs.register d).kinds id c hc
  refine ⟨id, c, hname, hc, ?_, fun kind => ?_⟩
  · rw [perform, hid]
    rfl
  · have hregister : register d s = ⟨.ok id, (register d s).state, (register d s).log⟩ := by
      rw [← hid]
    have hresult : (registerTyped d kind s).result =
        if c.description.kind = kind then .ok (id, c.array)
          else .error (.storageMismatch d.name) := by
      rw [registerTyped, Action.bind_ok hregister, Action.get_bind, Store.typed,
        component_of_some hc, Result.ok_bind, ComponentArray.hasKind, hkind]
      by_cases hk : c.description.kind = kind
      · simp [hk]
      · simp only [beq_iff_eq, hk, ↓reduceIte, hcname]
        rfl
    rw [perform, Scene.registerTyped_state, hresult]
    split <;> rfl

/-- What a store shows behind some calls to an empty one. -/
structure Settled (calls : List StoreCall) (s : Store) : Prop where
  /-- There are as many components as names that were registered. -/
  size : s.size = (StoreCall.firsts calls).length
  /-- Their numbers are those below this count. -/
  ids : ∀ id, id ∈ s.ids ↔ id.index < s.size
  /-- They go by the first registrations, and the first descriptions are kept. -/
  order : ∀ id, (s.get? id).map Component.description = (StoreCall.firsts calls)[id.index]?
  /-- Every name is listed once. -/
  once : (Table.keys s.names).Nodup
  /-- It is listed with the number of the component that has the name, and no other name is. -/
  entries : ∀ name id, (name, id) ∈ s.names ↔ ∃ c, s.get? id = some c ∧ c.name = name
  /-- So every number has one name, and every name leads to one number. -/
  bijection : ∀ name id, s.id? name = some id ↔ ∃ c, s.get? id = some c ∧ c.name = name
  /-- A registration answers the number of the name, whether the name was known or not. It gives
  typed storage if the kind is the one of the first description, and stays when it does not. -/
  answer : ∀ d, ∃ id c, (register d s).state.id? d.name = some id ∧
    (register d s).state.get? id = some c ∧
      s.perform (.register d) = (.ok (.number id), (register d s).state) ∧
        ∀ kind, s.perform (.registerTyped d kind) =
          (if c.description.kind = kind then .ok (.typed id c.array)
            else .error (.storageMismatch d.name), (register d s).state)
  /-- A later registration leaves the number of a name and all of its component as they are. -/
  kept : ∀ call d, call.registered? = some d → ∀ id c, s.get? id = some c →
    (s.perform call).2.get? id = some c ∧ (s.perform call).2.id? c.name = some id
  /-- So at any later time the component is as if nothing had been registered since. -/
  quiet : ∀ later id, id.index < s.size →
    (after perform s later).get? id = (after perform s (StoreCall.quiet later)).get? id
  /-- No call at all changes the number of a name, its description or the form of its array. -/
  fixed : ∀ later id c, s.get? id = some c → (after perform s later).id? c.name = some id ∧
    ∃ c', (after perform s later).get? id = some c' ∧ c'.description = c.description ∧
      c'.array.form = c.array.form
  /-- The components of an entity are listed in the order of their numbers, each of them once. -/
  listed : ∀ e,
    (ComponentRef.all s e).Pairwise (fun r r' => r.component.index < r'.component.index) ∧
      ∀ r, r ∈ ComponentRef.all s e ↔ ∃ c v, s.get? r.component = some c ∧
        c.array.get? e = some v ∧ r = ⟨e, r.component, c.name⟩
  /-- A call with a number that is not in use is refused and changes nothing. -/
  unused : ∀ call id, call.number? = some id → s.size ≤ id.index →
    s.perform call = (.error (.invalidComponentId id), s)
  /-- No other call with a number is refused so. -/
  used : ∀ call id, call.number? = some id → id.index < s.size → ∀ id',
    (s.perform call).1 ≠ .error (.invalidComponentId id')

/-- Registration is stable, whatever is asked of a new store. -/
theorem settled_after (calls : List StoreCall) : (after perform {} calls).Settled calls := by
  have hregular : (after perform {} calls).Regular := Regular.empty.after calls
  have hlinked := hregular.linked
  have hdescriptions : (after perform {} calls).descriptions = StoreCall.firsts calls := by
    have hall : ∀ d : ComponentDescription, (({} : Store).id? d.name).isNone = true :=
      fun _ => rfl
    rw [descriptions_after, List.filter_eq_self.mpr fun d _ => hall d]
    rfl
  have hsize : (after perform {} calls).size = (StoreCall.firsts calls).length := by
    rw [← hdescriptions, descriptions, List.length_map, size]
  revert hregular hlinked hdescriptions hsize
  generalize after perform {} calls = s
  intro hregular hlinked hdescriptions hsize
  have hbijection : ∀ name id, s.id? name = some id ↔ ∃ c, s.get? id = some c ∧ c.name = name :=
    fun name id => (hlinked.numbers name id).trans Option.map_eq_some_iff
  exact {
    size := hsize
    ids := fun _ => mem_ids
    order := fun id => by rw [description_eq, hdescriptions]
    once := hlinked.sorted.keys_nodup
    entries := fun name id => hlinked.sorted.mem_iff.trans (hbijection name id)
    bijection := hbijection
    answer := perform_register hregular
    kept := fun call d hd id c hc => by
      have hkept := get?_perform_registered hd hc
      exact ⟨hkept, (hregular.perform call).linked.id?_eq hkept⟩
    quiet := fun later id hid => get?_after_quiet (List.getElem?_eq_getElem hid)
      (List.getElem?_eq_getElem hid) later
    fixed := fun later id c hc => by
      obtain ⟨c', hc', hdescription, hform⟩ := exists_get?_after hc later
      have hname : c'.name = c.name := congrArg ComponentDescription.name hdescription
      refine ⟨?_, c', hc', hdescription, hform⟩
      rw [← hname]
      exact (hregular.after later).linked.id?_eq hc'
    listed := fun e => ⟨s.all_ascending e, fun _ => mem_all⟩
    unused := fun _ _ => perform_unused
    used := fun _ _ => perform_used }

/-- A component of whole numbers gets a value, and typed storage of another kind was asked for. -/
def speeds : List StoreCall :=
  [.register .tag, .registerTyped (.ofShape "Speed" (.basic .integer)) (.dense .value),
    .add ⟨3⟩ ⟨1⟩ (.integer 2), .add ⟨3⟩ ⟨0⟩ (.record [("name", .string "ann")])]

/-- The name is registered again with another type, default and storage. The value stays, and the
storage is still the first one. -/
theorem speeds_kept :
    let s := after perform {} speeds
    let d : ComponentDescription := ⟨"Speed", .string, .string "fast", .dense .value, .builtIn⟩
    s.at? ⟨3⟩ ⟨1⟩ = some (.integer 2) ∧
      (s.perform (.register d)).2.at? ⟨3⟩ ⟨1⟩ = some (.integer 2) ∧
        (s.perform (.register d)).2.id? "Speed" = some ⟨1⟩ ∧
        (s.perform (.registerTyped d (.dense .value))).1 = .error (.storageMismatch "Speed") ∧
          (ComponentRef.all s ⟨3⟩).map ComponentRef.name = ["Tag", "Speed"] ∧
            s.perform (.remove ⟨3⟩ ⟨2⟩) = (.error (.invalidComponentId ⟨2⟩), s) := by
  intro s d
  have hs := settled_after speeds
  obtain ⟨c, hc, hvalue⟩ : ∃ c, s.get? ⟨1⟩ = some c ∧ c.array.get? ⟨3⟩ = some (.integer 2) :=
    ⟨_, rfl, rfl⟩
  have hname : c.name = "Speed" := by
    cases hc
    rfl
  obtain ⟨hkept, hid⟩ := hs.kept (.register d) d rfl ⟨1⟩ c hc
  have hunused : s.perform (.remove ⟨3⟩ ⟨2⟩) = (.error (.invalidComponentId ⟨2⟩), s) :=
    hs.unused _ _ rfl (Nat.le_refl 2)
  have hmismatch : (s.perform (.registerTyped d (.dense .value))).1 =
      .error (.storageMismatch "Speed") := by
    obtain ⟨id', c', hid', hc', -, htyped⟩ := hs.answer d
    rw [hname] at hid
    cases hid'.symm.trans hid
    cases hc'.symm.trans hkept
    rw [htyped]
    cases hc
    rfl
  refine ⟨?_, ?_, ?_, hmismatch, rfl, hunused⟩
  · rw [at?, hc, Option.bind_some, hvalue]
  · rw [at?, hkept, Option.bind_some, hvalue]
  · rw [← hname, hid]

end Store
end SceneScript
