import SceneScript.Proofs.Scene.Documents
import SceneScript.Proofs.Scene.Refused

/-! # What a call does to a store

A store is asked to register components, to change values and to tell about them. A call that
registers nothing gives each component an array that is made of this component alone, so it does the
same in every store that has the component. A call that registers leaves the known components alone
and puts a new name behind them.
-/
namespace SceneScript

/-- What is asked of a store. -/
inductive StoreCall where
  | register (d : ComponentDescription)
  | registerTyped (d : ComponentDescription) (kind : StorageKind)
  | add (e : Entity) (id : ComponentId) (value : Value)
  | remove (e : Entity) (id : ComponentId)
  | get (e : Entity) (id : ComponentId)
  | reference (e : Entity) (id : ComponentId)
  | typed (id : ComponentId) (kind : StorageKind)
  | all (e : Entity)
  | destroyed (e : Entity)
  | set (r : ComponentRef) (value : Value)
  | setMember (r : ComponentRef) (name : String) (value : Value)
  | setPath (r : ComponentRef) (path : List String) (value : Value)

inductive StoreAnswer where
  | done
  | number (id : ComponentId)
  | typed (id : ComponentId) (array : ComponentArray)
  | value (value : Option Value)
  | reference (r : ComponentRef)
  | references (rs : List ComponentRef)
  | array (a : ComponentArray)

namespace StoreCall

/-- The description that a call registers, under a new name or a known one. -/
def registered? : StoreCall → Option ComponentDescription
  | register d | registerTyped d _ => some d
  | _ => none

/-- The component number that a call is made with. -/
def number? : StoreCall → Option ComponentId
  | add _ id _ | remove _ id | get _ id | reference _ id | typed id _ => some id
  | _ => none

end StoreCall

theorem ComponentArray.remove_form (a : ComponentArray) (e : Entity) :
    (a.remove e).form = a.form := by
  rw [form, form, remove_kind, remove_shape]

/-- Only the type of a value can be wrong. -/
theorem ComponentArray.insert_error {a : ComponentArray} {e : Entity} {v : Value} {err : Error}
    (h : a.insert e v = .error err) : err = .typeMismatch a.shape v.type := by
  unfold insert at h
  split at h
  · split at h
    · cases h
    · exact (Except.error.inj h).symm
  · exact (Except.error.inj h).symm

namespace Store

/-- The answer to a change and the store behind it. A change that fails leaves the store as it
is. -/
def change (s : Store) (x : Except Error Store) : Except Error StoreAnswer × Store :=
  (x.map fun _ => .done, x.toOption.getD s)

/-- One call: its answer and the store behind it. -/
def perform (s : Store) : StoreCall → Except Error StoreAnswer × Store
  | .register d => ((register d s).result.map .number, (register d s).state)
  | .registerTyped d kind =>
    ((registerTyped d kind s).result.map fun p => .typed p.1 p.2, (registerTyped d kind s).state)
  | .add e id value => s.change (s.add e id value)
  | .remove e id =>
    ((s.remove e id).map fun p => .value p.1, ((s.remove e id).map Prod.snd).toOption.getD s)
  | .get e id => ((s.value? e id).map .value, s)
  | .reference e id => ((ComponentRef.of s e id).map .reference, s)
  | .typed id kind => ((s.typed id kind).map .array, s)
  | .all e => (.ok (.references (ComponentRef.all s e)), s)
  | .destroyed e => (.ok .done, s.removeEntity e)
  | .set r value => s.change (r.set s value)
  | .setMember r name value => s.change (r.setMember s name value)
  | .setPath r path value => s.change (r.setPath s path value)

/-! ### Work on one component -/

/-- Give one component another array, which is made of this component alone. -/
def rewrite (s : Store) (id : ComponentId) (err : Error)
    (g : Component → Except Error ComponentArray) : Except Error Store :=
  match s.get? id with
  | some c => (g c).map (s.setArray id)
  | none => .error err

theorem rewrite_of_some {s : Store} {id : ComponentId} {c : Component} (h : s.get? id = some c)
    (err : Error) (g : Component → Except Error ComponentArray) :
    s.rewrite id err g = (g c).map (s.setArray id) := by
  simp only [rewrite, h]

theorem rewrite_of_none {s : Store} {id : ComponentId} (h : s.get? id = none) (err : Error)
    (g : Component → Except Error ComponentArray) : s.rewrite id err g = .error err := by
  simp only [rewrite, h]

theorem component_of_some {s : Store} {id : ComponentId} {c : Component} (h : s.get? id = some c) :
    s.component id = .ok c := by
  simp only [component, h]

theorem component_of_none {s : Store} {id : ComponentId} (h : s.get? id = none) :
    s.component id = .error (.invalidComponentId id) := by
  simp only [component, h]

theorem add_eq_rewrite (s : Store) (e : Entity) (id : ComponentId) (v : Value) :
    s.add e id v = s.rewrite id (.invalidComponentId id) fun c => c.array.insert e v := by
  cases hc : s.get? id with
  | none => rw [rewrite_of_none hc, add, component_of_none hc, Result.error_bind]
  | some c =>
    rw [rewrite_of_some hc, add, component_of_some hc, Result.ok_bind]
    cases c.array.insert e v <;> rfl

theorem remove_eq_rewrite (s : Store) (e : Entity) (id : ComponentId) :
    (s.remove e id).map Prod.snd =
      s.rewrite id (.invalidComponentId id) fun c => .ok (c.array.remove e) := by
  cases hc : s.get? id with
  | none =>
    rw [rewrite_of_none hc, remove, component_of_none hc]
    rfl
  | some c =>
    rw [rewrite_of_some hc, remove, component_of_some hc]
    rfl

end Store

namespace ComponentRef

/-- Replace the value in the place by its image. -/
def update (r : ComponentRef) (s : Store) (f : Value → Except Error Value) :
    Except Error Store := do
  s.add r.entity r.component (← f (← r.value s))

/-- The array of the component behind the update. -/
def updated (r : ComponentRef) (f : Value → Except Error Value) (c : Component) :
    Except Error ComponentArray :=
  match c.array.get? r.entity with
  | some old => do c.array.insert r.entity (← f old)
  | none => .error r.missing

theorem updated_form {r : ComponentRef} {f : Value → Except Error Value} {c : Component}
    {a : ComponentArray} (h : r.updated f c = .ok a) : a.form = c.array.form := by
  unfold updated at h
  split at h
  · obtain ⟨v, -, hinsert⟩ := Result.bind_eq_ok.mp h
    exact ComponentArray.insert_form hinsert
  · cases h

theorem update_eq_rewrite (r : ComponentRef) (s : Store) (f : Value → Except Error Value) :
    r.update s f = s.rewrite r.component r.missing (r.updated f) := by
  cases hc : s.get? r.component with
  | none =>
    have hget : r.get? s = none := by rw [get?, hc, Option.bind_none]
    rw [Store.rewrite_of_none hc, update, value, hget]
    rfl
  | some c =>
    have hget : r.get? s = c.array.get? r.entity := by rw [get?, hc, Option.bind_some]
    rw [Store.rewrite_of_some hc, update, updated, value, hget]
    cases c.array.get? r.entity with
    | none => rfl
    | some old =>
      dsimp only [Result.ok_bind]
      cases f old with
      | error err => rfl
      | ok v =>
        rw [Result.ok_bind, Result.ok_bind, Store.add_eq_rewrite, Store.rewrite_of_some hc]

theorem set_eq_update (r : ComponentRef) (s : Store) (v : Value) :
    r.set s v = r.update s fun _ => .ok v := by
  unfold set update value
  cases r.get? s <;> rfl

theorem setMember_eq_update (r : ComponentRef) (s : Store) (name : String) (v : Value) :
    r.setMember s name v = r.update s fun old => old.setMember name v := by
  unfold setMember set update value
  cases r.get? s with
  | none => rfl
  | some old => simp only [Result.ok_bind]

theorem setPath_eq_update (r : ComponentRef) (s : Store) (path : List String) (v : Value) :
    r.setPath s path v = r.update s fun old => old.setPath path v := by
  cases path with
  | nil => exact r.set_eq_update s v
  | cons name rest =>
    unfold setPath set update value
    cases r.get? s with
    | none => rfl
    | some old => simp only [Result.ok_bind]

end ComponentRef

namespace StoreCall
open Store

/-- The call registers nothing and gives every component another array of the same form. Which one
that is depends on the component only. -/
structure WorksBy (call : StoreCall) (g : ComponentId → Component → ComponentArray) : Prop where
  names : ∀ s : Store, (s.perform call).2.names = s.names
  form : ∀ (id : ComponentId) (c : Component), (g id c).form = c.array.form
  get? : ∀ (s : Store) (id : ComponentId),
    (s.perform call).2.get? id = (s.get? id).map fun c => { c with array := g id c }

theorem exists_worksBy_of_read {call : StoreCall} (h : ∀ s : Store, (s.perform call).2 = s) :
    ∃ g, call.WorksBy g := by
  refine ⟨fun _ c => c.array, fun s => by rw [h], fun _ _ => rfl, fun s id => ?_⟩
  rw [h]
  exact Option.map_id_apply.symm

/-- A change of one component leaves the others as they are, and that one too when it fails. -/
theorem exists_worksBy_of_rewrite {call : StoreCall} (id : ComponentId) (err : Error)
    (g : Component → Except Error ComponentArray)
    (hform : ∀ c a, g c = .ok a → a.form = c.array.form)
    (h : ∀ s : Store, (s.perform call).2 = (s.rewrite id err g).toOption.getD s) :
    ∃ g, call.WorksBy g := by
  refine ⟨fun id' c => if id' = id then (g c).toOption.getD c.array else c.array, fun s => ?_,
    fun id' c => ?_, fun s id' => ?_⟩
  · rw [h]
    cases hc : s.get? id with
    | none =>
      rw [rewrite_of_none hc]
      rfl
    | some c =>
      rw [rewrite_of_some hc]
      cases g c <;> rfl
  · split
    · cases ha : g c with
      | error err => rfl
      | ok a => exact hform c a ha
    · rfl
  · rw [h]
    by_cases hid : id' = id
    · subst hid
      simp only [↓reduceIte]
      cases hc : s.get? id' with
      | none =>
        rw [rewrite_of_none hc]
        exact hc
      | some c =>
        rw [rewrite_of_some hc, Option.map_some]
        cases g c with
        | error err => exact hc
        | ok a => exact get?_setArray_self hc a
    · simp only [if_neg hid, Option.map_id_fun']
      cases hc : s.get? id with
      | none =>
        rw [rewrite_of_none hc]
        rfl
      | some c =>
        rw [rewrite_of_some hc]
        cases g c with
        | error err => rfl
        | ok a => exact get?_setArray_ne s a hid

theorem exists_worksBy_of_update {call : StoreCall} (r : ComponentRef)
    (f : Value → Except Error Value)
    (h : ∀ s : Store, (s.perform call).2 = (r.update s f).toOption.getD s) :
    ∃ g, call.WorksBy g := by
  refine exists_worksBy_of_rewrite r.component r.missing (r.updated f)
    (fun _ _ => ComponentRef.updated_form) fun s => ?_
  rw [h, r.update_eq_rewrite]

theorem exists_worksBy {call : StoreCall} (h : call.registered? = none) :
    ∃ g, call.WorksBy g := by
  cases call with
  | register | registerTyped => cases h
  | add e id v =>
    refine exists_worksBy_of_rewrite id (.invalidComponentId id) (fun c => c.array.insert e v)
      (fun _ _ => ComponentArray.insert_form) fun s => ?_
    rw [perform, change, add_eq_rewrite]
  | remove e id =>
    refine exists_worksBy_of_rewrite id (.invalidComponentId id)
      (fun c => .ok (c.array.remove e)) (fun c a ha => ?_) fun s => ?_
    · cases ha
      exact ComponentArray.remove_form c.array e
    · rw [perform, remove_eq_rewrite]
  | get | reference | typed | all => exact exists_worksBy_of_read fun _ => rfl
  | destroyed e =>
    refine ⟨fun _ c => c.array.remove e, fun _ => rfl, fun _ c => ?_,
      fun s id => s.get?_removeEntity e id⟩
    exact ComponentArray.remove_form c.array e
  | set r v =>
    refine exists_worksBy_of_update r (fun _ => .ok v) fun s => ?_
    rw [perform, change, r.set_eq_update]
  | setMember r name v =>
    refine exists_worksBy_of_update r (fun old => old.setMember name v) fun s => ?_
    rw [perform, change, r.setMember_eq_update]
  | setPath r path v =>
    refine exists_worksBy_of_update r (fun old => old.setPath path v) fun s => ?_
    rw [perform, change, r.setPath_eq_update]

end StoreCall

namespace Store

/-! ### What a call does to the store -/

section
variable {call : StoreCall} {d : ComponentDescription} {s t : Store} {id : ComponentId}
  {c : Component}

theorem perform_registered (h : call.registered? = some d) (s : Store) :
    (s.perform call).2 = (register d s).state := by
  cases call with
  | register d' =>
    cases h
    rfl
  | registerTyped d' kind =>
    cases h
    exact Scene.registerTyped_state d kind s
  | _ => cases h

/-- A call that registers leaves the known components alone. -/
theorem get?_perform_registered (h : call.registered? = some d) (hs : s.get? id = some c) :
    (s.perform call).2.get? id = some c := by
  rw [perform_registered h]
  rcases s.register_state d with hr | ⟨-, hr⟩
  · rw [hr, hs]
  · have hlt : id.index < s.size := (List.getElem?_eq_some_iff.mp hs).1
    rw [hr, get?_push, if_neg (by omega), hs]

/-- A call that registers nothing does the same to a component in every store. -/
theorem get?_perform_congr (h : call.registered? = none) (hs : s.get? id = some c)
    (ht : t.get? id = some c) : (s.perform call).2.get? id = (t.perform call).2.get? id := by
  obtain ⟨g, hg⟩ := StoreCall.exists_worksBy h
  rw [hg.get?, hg.get?, hs, ht]

/-- A component keeps its description and the form of its array. -/
theorem exists_get?_perform (call : StoreCall) (hs : s.get? id = some c) :
    ∃ c', (s.perform call).2.get? id = some c' ∧ c'.description = c.description ∧
      c'.array.form = c.array.form := by
  cases hd : call.registered? with
  | none =>
    obtain ⟨g, hg⟩ := StoreCall.exists_worksBy hd
    refine ⟨{ c with array := g id c }, ?_, rfl, hg.form id c⟩
    rw [hg.get?, hs, Option.map_some]
  | some d => exact ⟨c, get?_perform_registered hd hs, rfl, rfl⟩

/-- Only a new name is added, and behind the others. -/
theorem catalog_perform (s : Store) (call : StoreCall) : (s.perform call).2.catalog =
    (s.extend (call.registered?.toList.filter fun d => (s.id? d.name).isNone)).catalog := by
  cases hd : call.registered? with
  | none =>
    obtain ⟨g, hg⟩ := StoreCall.exists_worksBy hd
    rw [Option.toList_none, List.filter_nil, extend_nil]
    refine Prod.ext (hg.names s) (List.ext_getElem? fun i => ?_)
    simp only [catalog]
    rw [← description_eq _ ⟨i⟩, ← description_eq _ ⟨i⟩, hg.get?, Option.map_map]
    rfl
  | some d =>
    rw [perform_registered hd, register_eq]
    cases hn : s.id? d.name <;> simp [hn, extend_nil]

theorem Regular.perform (hs : s.Regular) (call : StoreCall) : (s.perform call).2.Regular := by
  cases hd : call.registered? with
  | none =>
    obtain ⟨g, hg⟩ := StoreCall.exists_worksBy hd
    refine ⟨?_, fun id c hc => ?_⟩
    · refine hs.linked.congr ((s.catalog_perform call).trans ?_)
      rw [hd, Option.toList_none, List.filter_nil, extend_nil]
    · rw [hg.get?] at hc
      obtain ⟨c₀, hc₀, rfl⟩ := Option.map_eq_some_iff.mp hc
      exact (congrArg Form.kind (hg.form id c₀)).trans (hs.kinds id c₀ hc₀)
  | some d =>
    rw [perform_registered hd]
    exact hs.register d

end

/-! ### Numbers that are not in use -/

/-- A call with a number that is not in use is refused and changes nothing. -/
theorem perform_unused {s : Store} {call : StoreCall} {id : ComponentId}
    (hn : call.number? = some id) (hid : s.size ≤ id.index) :
    s.perform call = (.error (.invalidComponentId id), s) := by
  have hc := component_of_none (get?_eq_none_iff.mpr hid)
  cases call with
  | add | remove | get | reference | typed =>
    cases hn
    simp only [perform, change, add, remove, value?, ComponentRef.of, Store.typed, hc,
      Result.error_bind]
    rfl
  | _ => cases hn

/-- A call with a number that is in use never finds a number that is not. -/
theorem perform_used {s : Store} {call : StoreCall} {id : ComponentId}
    (hn : call.number? = some id) (hid : id.index < s.size) (id' : ComponentId) :
    (s.perform call).1 ≠ .error (.invalidComponentId id') := by
  have hsome : s.get? id = some s.components[id.index] := List.getElem?_eq_getElem hid
  have hc := component_of_some hsome
  cases call with
  | add e id v =>
    cases hn
    simp only [perform, change, add, hc, Result.ok_bind]
    cases hinsert : s.components[id.index].array.insert e v with
    | ok a =>
      intro h
      cases h
    | error err =>
      intro h
      cases ComponentArray.insert_error hinsert
      cases h
  | remove | get =>
    cases hn
    simp only [perform, remove, value?, hc, Result.ok_bind]
    intro h
    cases h
  | reference | typed =>
    cases hn
    simp only [perform, ComponentRef.of, Store.typed, hc, Result.ok_bind]
    split
    · intro h
      cases h
    · intro h
      cases h
  | _ => cases hn

end Store
end SceneScript
