import Mathlib.Data.List.Forall2
import SceneScript.Proofs.Component.Combination
import SceneScript.Proofs.Component.Form
import SceneScript.Proofs.Script.Calls
import SceneScript.Proofs.Script.Simulates
import SceneScript.Proofs.Script.Writes

/-! # One entity in two stores

A body runs for the same entity in two stores that may differ in everything but the components that
it is matched by. Its variables are then the same but for the numbers of the components, and what it
reads, writes and emits is the same.
-/
namespace SceneScript

namespace Table
universe u v
variable {α : Type u} {β : Type v} [Ord α] {r : β → β → Prop}

/-- The tables have the same keys, with related values. -/
def Alike (r : β → β → Prop) (t t' : Table α β) : Prop :=
  List.Forall₂ (fun x y => x.1 = y.1 ∧ r x.2 y.2) t t'

theorem Alike.find? {t t' : Table α β} (h : Alike r t t') (key : α) :
    (Table.find? t key = none ∧ Table.find? t' key = none) ∨
      ∃ v v', Table.find? t key = some v ∧ Table.find? t' key = some v' ∧ r v v' := by
  induction h with
  | nil => exact .inl ⟨rfl, rfl⟩
  | @cons x y rest rest' hxy _ ih =>
    obtain ⟨k, v⟩ := x
    obtain ⟨k', v'⟩ := y
    obtain ⟨rfl, hv⟩ := hxy
    by_cases hc : compare key k = .eq
    · exact .inr ⟨v, v', by simp only [Table.find?, if_pos hc],
        by simp only [Table.find?, if_pos hc], hv⟩
    · simpa only [Table.find?, if_neg hc] using ih

theorem Alike.insert {t t' : Table α β} (h : Alike r t t') (key : α) {v v' : β} (hv : r v v') :
    Alike r (Table.insert t key v) (Table.insert t' key v') := by
  induction h with
  | nil => exact .cons ⟨rfl, hv⟩ .nil
  | @cons x y rest rest' hxy hrest ih =>
    obtain ⟨k, w⟩ := x
    obtain ⟨k', w'⟩ := y
    obtain ⟨rfl, hw⟩ := hxy
    simp only [Table.insert]
    cases compare key k with
    | lt => exact .cons ⟨rfl, hv⟩ (.cons ⟨rfl, hw⟩ hrest)
    | eq => exact .cons ⟨rfl, hv⟩ hrest
    | gt => exact .cons ⟨rfl, hw⟩ ih

theorem alike_ofList {entries entries' : List (α × β)}
    (h : List.Forall₂ (fun x y => x.1 = y.1 ∧ r x.2 y.2) entries entries') :
    Alike r (ofList entries) (ofList entries') := by
  suffices hs : ∀ t t' : Table α β, Alike r t t' →
      Alike r (entries.foldl (fun t entry => Table.insert t entry.1 entry.2) t)
        (entries'.foldl (fun t entry => Table.insert t entry.1 entry.2) t') from
    hs [] [] .nil
  induction h with
  | nil => exact fun t t' ht => ht
  | @cons x y rest rest' hxy _ ih =>
    intro t t' ht
    obtain ⟨k, v⟩ := x
    obtain ⟨k', v'⟩ := y
    obtain ⟨rfl, hv⟩ := hxy
    exact ih _ _ (ht.insert k hv)

end Table

/-- References to the same component of the entity, each with the number of its own store. -/
structure ComponentRef.Twin (e : Entity) (names : List String) (s t : Store)
    (r r' : ComponentRef) : Prop where
  entity : r.entity = e ∧ r'.entity = e
  name : r.name = r'.name
  known : r.name ∈ names
  id : s.id? r.name = some r.component
  id' : t.id? r'.name = some r'.component

theorem ComponentRef.Twin.missing {e : Entity} {names : List String} {s t : Store}
    {r r' : ComponentRef} (h : ComponentRef.Twin e names s t r r') : r.missing = r'.missing := by
  rw [ComponentRef.missing, ComponentRef.missing, h.entity.1, h.entity.2, h.name]

namespace Script

/-- The same value, or an entity with related components. -/
inductive Variable.Alike (r : ComponentRef → ComponentRef → Prop) : Variable → Variable → Prop
  | value (v : Value) : Alike r (.value v) (.value v)
  | entity (ref : EntityRef) {components components' : Table String ComponentRef} :
    Table.Alike r components components' →
      Alike r (.entity ref components) (.entity ref components')

/-- Frames of two runs for the entity, where `s` and `t` are the stores at the start of the runs. -/
structure Frame.Twin (e : Entity) (names : List String) (s t : Store) (f f' : Frame) : Prop where
  stack : Table.Alike (Variable.Alike (ComponentRef.Twin e names s t)) f.stack f'.stack
  described : f.store.catalog = s.catalog
  described' : f'.store.catalog = t.catalog
  agree : ∀ name ∈ names, f.store.holding? e name = f'.store.holding? e name
  emitted : f.effects.emitted = f'.effects.emitted

section
variable {e : Entity} {names : List String} {s t : Store} {f f' : Frame} {r r' : ComponentRef}

/-- What the two references find: the same form and the same value, or nothing. -/
theorem Frame.Twin.holding (h : Frame.Twin e names s t f f')
    (hr : ComponentRef.Twin e names s t r r') :
    (r.get? f.store = none ∧ r'.get? f'.store = none) ∨
      ∃ form v, r.get? f.store = some v ∧ r'.get? f'.store = some v ∧
        f.store.form? r.component = some form ∧ f'.store.form? r'.component = some form := by
  obtain ⟨⟨he, he'⟩, hname, hknown, hid, hid'⟩ := hr
  have hid := (Store.id?_congr h.described r.name).trans hid
  have hid' := (Store.id?_congr h.described' r'.name).trans hid'
  have hagree := h.agree r.name hknown
  have hget : r.get? f.store = f.store.at? e r.component := by rw [← he]; rfl
  have hget' : r'.get? f'.store = f'.store.at? e r'.component := by rw [← he']; rfl
  rw [hget, hget']
  cases hv : f.store.holding? e r.name with
  | none =>
    have hv' : f'.store.holding? e r'.name = none := by rw [← hname, ← hagree, hv]
    exact .inl ⟨(Store.holding?_eq_none hid).mp hv, (Store.holding?_eq_none hid').mp hv'⟩
  | some held =>
    obtain ⟨form, v⟩ := held
    have hv' : f'.store.holding? e r'.name = some (form, v) := by rw [← hname, ← hagree, hv]
    obtain ⟨hform, hat⟩ := (Store.holding?_eq_some hid).mp hv
    obtain ⟨hform', hat'⟩ := (Store.holding?_eq_some hid').mp hv'
    exact .inr ⟨form, v, hat, hat', hform, hform'⟩

theorem Frame.Twin.value (h : Frame.Twin e names s t f f')
    (hr : ComponentRef.Twin e names s t r r') : r.value f.store = r'.value f'.store := by
  rcases h.holding hr with ⟨hv, hv'⟩ | ⟨form, v, hv, hv', -, -⟩
  · simp only [ComponentRef.value, hv, hv', hr.missing]
  · simp only [ComponentRef.value, hv, hv']

theorem Frame.Twin.valuesOf (h : Frame.Twin e names s t f f')
    {components components' : Table String ComponentRef}
    (hc : Table.Alike (ComponentRef.Twin e names s t) components components') :
    Script.valuesOf f.store components = Script.valuesOf f'.store components' := by
  induction hc with
  | nil => rfl
  | @cons x y rest rest' hxy _ ih =>
    obtain ⟨name, r⟩ := x
    obtain ⟨name', r'⟩ := y
    obtain ⟨rfl, hr⟩ := hxy
    simp only [Script.valuesOf, h.value hr, ih]

theorem Frame.Twin.read (h : Frame.Twin e names s t f f') (path : List String) :
    f.stack.read f.store path = f'.stack.read f'.store path := by
  cases path with
  | nil => rfl
  | cons first rest =>
    simp only [Stack.read]
    rcases h.stack.find? first with ⟨hf, hf'⟩ | ⟨v, v', hf, hf', hv⟩
    · rw [hf, hf']
    · rw [hf, hf']
      cases hv with
      | value v => rfl
      | entity ref hc =>
        cases rest with
        | nil => simp only [h.valuesOf hc]
        | cons component members =>
          simp only [componentOf]
          rcases hc.find? component with ⟨hr, hr'⟩ | ⟨r, r', hr, hr', htwin⟩
          · simp only [hr, hr', Result.error_bind]
          · simp only [hr, hr', Result.ok_bind, h.value htwin]

/-- Both writes are refused alike, or the frames behind them are twins again. -/
theorem Frame.Twin.set (hs : s.Linked) (ht : t.Linked) (h : Frame.Twin e names s t f f')
    (hr : ComponentRef.Twin e names s t r r') (v : Value) :
    (∃ err, r.set f.store v = .error err ∧ r'.set f'.store v = .error err) ∨
      ∃ store store', r.set f.store v = .ok store ∧ r'.set f'.store v = .ok store' ∧
        Frame.Twin e names s t { f with store := store } { f' with store := store' } := by
  rcases h.holding hr with ⟨hv, hv'⟩ | ⟨form, old, hv, hv', hform, hform'⟩
  · exact .inl ⟨r.missing, by simp only [ComponentRef.set, hv],
      by simp only [ComponentRef.set, hv', hr.missing]⟩
  · simp only [ComponentRef.set, hv, hv', hr.entity.1, hr.entity.2]
    have hkeep := Store.add_keep hform e v
    have hkeep' := Store.add_keep hform' e v
    cases hw : form.keep v with
    | error err =>
      rw [hw] at hkeep hkeep'
      exact .inl ⟨err, hkeep, hkeep'⟩
    | ok w =>
      rw [hw] at hkeep hkeep'
      obtain ⟨store, hadd, hat⟩ := hkeep
      obtain ⟨store', hadd', hat'⟩ := hkeep'
      refine .inr ⟨store, store', hadd, hadd', h.stack, ?_, ?_, fun name hname => ?_, h.emitted⟩
      · exact (Store.catalog_add hadd).trans h.described
      · exact (Store.catalog_add hadd').trans h.described'
      · have hid := (Store.id?_congr h.described r.name).trans hr.id
        have hid' := (Store.id?_congr h.described' r'.name).trans hr.id'
        change store.holding? e name = store'.holding? e name
        by_cases hn : name = r.name
        · subst hn
          have hsame : store.id? r.name = some r.component :=
            (Store.id?_congr (Store.catalog_add hadd) _).trans hid
          have hsame' : store'.id? r.name = some r'.component := by
            rw [Store.id?_congr (Store.catalog_add hadd'), hr.name, hid']
          rw [(Store.holding?_eq_some hsame).mpr ⟨(Store.form?_add hadd _).trans hform, hat⟩,
            (Store.holding?_eq_some hsame').mpr ⟨(Store.form?_add hadd' _).trans hform', hat'⟩]
        · have hn' : name ≠ r'.name := fun heq => hn (heq.trans hr.name.symm)
          rw [(hs.congr h.described).holding?_add_ne hid hadd fun hboth => hn hboth.2,
            (ht.congr h.described').holding?_add_ne hid' hadd' fun hboth => hn' hboth.2]
          exact h.agree name hname

theorem Frame.Twin.setPath (hs : s.Linked) (ht : t.Linked) (h : Frame.Twin e names s t f f')
    (hr : ComponentRef.Twin e names s t r r') (path : List String) (v : Value) :
    (∃ err, r.setPath f.store path v = .error err ∧ r'.setPath f'.store path v = .error err) ∨
      ∃ store store', r.setPath f.store path v = .ok store ∧
        r'.setPath f'.store path v = .ok store' ∧
        Frame.Twin e names s t { f with store := store } { f' with store := store' } := by
  cases path with
  | nil => exact h.set hs ht hr v
  | cons name rest =>
    simp only [ComponentRef.setPath, h.value hr]
    cases r'.value f'.store with
    | error err => exact .inl ⟨err, rfl, rfl⟩
    | ok old =>
      simp only [Result.ok_bind]
      cases old.setPath (name :: rest) v with
      | error err => exact .inl ⟨err, rfl, rfl⟩
      | ok new => exact h.set hs ht hr new

theorem Frame.Twin.write (hs : s.Linked) (ht : t.Linked) (h : Frame.Twin e names s t f f')
    (path : List String) (v : Value) :
    (∃ fault, f.stack.write f.store path v = .error fault ∧
        f'.stack.write f'.store path v = .error fault) ∨
      ∃ stack stack' store store', f.stack.write f.store path v = .ok (stack, store) ∧
        f'.stack.write f'.store path v = .ok (stack', store') ∧
        Frame.Twin e names s t { f with stack := stack, store := store }
          { f' with stack := stack', store := store' } := by
  cases path with
  | nil => exact .inl ⟨_, rfl, rfl⟩
  | cons first rest =>
    simp only [Stack.write]
    rcases h.stack.find? first with ⟨hf, hf'⟩ | ⟨bound, bound', hf, hf', hbound⟩
    · simp only [hf, hf']
      cases rest with
      | nil =>
        refine .inr ⟨_, _, _, _, rfl, rfl, ?_⟩
        exact ⟨h.stack.insert first (.value v), h.described, h.described', h.agree, h.emitted⟩
      | cons _ _ => exact .inl ⟨_, rfl, rfl⟩
    · simp only [hf, hf']
      cases hbound with
      | value old =>
        cases hset : old.setPath rest v with
        | error err =>
          simp only [hset, ofCore, Result.error_bind]
          exact .inl ⟨_, rfl, rfl⟩
        | ok new =>
          simp only [hset, ofCore, Result.ok_bind]
          refine .inr ⟨_, _, _, _, rfl, rfl, ?_⟩
          exact ⟨h.stack.insert first (.value new), h.described, h.described', h.agree, h.emitted⟩
      | entity ref hc =>
        cases rest with
        | nil => exact .inl ⟨_, rfl, rfl⟩
        | cons component members =>
          simp only [componentOf]
          rcases hc.find? component with ⟨hr, hr'⟩ | ⟨r, r', hr, hr', htwin⟩
          · simp only [hr, hr', ofCore, Result.error_bind]
            exact .inl ⟨_, rfl, rfl⟩
          · simp only [hr, hr', ofCore, Result.ok_bind]
            rcases h.setPath hs ht htwin members v with
              ⟨err, hp, hp'⟩ | ⟨store, store', hp, hp', hnext⟩
            · simp only [hp, hp', Result.error_bind]
              exact .inl ⟨_, rfl, rfl⟩
            · simp only [hp, hp', Result.ok_bind]
              exact .inr ⟨_, _, _, _, rfl, rfl, hnext⟩

end

/-- The small steps of a body are alike on twins, as long as no number is drawn. -/
theorem twins_simulate (e : Entity) (names : List String) {s t : Store} (hs : s.Linked)
    (ht : t.Linked) (setting setting' : Setting) (hsystem : setting.system = setting'.system)
    (hconfig : setting.config = setting'.config)
    (hroster : setting.context.roster = setting'.context.roster) :
    Simulates setting setting' (· ≠ "randint") (Frame.Twin e names s t) where
  system := hsystem
  config := hconfig
  read path f f' h := by
    simp only [Run.read, Action.get_bind, h.read path]
    exact ⟨rfl, rfl, h⟩
  write path v f f' h := by
    rcases h.write hs ht path v with
      ⟨fault, hw, hw'⟩ | ⟨stack, stack', store, store', hw, hw', hnext⟩
    · rw [Run.write_error hw, Run.write_error hw']
      exact ⟨rfl, rfl, h⟩
    · rw [Run.write_ok hw, Run.write_ok hw']
      exact ⟨rfl, rfl, hnext⟩
  call name args hname f f' h := by
    obtain ⟨hresult, hlog, hemitted⟩ := Builtin.call_agrees hname hroster args h.emitted
    exact ⟨congrArg (Except.mapError RuntimeError.fault) hresult, hlog, h.stack, h.described,
      h.described', h.agree, hemitted⟩

/-! ### Invocations -/

theorem refs_twins {names : List String} {s t : Store} {m m' : Matching} (hm : m.Columns s names)
    (hm' : m'.Columns t names) (e : Entity) :
    List.Forall₂ (ComponentRef.Twin e names s t) (m.bind e).refs (m'.bind e).refs := by
  suffices h : ∀ columns columns' : List (ComponentId × String),
      columns.map Prod.snd = columns'.map Prod.snd →
        (∀ column ∈ columns, column.2 ∈ names ∧ s.id? column.2 = some column.1) →
          (∀ column ∈ columns', t.id? column.2 = some column.1) →
            List.Forall₂ (ComponentRef.Twin e names s t)
              (columns.map fun column => ⟨e, column.1, column.2⟩)
              (columns'.map fun column => ⟨e, column.1, column.2⟩) from
    h m.components m'.components (hm.names.trans hm'.names.symm)
      (fun column hc => ⟨hm.known hc, hm.ids column hc⟩) hm'.ids
  intro columns
  induction columns with
  | nil =>
    intro columns' hsame _ _
    cases columns' with
    | nil => exact .nil
    | cons _ _ => simp at hsame
  | cons column rest ih =>
    intro columns' hsame hids hids'
    cases columns' with
    | nil => simp at hsame
    | cons column' rest' =>
      obtain ⟨hname, hrest⟩ := List.cons.inj hsame
      obtain ⟨hknown, hid⟩ := hids column (List.mem_cons_self ..)
      have hid' := hids' column' (List.mem_cons_self ..)
      refine .cons ⟨⟨rfl, rfl⟩, hname, hknown, hid, hid'⟩ (ih rest' hrest ?_ ?_)
      · exact fun other ho => hids other (List.mem_cons_of_mem _ ho)
      · exact fun other ho => hids' other (List.mem_cons_of_mem _ ho)

section
variable {s t : Store} {d : Declaration} {m m' : Matching} {c c' : EventContext}

/-- Bodies for the same entity start with the same variables, whatever the numbers are. -/
theorem entry_twins (hm : m.Columns s d.components)
    (hm' : m'.Columns t d.components) (hgroups : c.groups = []) (hgroups' : c'.groups = [])
    (hpayload : c.event.payload = c'.event.payload) (hroster : c.roster = c'.roster) (e : Entity) :
    Table.Alike (Variable.Alike (ComponentRef.Twin e d.components s t))
      (Stack.entry d (m.bind e) c) (Stack.entry d (m'.bind e) c') := by
  have hrefs := refs_twins hm hm' e
  have hentity : Variable.Alike (ComponentRef.Twin e d.components s t)
      (.ofBinding c (m.bind e)) (.ofBinding c' (m'.bind e)) := by
    unfold Variable.ofBinding
    rw [hroster]
    refine .entity _ (Table.alike_ofList ?_)
    rw [List.forall₂_map_left_iff, List.forall₂_map_right_iff]
    exact hrefs.imp fun r r' hr => ⟨hr.name, hr⟩
  have hempty : Table.Alike (Variable.Alike (ComponentRef.Twin e d.components s t))
      ([] : Stack) ([] : Stack) := .nil
  have hstart := hempty.insert d.entityName hentity
  simp only [Stack.entry, hgroups, hgroups', List.foldl_nil]
  cases d.event.payload with
  | none => exact hstart
  | some payload =>
    rw [hpayload]
    exact hstart.insert payload.name (.value c'.event.payload)

/-- What a body does for an entity depends on nothing but the entity's own components that it is
matched by, the payload and who is alive. -/
theorem execute_twins {body : Node} (hbody : "randint" ∉ body.callees) (hs : s.Linked)
    (ht : t.Linked) (hm : m.Columns s d.components) (hm' : m'.Columns t d.components)
    (hgroups : c.groups = []) (hgroups' : c'.groups = [])
    (hpayload : c.event.payload = c'.event.payload) (hroster : c.roster = c'.roster) {e : Entity}
    (hagree : ∀ name ∈ d.components, s.holding? e name = t.holding? e name) (config : Config)
    (random random' : Random) :
    let o := execute config body d (m.bind e) c ⟨s, random⟩
    let o' := execute config body d (m'.bind e) c' ⟨t, random'⟩
    o.result = o'.result ∧ o.log = o'.log ∧
      ∀ name ∈ d.components, o.state.store.holding? e name = o'.state.store.holding? e name := by
  have hstart : Frame.Twin e d.components s t
      (Frame.entry d (m.bind e) c ⟨s, random⟩) (Frame.entry d (m'.bind e) c' ⟨t, random'⟩) :=
    ⟨entry_twins hm hm' hgroups hgroups' hpayload hroster e, rfl, rfl, hagree, rfl⟩
  have hsim := twins_simulate e d.components hs ht ⟨d.name, c, config⟩ ⟨d.name, c', config⟩ rfl
    rfl hroster
  have hallowed : ∀ name ∈ body.callees, name ≠ "randint" := fun name hn heq => hbody (heq ▸ hn)
  obtain ⟨hresult, hlog, htwin⟩ := block_alike hsim body hallowed _ _ hstart
  refine ⟨?_, hlog, htwin.agree⟩
  simp only [execute, hresult, htwin.emitted]

end

end Script
end SceneScript
