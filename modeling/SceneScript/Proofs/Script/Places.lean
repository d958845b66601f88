import SceneScript.Proofs.Component.Names
import SceneScript.Proofs.Script.Calls
import SceneScript.Proofs.Script.Writes

/-! # The places that a body can reach

A body finds places only in the entity variables that it starts with, which are the matched entity
and the groups of the event. It has no way to come by another one, so nothing else in the store
changes, whatever the body does and wherever it fails.
-/
namespace SceneScript.Script

/-- The entity variables reach none but the given places. -/
def Stack.Within (places : List ComponentRef) (s : Stack) : Prop :=
  ∀ name ref components, Table.find? s name = some (.entity ref components) →
    ∀ member r, Table.find? components member = some r → r ∈ places

namespace Stack
variable {places : List ComponentRef} {s : Stack}

theorem bind_all {P : Variable → Prop}
    (hs : ∀ name x, Table.find? s name = some x → P x) {name : String} {v : Variable} (hv : P v)
    {other : String} {x : Variable} (h : Table.find? (s.bind name v) other = some x) : P x := by
  by_cases hn : other = name
  · subst hn
    rw [Stack.bind, Table.find?_insert_self] at h
    cases h
    exact hv
  · rw [Stack.bind, Table.find?_insert_ne _ _ hn] at h
    exact hs other x h

theorem Within.bind_value (h : s.Within places) (name : String) (v : Value) :
    (s.bind name (.value v)).Within places := by
  intro other ref components hf
  refine bind_all (P := fun x => ∀ ref components, x = .entity ref components →
    ∀ member r, Table.find? components member = some r → r ∈ places) ?_ ?_ hf ref components rfl
  · rintro name x hx ref components rfl
    exact h name ref components hx
  · intro ref components hv
    cases hv

/-- What holds of the matched entity, the payload and the groups holds of every variable that a
body starts with. -/
theorem entry_all {d : Declaration} {matched : Binding} {c : EventContext} {P : Variable → Prop}
    (hm : P (.ofBinding c matched)) (hp : P (.value c.event.payload))
    (hg : ∀ group ∈ c.groups, P (.ofBinding c group.2)) {name : String} {x : Variable}
    (h : Table.find? (Stack.entry d matched c) name = some x) : P x := by
  have hgroups : ∀ (groups : List (String × Binding)) (s : Stack),
      (∀ group ∈ groups, P (.ofBinding c group.2)) →
        (∀ name x, Table.find? s name = some x → P x) → ∀ name x,
          Table.find? (groups.foldl (fun s group => Stack.bind s group.1 (.ofBinding c group.2)) s)
            name = some x → P x := by
    intro groups
    induction groups with
    | nil => exact fun s _ hs => hs
    | cons group rest ih =>
      intro s hall hs
      rw [List.forall_mem_cons] at hall
      exact ih _ hall.2 fun _ _ => bind_all hs hall.1
  have hentity : ∀ name x, Table.find? (Stack.bind [] d.entityName (.ofBinding c matched)) name =
      some x → P x := fun _ _ => bind_all (fun _ _ hf => by cases hf) hm
  refine hgroups c.groups _ hg ?_ name x h
  cases d.event.payload with
  | none => exact hentity
  | some payload => exact fun _ _ => bind_all hentity hp

end Stack

/-- The components of an entity variable are the references of its binding, by name. -/
theorem Variable.mem_ofBinding {c : EventContext} {b : Binding} {ref : EntityRef}
    {components : Table String ComponentRef} (h : Variable.ofBinding c b = .entity ref components)
    {member : String} {r : ComponentRef} (hr : Table.find? components member = some r) :
    r ∈ b.refs ∧ r.name = member := by
  cases h
  obtain ⟨r', hm, heq⟩ := List.mem_map.mp (Table.mem_of_find?_ofList hr)
  cases heq
  exact ⟨hm, rfl⟩

/-- The places of the matched entity and of the groups. -/
def reached (matched : Binding) (c : EventContext) : List ComponentRef :=
  matched.refs ++ c.groups.flatMap fun group => group.2.refs

/-- The components that a body finds are references of its bindings, under their names. -/
theorem mem_reached {d : Declaration} {matched : Binding} {c : EventContext} {name : String}
    {ref : EntityRef} {components : Table String ComponentRef}
    (h : Table.find? (Stack.entry d matched c) name = some (.entity ref components))
    {member : String} {r : ComponentRef} (hr : Table.find? components member = some r) :
    r ∈ reached matched c ∧ r.name = member := by
  refine Stack.entry_all (P := fun x => ∀ ref components, x = .entity ref components →
    ∀ member r, Table.find? components member = some r → r ∈ reached matched c ∧ r.name = member)
    ?_ ?_ ?_ h ref components rfl member r hr
  · intro ref components hv member r hr
    obtain ⟨hm, hname⟩ := Variable.mem_ofBinding hv hr
    exact ⟨List.mem_append_left _ hm, hname⟩
  · intro ref components hv
    cases hv
  · intro group hg ref components hv member r hr
    obtain ⟨hm, hname⟩ := Variable.mem_ofBinding hv hr
    exact ⟨List.mem_append_right _ (List.mem_flatMap.mpr ⟨group, hg, hm⟩), hname⟩

theorem entry_within (d : Declaration) (matched : Binding) (c : EventContext) :
    (Stack.entry d matched c).Within (reached matched c) :=
  fun _ _ _ h _ _ hr => (mem_reached h hr).1

/-- An assignment writes to a place that the stack reaches, if it writes to one at all. -/
theorem write_elsewhere {places : List ComponentRef} {s s' : Stack} {store store' : Store}
    {path : List String} {v : Value} (hs : s.Within places)
    (h : s.write store path v = .ok (s', store')) {e : Entity} {id : ComponentId}
    (hout : ∀ r ∈ places, ¬(r.entity = e ∧ r.component = id)) :
    s'.Within places ∧ store'.at? e id = store.at? e id := by
  obtain ⟨first, rest, -,
    ⟨v', rfl, rfl, -⟩ | ⟨ref, components, component, members, r, -, hf, hr, rfl, hp⟩⟩ :=
    Stack.write_ok h
  · exact ⟨hs.bind_value first v', rfl⟩
  · obtain ⟨old, new, _, _, hset⟩ := ComponentRef.setPath_ok hp
    have hr' := hs first ref components hf component r hr
    exact ⟨hs, Store.at?_add_ne (ComponentRef.set_ok hset).2 (hout r hr')⟩

theorem elsewhere_follows (s : Setting) {places : List ComponentRef} {e : Entity}
    {id : ComponentId} (hout : ∀ r ∈ places, ¬(r.entity = e ∧ r.component = id)) :
    Follows s fun f f' => f.stack.Within places →
      f'.stack.Within places ∧ f'.store.at? e id = f.store.at? e id where
  refl _ h := ⟨h, rfl⟩
  trans h₁ h₂ h := by
    obtain ⟨hw₁, heq₁⟩ := h₁ h
    obtain ⟨hw₂, heq₂⟩ := h₂ hw₁
    exact ⟨hw₂, heq₂.trans heq₁⟩
  call _ _ _ h := ⟨h, rfl⟩
  write hw h := write_elsewhere h hw hout

/-- A run leaves the value in every place that it does not reach. -/
theorem execute_elsewhere (config : Config) (body : Node) (d : Declaration) (matched : Binding)
    (c : EventContext) (w : World) {e : Entity} {id : ComponentId}
    (hout : ∀ r ∈ reached matched c, ¬(r.entity = e ∧ r.component = id)) :
    (execute config body d matched c w).state.store.at? e id = w.store.at? e id := by
  obtain ⟨f, hf, hworld, -⟩ :=
    execute_follows config body d matched c (elsewhere_follows ⟨d.name, c, config⟩ hout) w
  rw [hworld]
  exact (hf (entry_within d matched c)).2

theorem addsLive_follows (s : Setting) :
    Follows s fun f f' => Builtin.AddsLive s.context.roster f.effects f'.effects where
  refl _ := Builtin.addsLive_of_emitted rfl
  trans h₁ h₂ := h₁.trans h₂
  call name args f := Builtin.call_addsLive name s.context args f.effects
  write _ := Builtin.addsLive_of_emitted rfl

/-- A run emits events for nobody but live entities. -/
theorem execute_live {config : Config} {body : Node} {d : Declaration} {matched : Binding}
    {c : EventContext} {w : World} {events : List Event}
    (h : (execute config body d matched c w).result = .ok events) :
    ∀ event ∈ events, ∀ e ∈ event.entities, c.roster.isAlive e = true := by
  obtain ⟨f, hf, -, hevents⟩ :=
    execute_follows config body d matched c (addsLive_follows ⟨d.name, c, config⟩) w
  obtain ⟨new, hnew, hlive⟩ := hf
  rw [hevents events h, hnew]
  exact hlive

end SceneScript.Script
