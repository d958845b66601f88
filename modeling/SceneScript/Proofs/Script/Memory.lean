import SceneScript.Proofs.Component.Combination
import SceneScript.Proofs.Script.Locations
import SceneScript.Proofs.Script.Places
import SceneScript.Proofs.Value.Path

/-! # Variables are a memory

The variables of a script and the places of its entities behave as one memory. An assignment that
succeeds changes the value in one cell, in the written member only, and every path that leads to the
cell shows it, under whatever name. All other paths read what they read before. An assignment that
fails changes nothing.
-/
namespace SceneScript

/-- A place in an array that gives back what it takes holds what was put there. -/
theorem Store.at?_add_self {s s' : Store} {e : Entity} {id : ComponentId} {v : Value}
    (h : s.add e id v = .ok s') (hx : ∀ c, s.get? id = some c → c.array.Exact) :
    s'.at? e id = some v := by
  obtain ⟨c, a, hc, hi, rfl⟩ := Store.add_ok h
  rw [Store.at?, Store.get?_setArray_self hc, Option.bind_some]
  exact hi.same (hx c hc)

namespace Script

/-- The cells of the entities are in arrays that give back what they take, under the numbers of
their names, and the members of all values are in order. -/
structure Frame.Sane (f : Frame) : Prop where
  named : ∀ name component r, f.stack.component? name component = some r →
    f.store.id? component = some r.component
  exact : ∀ name component r, f.stack.component? name component = some r →
    ∀ c, f.store.get? r.component = some c → c.array.Exact
  ordered : ∀ path cell members, f.stack.locate? path = some (cell, members) →
    ∀ v, f.value? cell = some v → v.Ordered

/-- All that a successful assignment does to a frame. -/
structure Frame.Step (f : Frame) (cell : Cell) (members : List String) (v : Value) (f' : Frame) :
    Prop where
  entities : f'.stack.entity? = f.stack.entity?
  catalog : f'.store.catalog = f.store.catalog
  forms : ∀ id, f'.store.form? id = f.store.form? id
  /-- A new variable holds the written value; a value that was there is written to. -/
  filled : ((∃ name, cell = .owned name) ∧ members = [] ∧ f.value? cell = none ∧
      f'.value? cell = some v) ∨
    ∃ old new, f.value? cell = some old ∧ old.setPath members v = .ok new ∧
      f'.value? cell = some new
  other : ∀ cell', cell' ≠ cell → f'.value? cell' = f.value? cell'
  store_eq : ∀ name, cell = .owned name → f'.store = f.store
  stack_eq : ∀ e id, cell = .place e id → f'.stack = f.stack

namespace Frame
variable {f f' : Frame} {path members : List String} {cell : Cell} {v : Value}

theorem value?_bind (name : String) (w : Value) (cell : Cell) :
    value? { f with stack := f.stack.bind name (.value w) } cell =
      if cell = .owned name then some w else f.value? cell := by
  cases cell with
  | owned other =>
    simp only [value?, Stack.bind, Cell.owned.injEq]
    by_cases h : other = name
    · rw [if_pos h, h, Table.find?_insert_self]
    · rw [if_neg h, Table.find?_insert_ne _ _ h]
  | place e id => rw [if_neg (by simp)]; rfl

/-- An assignment to a variable that stands for no entity. -/
theorem step_bind {name : String} (he : f.stack.entity? name = none) {w : Value}
    (hw : (members = [] ∧ f.value? (.owned name) = none ∧ w = v) ∨
      ∃ old, f.value? (.owned name) = some old ∧ old.setPath members v = .ok w) :
    f.Step (.owned name) members v { f with stack := f.stack.bind name (.value w) } := by
  have hself : value? { f with stack := f.stack.bind name (.value w) } (.owned name) = some w := by
    rw [value?_bind, if_pos rfl]
  refine ⟨?_, rfl, fun _ => rfl, ?_, fun cell' hne => ?_, fun _ _ => rfl, fun _ _ hc => by cases hc⟩
  · funext other
    rw [Stack.entity?_bind]
    split
    · rename_i ho
      rw [ho, he]
    · rfl
  · rcases hw with ⟨hm, hnone, rfl⟩ | ⟨old, hold, hset⟩
    · exact .inl ⟨⟨name, rfl⟩, hm, hnone, hself⟩
    · exact .inr ⟨old, w, hold, hset, hself⟩
  · rw [value?_bind, if_neg hne]

/-- An assignment to the place of a component. -/
theorem step_place {r : ComponentRef} {store : Store}
    (hx : ∀ c, f.store.get? r.component = some c → c.array.Exact)
    (h : r.setPath f.store members v = .ok store) :
    f.Step (.of r) members v { f with store := store } := by
  obtain ⟨old, new, hold, hset, hput⟩ := ComponentRef.setPath_ok h
  have hadd := (ComponentRef.set_ok hput).2
  refine ⟨rfl, Store.catalog_add hadd, Store.form?_add hadd, ?_, fun cell' hne => ?_,
    fun _ hc => (by cases hc), fun _ _ _ => rfl⟩
  · exact .inr ⟨old, new, hold, hset, Store.at?_add_self hadd hx⟩
  · cases cell' with
    | owned name => rfl
    | place e id =>
      refine Store.at?_add_ne hadd ?_
      rintro ⟨rfl, rfl⟩
      exact hne rfl

/-- An assignment that succeeds changes the one cell that its path leads to. -/
theorem step_of_write (hf : f.Sane) {stack : Stack} {store : Store}
    (h : f.stack.write f.store path v = .ok (stack, store)) :
    ∃ cell members, f.stack.locate? path = some (cell, members) ∧
      f.Step cell members v { f with stack := stack, store := store } := by
  cases path with
  | nil => cases h
  | cons first rest =>
    -- the path begins with a name that stands for nothing, for a value or for an entity
    cases hb : Table.find? f.stack first with
    | none =>
      have he : f.stack.entity? first = none := by simp only [Stack.entity?, hb]
      have hv : f.value? (.owned first) = none := by simp only [value?, hb]
      cases rest with
      | nil =>
        simp only [Stack.write, hb, Except.ok.injEq, Prod.mk.injEq] at h
        obtain ⟨rfl, rfl⟩ := h
        exact ⟨_, _, Stack.locate?_variable he [], step_bind he (.inl ⟨rfl, hv, rfl⟩)⟩
      | cons component members => simp [Stack.write, hb] at h
    | some bound =>
      cases bound with
      | value old =>
        have he : f.stack.entity? first = none := by simp only [Stack.entity?, hb]
        have hv : f.value? (.owned first) = some old := by simp only [value?, hb]
        simp only [Stack.write, hb, ofCore, Result.mapError_eq_ok, Result.bind_eq_ok,
          Result.pure_eq, Except.ok.injEq, Prod.mk.injEq] at h
        obtain ⟨new, hset, rfl, rfl⟩ := h
        exact ⟨_, _, Stack.locate?_variable he rest, step_bind he (.inr ⟨old, hv, hset⟩)⟩
      | entity ref components =>
        obtain ⟨_, _, heq, ⟨_, -, -, hne⟩ | ⟨_, _, component, members, r, rfl, hb', hr, rfl, hp⟩⟩ :=
          Stack.write_ok h
        · cases heq
          exact absurd hb (hne _ _)
        · cases heq
          have hc : f.stack.component? first component = some r :=
            Option.bind_eq_some_iff.mpr ⟨_, Stack.entity?_eq_some.mpr hb', hr⟩
          exact ⟨_, _, Stack.locate?_component hc members,
            step_place (hf.exact first component r hc) hp⟩

theorem Step.component?_eq (hs : f.Step cell members v f') (name component : String) :
    f'.stack.component? name component = f.stack.component? name component := by
  simp only [Stack.component?, hs.entities]

/-- An assignment of a value with its members in order keeps all as it should be. -/
theorem Sane.step (hf : f.Sane) (hl : f.stack.locate? path = some (cell, members))
    (hs : f.Step cell members v f') (hv : v.Ordered) : f'.Sane where
  named name component r hr := by
    rw [hs.component?_eq] at hr
    rw [Store.id?_congr hs.catalog]
    exact hf.named name component r hr
  exact name component r hr c' hc' := by
    rw [hs.component?_eq] at hr
    have hform := hs.forms r.component
    rw [Store.form?, hc', Option.map_some, eq_comm, Store.form?, Option.map_eq_some_iff] at hform
    obtain ⟨c, hc, hform⟩ := hform
    have hexact := hf.exact name component r hr c hc
    exact ComponentArray.exact_congr (congrArg Form.kind hform.symm)
      (congrArg Form.shape hform.symm) hexact
  ordered other cell' members' hl' w hw := by
    rw [Stack.locate?_congr hs.entities] at hl'
    by_cases hcell : cell' = cell
    · subst hcell
      rcases hs.filled with ⟨-, -, -, hnew⟩ | ⟨old, new, hold, hset, hnew⟩
      · cases hw.symm.trans hnew
        exact hv
      · cases hw.symm.trans hnew
        exact (hf.ordered path _ _ hl old hold).setPath hv hset
    · rw [hs.other cell' hcell] at hw
      exact hf.ordered other cell' members' hl' w hw

/-- An assignment fills no empty place and empties none. -/
theorem Step.filled_iff (hs : f.Step cell members v f') (r : ComponentRef) :
    (r.get? f'.store).isSome = (r.get? f.store).isSome := by
  by_cases hr : Cell.of r = cell
  · rcases hs.filled with ⟨⟨name, hn⟩, -⟩ | ⟨old, new, hold, -, hnew⟩
    · cases hr.trans hn
    · rw [← hr] at hold hnew
      have hold : r.get? f.store = some old := hold
      have hnew : r.get? f'.store = some new := hnew
      rw [hold, hnew]
      rfl
  · have hsame : r.get? f'.store = r.get? f.store := hs.other (Cell.of r) hr
    rw [hsame]

end Frame

/-- What a script sees of a successful assignment of a value to a path, which leads to members of
a cell. -/
structure Frame.Consistent (f : Frame) (path : List String) (cell : Cell) (members : List String)
    (v : Value) (f' : Frame) : Prop where
  /-- The path gives the value back. -/
  same : f'.read path = .ok v
  /-- So does the same component member under every other name of the entity. -/
  aliased : ∀ name component rest r, path = name :: component :: rest →
    f.stack.component? name component = some r → ∀ other r',
      f.stack.component? other component = some r' → r'.entity = r.entity →
        f'.read (other :: component :: rest) = .ok v
  /-- Behind the written member there is what is in the value. -/
  behind : ∀ other rest, f.stack.locate? other = some (cell, members ++ rest) →
    f'.read other = ofCore (v.memberPath rest)
  /-- A value around the written member has changed in this member. -/
  front : ∀ other front name back, members = front ++ name :: back →
    f.stack.locate? other = some (cell, front) → ∃ x x', f.read other = .ok x ∧
      x.setPath (name :: back) v = .ok x' ∧ f'.read other = .ok x'
  /-- Other cells, and members that diverge, read as before, errors included. -/
  apart : ∀ other cell' members', f.stack.locate? other = some (cell', members') →
    cell' ≠ cell ∨ Diverges members members' → f'.read other = f.read other
  /-- So does what is no whole entity and leads to no cell. -/
  nowhere : ∀ other, f.stack.locate? other = none →
    (∀ name, other = [name] → f.stack.entity? name = none) → f'.read other = f.read other
  /-- An entity that cannot be read as a whole still cannot. -/
  unreadable : ∀ name fault, (f.stack.entity? name).isSome → f.read [name] = .error fault →
    f'.read [name] = .error fault
  /-- A whole entity has changed in the written member, if it has the cell. -/
  whole : ∀ name ref before, (f.stack.entity? name).isSome →
    f.read [name] = .ok (.scriptEntity ref before) → ∃ after,
      f'.read [name] = .ok (.scriptEntity ref after) ∧ Table.keys after = Table.keys before ∧
        (∀ component, f.stack.locate? [name, component] = some (cell, []) → ∃ x x',
          Table.find? before component = some x ∧ x.setPath members v = .ok x' ∧
            Table.find? after component = some x') ∧
        ∀ component, f.stack.locate? [name, component] ≠ some (cell, []) →
          Table.find? after component = Table.find? before component
  /-- No other variable and no other place of any array has changed. -/
  others : ∀ cell', cell' ≠ cell → f'.value? cell' = f.value? cell'
  /-- An assignment to a variable changes no array. -/
  store_eq : ∀ name, cell = .owned name → f'.store = f.store
  /-- An assignment to a place changes no variable. -/
  stack_eq : ∀ e id, cell = .place e id → f'.stack = f.stack
  entities : f'.stack.entity? = f.stack.entity?

namespace Frame
variable {f f' : Frame} {path members : List String} {cell : Cell} {v : Value}

theorem Step.read_behind (hs : f.Step cell members v f') (hf : f.Sane)
    (hl : f.stack.locate? path = some (cell, members)) {other rest : List String}
    (ho : f.stack.locate? other = some (cell, members ++ rest)) :
    f'.read other = ofCore (v.memberPath rest) := by
  have ho' := (Stack.locate?_congr hs.entities other).trans ho
  rcases hs.filled with ⟨-, hm, -, hnew⟩ | ⟨old, new, hold, hset, hnew⟩
  · rw [read_located ho' hnew, hm, List.nil_append]
  · have hw := Value.written (hf.ordered path cell members hl old hold) hset
    rw [read_located ho' hnew, hw.behind]

theorem Step.read_front (hs : f.Step cell members v f') (hf : f.Sane)
    (hl : f.stack.locate? path = some (cell, members)) {other front back : List String}
    {name : String} (hm : members = front ++ name :: back)
    (ho : f.stack.locate? other = some (cell, front)) :
    ∃ x x', f.read other = .ok x ∧ x.setPath (name :: back) v = .ok x' ∧
      f'.read other = .ok x' := by
  have ho' := (Stack.locate?_congr hs.entities other).trans ho
  rcases hs.filled with ⟨-, hnil, -⟩ | ⟨old, new, hold, hset, hnew⟩
  · rw [hnil] at hm
    simp at hm
  · have hw := Value.written (hf.ordered path cell members hl old hold) hset
    obtain ⟨x, x', hx, hset', hx'⟩ := hw.front front (name :: back) hm
    refine ⟨x, x', ?_, hset', ?_⟩
    · rw [read_located ho hold, hx]
      rfl
    · rw [read_located ho' hnew, hx']
      rfl

theorem Step.read_apart (hs : f.Step cell members v f') (hf : f.Sane)
    (hl : f.stack.locate? path = some (cell, members)) {other members' : List String}
    {cell' : Cell} (ho : f.stack.locate? other = some (cell', members'))
    (ha : cell' ≠ cell ∨ Diverges members members') : f'.read other = f.read other := by
  by_cases hcell : cell' = cell
  · subst hcell
    have hd := ha.resolve_left fun hne => hne rfl
    have ho' := (Stack.locate?_congr hs.entities other).trans ho
    rcases hs.filled with ⟨-, hnil, -⟩ | ⟨old, new, hold, hset, hnew⟩
    · rw [hnil] at hd
      exact absurd List.nil_prefix hd.1
    · have hw := Value.written (hf.ordered path _ members hl old hold) hset
      rw [read_located ho hold, read_located ho' hnew, hw.apart members' hd]
  · exact read_congr hs.entities ho (hs.other cell' hcell)

theorem Step.read_unreadable (hs : f.Step cell members v f') {name : String}
    {fault : RuntimeFault} (he : (f.stack.entity? name).isSome)
    (h : f.read [name] = .error fault) : f'.read [name] = .error fault := by
  obtain ⟨⟨ref, components⟩, he⟩ := Option.isSome_iff_exists.mp he
  have he' := (congrFun hs.entities name).trans he
  have hfilled : ∀ entry ∈ components,
      (entry.2.get? f'.store).isSome = (entry.2.get? f.store).isSome :=
    fun entry _ => hs.filled_iff entry.2
  have hvalues := valuesOf_congr hfilled
  rw [read_entity he] at h
  rw [read_entity he']
  cases hb : valuesOf f.store components with
  | ok values => simp [hb, ofCore, Except.map] at h
  | error err =>
    rw [hb] at h hvalues
    rw [hvalues]
    exact h

theorem Step.read_whole (hs : f.Step cell members v f') {name : String} {ref : EntityRef}
    {before : Record} (he : (f.stack.entity? name).isSome)
    (h : f.read [name] = .ok (.scriptEntity ref before)) :
    ∃ after, f'.read [name] = .ok (.scriptEntity ref after) ∧
      Table.keys after = Table.keys before ∧
        (∀ component, f.stack.locate? [name, component] = some (cell, []) → ∃ x x',
          Table.find? before component = some x ∧ x.setPath members v = .ok x' ∧
            Table.find? after component = some x') ∧
        ∀ component, f.stack.locate? [name, component] ≠ some (cell, []) →
          Table.find? after component = Table.find? before component := by
  obtain ⟨⟨ref', components⟩, he⟩ := Option.isSome_iff_exists.mp he
  have he' := (congrFun hs.entities name).trans he
  have hfilled : ∀ entry ∈ components,
      (entry.2.get? f'.store).isSome = (entry.2.get? f.store).isSome :=
    fun entry _ => hs.filled_iff entry.2
  have hvalues := valuesOf_congr hfilled
  rw [read_entity he] at h
  cases hb : valuesOf f.store components with
  | error err => simp [hb, ofCore, Except.map] at h
  | ok values =>
    rw [hb] at h hvalues
    cases h
    obtain ⟨after, hafter⟩ := hvalues
    have hbefore := find?_valuesOf hb
    have hlater := find?_valuesOf hafter
    have hcomponent : ∀ component, f.stack.component? name component =
        Table.find? components component := fun component => by
      rw [Stack.component?, he, Option.bind_some]
    refine ⟨after, ?_, ?_, fun component hc => ?_, fun component hc => ?_⟩
    · rw [read_entity he', hafter]
      rfl
    · rw [keys_valuesOf hafter, keys_valuesOf hb]
    · rcases Stack.locate?_cases hc with ⟨_, hp, -⟩ | ⟨_, _, r, hp, hr, rfl⟩
      · cases hp
      · cases hp
        rw [hcomponent] at hr
        rcases hs.filled with ⟨⟨_, hn⟩, -⟩ | ⟨old, new, hold, hset, hnew⟩
        · cases hn
        · refine ⟨old, new, ?_, hset, ?_⟩
          · rw [hbefore, hr]
            exact hold
          · rw [hlater, hr]
            exact hnew
    · rw [hbefore, hlater]
      cases hr : Table.find? components component with
      | none => rfl
      | some r =>
        have hne : Cell.of r ≠ cell := by
          rintro rfl
          exact hc (Stack.locate?_component ((hcomponent component).trans hr) [])
        exact hs.other (Cell.of r) hne

/-- An assignment that makes a step is consistent. -/
theorem Step.consistent (hs : f.Step cell members v f') (hf : f.Sane)
    (hl : f.stack.locate? path = some (cell, members)) :
    f.Consistent path cell members v f' := by
  have hsame : ∀ other, f.stack.locate? other = some (cell, members) → f'.read other = .ok v := by
    intro other ho
    have ho' : f.stack.locate? other = some (cell, members ++ []) := by rw [ho, List.append_nil]
    rw [hs.read_behind hf hl ho']
    rfl
  refine ⟨hsame path hl, ?_, fun _ _ => hs.read_behind hf hl, fun _ _ _ _ => hs.read_front hf hl,
    fun _ _ _ => hs.read_apart hf hl, fun _ => read_nowhere hs.entities,
    fun _ _ => hs.read_unreadable, fun _ _ _ => hs.read_whole, hs.other, hs.store_eq, hs.stack_eq,
    hs.entities⟩
  -- the name of a component gives its number, so both references have the same cell
  rintro name component rest r rfl hr other r' hr' he
  rw [Stack.locate?_component hr] at hl
  cases hl
  have hid := (hf.named name component r hr).symm.trans (hf.named other component r' hr')
  have hcell : Cell.of r' = Cell.of r := by rw [Cell.of, Cell.of, he, Option.some.inj hid]
  exact hsame _ (by rw [Stack.locate?_component hr', hcell])

/-- The frame after some assignments, those that failed included. -/
def assigned (f : Frame) (assignments : List (List String × Value)) : Frame :=
  assignments.foldl (fun f a => (Run.write a.1 a.2 f).state) f

theorem Sane.assigned (hf : f.Sane) {assignments : List (List String × Value)}
    (ha : ∀ a ∈ assignments, a.2.Ordered) : (f.assigned assignments).Sane := by
  induction assignments generalizing f with
  | nil => exact hf
  | cons a rest ih =>
    rw [List.forall_mem_cons] at ha
    have hstep : (Run.write a.1 a.2 f).state.Sane := by
      cases hw : f.stack.write f.store a.1 a.2 with
      | error fault =>
        rw [Run.write_error hw]
        exact hf
      | ok memory =>
        obtain ⟨stack, store⟩ := memory
        obtain ⟨cell, members, hl, hs⟩ := step_of_write hf hw
        rw [Run.write_ok hw]
        exact hf.step hl hs ha.1
    exact ih hstep ha.2

end Frame

/-- The references of a matched entity and of the groups belong to a store: their names have their
numbers there, their arrays give back what they take, and the members of all values that a body can
start with are in order. -/
structure Grounded (matched : Binding) (c : EventContext) (store : Store) : Prop where
  named : ∀ r ∈ reached matched c, store.id? r.name = some r.component
  exact : ∀ r ∈ reached matched c, ∀ component, store.get? r.component = some component →
    component.array.Exact
  ordered : ∀ r ∈ reached matched c, ∀ v, r.get? store = some v → v.Ordered
  payload : c.event.payload.Ordered

/-- Bindings that were made in a store refer to its components by their numbers. -/
theorem named_of_bindings {matched : Binding} {c : EventContext} {store : Store}
    (hs : store.Linked) {names : List String}
    (hm : Binding.of store matched.entity names = .ok matched)
    (hg : ∀ group ∈ c.groups, ∃ names, Binding.of store group.2.entity names = .ok group.2) :
    ∀ r ∈ reached matched c, store.id? r.name = some r.component := by
  have hrefs : ∀ {e names b}, Binding.of store e names = .ok b →
      ∀ r ∈ b.refs, store.id? r.name = some r.component := by
    intro e names b hb r hr
    obtain ⟨name, -, href⟩ := (Binding.of_ok hb).2 r hr
    rw [Binding.refTo_name hs href]
    exact (Binding.refTo_ok href).2
  intro r hr
  rcases List.mem_append.mp hr with hr | hr
  · exact hrefs hm r hr
  · obtain ⟨group, hmem, hr⟩ := List.mem_flatMap.mp hr
    obtain ⟨names, hnames⟩ := hg group hmem
    exact hrefs hnames r hr

/-- A body starts with a frame that is as it should be. -/
theorem Grounded.entry_sane {matched : Binding} {c : EventContext} {w : World}
    (h : Grounded matched c w.store) (d : Declaration) : (Frame.entry d matched c w).Sane := by
  have hreached : ∀ name component r,
      (Stack.entry d matched c).component? name component = some r →
        r ∈ reached matched c ∧ r.name = component := by
    intro name component r hr
    obtain ⟨⟨ref, components⟩, he, hr⟩ := Option.bind_eq_some_iff.mp hr
    exact mem_reached (Stack.entity?_eq_some.mp he) hr
  refine ⟨fun name component r hr => ?_, fun name component r hr => ?_,
    fun path cell members hl v hv => ?_⟩
  · obtain ⟨hm, rfl⟩ := hreached name component r hr
    exact h.named r hm
  · exact h.exact r (hreached name component r hr).1
  · rcases Stack.locate?_cases hl with ⟨name, rfl, -, rfl⟩ | ⟨name, component, r, rfl, hr, rfl⟩
    · have hf := Frame.find?_of_value? hv
      refine Stack.entry_all (P := fun x => ∀ v, x = .value v → v.Ordered) ?_ ?_ ?_ hf v rfl
      · intro w hw
        cases hw
      · rintro w ⟨⟩
        exact h.payload
      · intro group _ w hw
        cases hw
    · exact h.ordered r (hreached name component r hr).1 v hv

/-- The variables of a body are a consistent memory, whatever was assigned before. A single unknown
name becomes a variable, an assignment that succeeds is seen under every path that leads to its cell
and under no other one, and an assignment that fails changes nothing. -/
theorem variables_consistent (d : Declaration) {matched : Binding} {c : EventContext}
    {w : World} (h : Grounded matched c w.store) {earlier : List (List String × Value)}
    (hearlier : ∀ a ∈ earlier, a.2.Ordered) (path : List String) {v : Value} (hv : v.Ordered) :
    let f := (Frame.entry d matched c w).assigned earlier
    (∀ name, Table.find? f.stack name = none →
      Run.write [name] v f = ⟨.ok (), { f with stack := f.stack.bind name (.value v) }, []⟩) ∧
    match Run.write path v f with
    | ⟨.ok (), f', _⟩ => f'.Sane ∧ ∃ cell members,
        f.stack.locate? path = some (cell, members) ∧ f.Consistent path cell members v f'
    | ⟨.error _, f', _⟩ => f' = f := by
  intro f
  have hf : f.Sane := (h.entry_sane d).assigned hearlier
  refine ⟨fun name hn => ?_, ?_⟩
  · exact Run.write_ok (by simp only [Stack.write, hn])
  · cases hw : f.stack.write f.store path v with
    | error fault => rw [Run.write_error hw]
    | ok memory =>
      obtain ⟨stack, store'⟩ := memory
      obtain ⟨cell, members, hl, hs⟩ := Frame.step_of_write hf hw
      rw [Run.write_ok hw]
      exact ⟨hf.step hl hs hv, cell, members, hl, hs.consistent hf hl⟩

/-! ### One entity under two names -/

/-- An entity with a transform and a tag. -/
def marked : Store := ⟨[("Tag", ⟨1⟩), ("Transform", ⟨0⟩)], [
  ⟨.transform, ⟨.record Transform.shape, .transforms true #[some .identity]⟩⟩,
  ⟨.tag, ⟨.record [("name", .string)], .table [(⟨0⟩, .record [("name", .string "a")])]⟩⟩]⟩

theorem marked_linked : marked.Linked := by
  have hregistered := (Store.linked_empty.register .transform).register .tag
  exact hregistered.congr rfl

def transformRef : ComponentRef := ⟨⟨0⟩, ⟨0⟩, "Transform"⟩

def tagRef : ComponentRef := ⟨⟨0⟩, ⟨1⟩, "Tag"⟩

/-- The group of the event is the matched entity itself. -/
def meeting : EventContext where
  event := ⟨"Meet", .number 1, [⟨0⟩]⟩
  groups := [("other", ⟨⟨0⟩, [transformRef]⟩)]
  roster := {}

def meets : Declaration where
  name := "greet"
  entityName := "e"
  components := ["Transform", "Tag"]
  event := ⟨"Meet", [⟨"other", ["Transform"]⟩], some ⟨"mood", .number⟩⟩

theorem marked_grounded : Grounded ⟨⟨0⟩, [transformRef, tagRef]⟩ meeting marked := by
  have hrefs : ∀ r ∈ reached ⟨⟨0⟩, [transformRef, tagRef]⟩ meeting,
      r = transformRef ∨ r = tagRef := by
    intro r hr
    simpa [reached, meeting, or_comm, or_assoc, or_left_comm] using hr
  have hmatched : Binding.of marked ⟨0⟩ ["Transform", "Tag"] = .ok ⟨⟨0⟩, [transformRef, tagRef]⟩ :=
    rfl
  have hgroups : ∀ group ∈ meeting.groups, ∃ names,
      Binding.of marked group.2.entity names = .ok group.2 := by
    intro group hg
    cases List.mem_singleton.mp hg
    exact ⟨["Transform"], rfl⟩
  refine ⟨named_of_bindings marked_linked hmatched hgroups, fun r hr c hc => ?_,
    fun r hr v hv => ?_, trivial⟩
  · rcases hrefs r hr with rfl | rfl <;> cases hc
    · rfl
    · trivial
  · rcases hrefs r hr with rfl | rfl <;> cases hv <;> decide

theorem other_name_shows :
    let matched : Binding := ⟨⟨0⟩, [transformRef, tagRef]⟩
    let earlier : List (List String × Value) :=
      [(["speed"], .number 2), (["nobody", "x"], .number 3)]
    let f := (Frame.entry meets matched meeting ⟨marked, .lowest⟩).assigned earlier
    Grounded matched meeting marked ∧ (∀ a ∈ earlier, a.2.Ordered) ∧ (Value.number 5).Ordered ∧
      ∃ f', Run.write ["other", "Transform", "position", "x"] (.number 5) f = ⟨.ok (), f', []⟩ ∧
        f'.read ["e", "Transform", "position", "x"] = .ok (.number 5) ∧
        f'.read ["e", "Tag"] = f.read ["e", "Tag"] ∧
        f'.read ["speed"] = f.read ["speed"] := by
  intro matched earlier f
  have hearlier : ∀ a ∈ earlier, a.2.Ordered := by
    intro a ha
    simp only [earlier, List.mem_cons, List.not_mem_nil, or_false] at ha
    rcases ha with rfl | rfl <;> trivial
  have hw : ∃ f', Run.write ["other", "Transform", "position", "x"] (.number 5) f =
    ⟨.ok (), f', []⟩ := ⟨_, rfl⟩
  obtain ⟨f', hw⟩ := hw
  have hresult := (variables_consistent meets (w := ⟨marked, .lowest⟩) marked_grounded hearlier
    ["other", "Transform", "position", "x"] (v := .number 5) trivial).2
  rw [hw] at hresult
  obtain ⟨-, cell, members, hl, hc⟩ := hresult
  cases hl
  have hposition : f'.read ["e", "Transform", "position", "x"] = .ok (.number 5) :=
    hc.aliased "other" "Transform" ["position", "x"] transformRef rfl rfl "e" transformRef rfl rfl
  have htag : f'.read ["e", "Tag"] = f.read ["e", "Tag"] :=
    hc.apart ["e", "Tag"] (.of tagRef) [] rfl (.inl (by decide))
  have hspeed : f'.read ["speed"] = f.read ["speed"] :=
    hc.apart ["speed"] (.owned "speed") [] rfl (.inl (by decide))
  exact ⟨marked_grounded, hearlier, trivial, f', hw, hposition, htag, hspeed⟩

end Script
end SceneScript
