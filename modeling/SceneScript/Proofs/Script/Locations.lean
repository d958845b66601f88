import SceneScript.Proofs.Script.Writes

/-! # What paths denote

A path that a script writes down leads to a cell, which is a variable of the script or the place of
a component, and to members of the value in the cell. Several paths lead to one cell when several
names stand for one entity. What is read depends on the value in the cell alone, except for a whole
entity, which is read from the places of all its components.
-/
namespace SceneScript.Script

/-- What holds a value for a script. -/
inductive Cell where
  | owned (name : String)
  | place (e : Entity) (id : ComponentId)
  deriving DecidableEq

/-- The cell of a reference. -/
def Cell.of (r : ComponentRef) : Cell := .place r.entity r.component

namespace Stack

/-- The entity that a name stands for, and its components. -/
def entity? (s : Stack) (name : String) : Option (EntityRef × Table String ComponentRef) :=
  match Table.find? s name with
  | some (.entity ref components) => some (ref, components)
  | _ => none

def component? (s : Stack) (name component : String) : Option ComponentRef :=
  (s.entity? name).bind fun entity => Table.find? entity.2 component

/-- The cell that a path leads to, and the members behind it. A name that stands for nothing leads
to the variable that it can become. A whole entity is in no cell. -/
def locate? (s : Stack) : List String → Option (Cell × List String)
  | [] => none
  | first :: rest =>
    match s.entity? first with
    | none => some (.owned first, rest)
    | some _ =>
      match rest with
      | [] => none
      | component :: members =>
        (s.component? first component).map fun r => (.of r, members)

variable {s s' : Stack} {name : String}

theorem entity?_eq_some {ref : EntityRef} {components : Table String ComponentRef} :
    s.entity? name = some (ref, components) ↔
      Table.find? s name = some (.entity ref components) := by
  unfold entity?
  split
  · rename_i hf
    simp [hf]
  · rename_i hne
    simp only [reduceCtorEq, false_iff]
    exact hne ref components

theorem entity?_bind (name : String) (v : Value) (other : String) :
    Stack.entity? (s.bind name (.value v)) other =
      if other = name then none else s.entity? other := by
  unfold entity? bind
  by_cases h : other = name
  · rw [if_pos h, h, Table.find?_insert_self]
  · rw [if_neg h, Table.find?_insert_ne _ _ h]

theorem locate?_variable (h : s.entity? name = none) (rest : List String) :
    s.locate? (name :: rest) = some (.owned name, rest) := by
  simp only [locate?, h]

theorem locate?_component {component : String} {r : ComponentRef}
    (h : s.component? name component = some r) (members : List String) :
    s.locate? (name :: component :: members) = some (.of r, members) := by
  obtain ⟨entity, he, -⟩ := Option.bind_eq_some_iff.mp h
  simp only [locate?, he, h, Option.map_some]

/-- A path that leads to a cell begins with a variable, or with an entity and a component. -/
theorem locate?_cases {path members : List String} {cell : Cell}
    (h : s.locate? path = some (cell, members)) :
    (∃ name, path = name :: members ∧ s.entity? name = none ∧ cell = .owned name) ∨
      ∃ name component r, path = name :: component :: members ∧
        s.component? name component = some r ∧ cell = .of r := by
  cases path with
  | nil => cases h
  | cons first rest =>
    cases he : s.entity? first with
    | none =>
      rw [locate?_variable he] at h
      cases h
      exact .inl ⟨first, rfl, he, rfl⟩
    | some entity =>
      cases rest with
      | nil => simp [locate?, he] at h
      | cons component rest =>
        simp only [locate?, he, Option.map_eq_some_iff, Prod.mk.injEq] at h
        obtain ⟨r, hr, rfl, rfl⟩ := h
        exact .inr ⟨first, component, r, rfl, hr, rfl⟩

/-- Paths lead where they led as long as the same names stand for entities. -/
theorem locate?_congr (h : s'.entity? = s.entity?) (path : List String) :
    s'.locate? path = s.locate? path := by
  cases path with
  | nil => rfl
  | cons first rest => simp only [locate?, component?, h]

end Stack

namespace Frame

def read (f : Frame) (path : List String) : Except RuntimeFault Value := f.stack.read f.store path

/-- The value in a cell. -/
def value? (f : Frame) : Cell → Option Value
  | .owned name =>
    match Table.find? f.stack name with
    | some (.value v) => some v
    | _ => none
  | .place e id => f.store.at? e id

variable {f f' : Frame} {path members : List String} {cell : Cell}

theorem find?_of_value? {name : String} {v : Value} (h : f.value? (.owned name) = some v) :
    Table.find? f.stack name = some (.value v) := by
  simp only [value?] at h
  split at h
  · rename_i hf
    cases h
    exact hf
  · cases h

theorem find?_of_value?_none {name : String} (he : f.stack.entity? name = none)
    (h : f.value? (.owned name) = none) : Table.find? f.stack name = none := by
  cases hf : Table.find? f.stack name with
  | none => rfl
  | some x =>
    cases x with
    | value v => simp [value?, hf] at h
    | entity ref components => simp [Stack.entity?, hf] at he

theorem read_variable {name : String} (he : f.stack.entity? name = none) (rest : List String) :
    f.read (name :: rest) =
      match f.value? (.owned name) with
      | some v => ofCore (v.memberPath rest)
      | none => .error (.unknownVariable (pathText (name :: rest))) := by
  cases hv : f.value? (.owned name) with
  | none => simp only [read, Stack.read, find?_of_value?_none he hv]
  | some v => simp only [read, Stack.read, find?_of_value? hv]

theorem read_component {name component : String} {r : ComponentRef}
    (h : f.stack.component? name component = some r) (members : List String) :
    f.read (name :: component :: members) =
      match f.value? (.of r) with
      | some v => ofCore (v.memberPath members)
      | none => .error (.core r.missing) := by
  obtain ⟨⟨ref, components⟩, he, hr⟩ := Option.bind_eq_some_iff.mp h
  have hr : Table.find? components component = some r := hr
  have hget : r.get? f.store = f.value? (.of r) := rfl
  simp only [read, Stack.read, Stack.entity?_eq_some.mp he, componentOf, hr, Result.ok_bind,
    ComponentRef.value, hget]
  cases f.value? (.of r) <;> rfl

/-- What a path reads is in the value of its cell. -/
theorem read_located (h : f.stack.locate? path = some (cell, members)) {v : Value}
    (hv : f.value? cell = some v) : f.read path = ofCore (v.memberPath members) := by
  rcases Stack.locate?_cases h with ⟨name, rfl, he, rfl⟩ | ⟨name, component, r, rfl, hr, rfl⟩
  · rw [read_variable he, hv]
  · rw [read_component hr, hv]

/-- A path reads the same as long as the value in its cell is the same. -/
theorem read_congr (he : f'.stack.entity? = f.stack.entity?)
    (h : f.stack.locate? path = some (cell, members)) (hv : f'.value? cell = f.value? cell) :
    f'.read path = f.read path := by
  rcases Stack.locate?_cases h with ⟨name, rfl, hn, rfl⟩ | ⟨name, component, r, rfl, hr, rfl⟩
  · rw [read_variable hn, read_variable ((congrFun he name).trans hn), hv]
  · have hr' : f'.stack.component? name component = some r := by
      rw [← hr, Stack.component?, Stack.component?, he]
    rw [read_component hr, read_component hr', hv]

/-- A path that is no whole entity and leads to no cell reads the same in every store. -/
theorem read_nowhere (he : f'.stack.entity? = f.stack.entity?) (h : f.stack.locate? path = none)
    (hp : ∀ name, path = [name] → f.stack.entity? name = none) : f'.read path = f.read path := by
  cases path with
  | nil => rfl
  | cons first rest =>
    cases hf : f.stack.entity? first with
    | none => simp [Stack.locate?, hf] at h
    | some entity =>
      obtain ⟨ref, components⟩ := entity
      cases rest with
      | nil => simp [hp first rfl] at hf
      | cons component rest =>
        have hr : Table.find? components component = none := by
          simpa [Stack.locate?, Stack.component?, hf] using h
        have hf' := (congrFun he first).trans hf
        simp only [read, Stack.read, Stack.entity?_eq_some.mp hf, Stack.entity?_eq_some.mp hf',
          componentOf, hr, Result.error_bind]

end Frame

/-! ### Whole entities -/

theorem keys_valuesOf {store : Store} {components : Table String ComponentRef} {values : Record}
    (h : valuesOf store components = .ok values) : Table.keys values = Table.keys components := by
  induction components generalizing values with
  | nil =>
    cases h
    rfl
  | cons entry rest ih =>
    simp only [valuesOf, Result.bind_eq_ok, Result.pure_eq, Except.ok.injEq] at h
    obtain ⟨v, -, others, hothers, rfl⟩ := h
    exact congrArg (List.cons entry.1) (ih hothers)

theorem find?_valuesOf {store : Store} {components : Table String ComponentRef} {values : Record}
    (h : valuesOf store components = .ok values) (name : String) :
    Table.find? values name = (Table.find? components name).bind fun r => r.get? store := by
  induction components generalizing values with
  | nil =>
    cases h
    rfl
  | cons entry rest ih =>
    obtain ⟨key, r⟩ := entry
    simp only [valuesOf, Result.bind_eq_ok, Result.pure_eq, Except.ok.injEq] at h
    obtain ⟨v, hv, others, hothers, rfl⟩ := h
    have hget : r.get? store = some v := by
      unfold ComponentRef.value at hv
      split at hv
      · rename_i v' hg
        cases hv
        exact hg
      · cases hv
    simp only [Table.find?]
    split
    · rw [Option.bind_some, hget]
    · exact ih hothers

/-- Whether the places of all components are filled decides whether they can be read together. -/
theorem valuesOf_congr {store store' : Store} {components : Table String ComponentRef}
    (h : ∀ entry ∈ components, (entry.2.get? store').isSome = (entry.2.get? store).isSome) :
    match valuesOf store components with
    | .ok _ => ∃ values, valuesOf store' components = .ok values
    | .error err => valuesOf store' components = .error err := by
  induction components with
  | nil => exact ⟨[], rfl⟩
  | cons entry rest ih =>
    obtain ⟨key, r⟩ := entry
    rw [List.forall_mem_cons] at h
    have hrest := ih h.2
    have hr := h.1
    simp only [valuesOf, ComponentRef.value]
    cases hg : r.get? store with
    | none =>
      rw [hg, Option.isSome_none, Option.isSome_eq_false_iff, Option.isNone_iff_eq_none] at hr
      simp only [hr, Result.error_bind]
    | some v =>
      rw [hg, Option.isSome_some, Option.isSome_iff_exists] at hr
      obtain ⟨v', hv'⟩ := hr
      simp only [hv', Result.ok_bind]
      cases hvalues : valuesOf store rest with
      | error err =>
        rw [hvalues] at hrest
        simp only [hrest, Result.error_bind]
      | ok values =>
        rw [hvalues] at hrest
        obtain ⟨values', hrest⟩ := hrest
        simp only [hrest, Result.ok_bind, Result.pure_eq, Except.ok.injEq, exists_eq']

theorem Frame.read_entity {f : Frame} {name : String} {ref : EntityRef}
    {components : Table String ComponentRef} (h : f.stack.entity? name = some (ref, components)) :
    f.read [name] = ofCore ((valuesOf f.store components).map (.scriptEntity ref)) := by
  simp only [Frame.read, Stack.read, Stack.entity?_eq_some.mp h]
  rfl

end SceneScript.Script
