import SceneScript.Proofs.Component.Calls

/-! # Storages are interchangeable

A table, a dense array and a synchronized array of values hold the same after the same calls, so
they answer the same. This does not depend on how dense storage is laid out: one vector of optional
values answers like a vector of values with a placeholder in every empty place and a bit set that
tells which places are filled.
-/
namespace SceneScript

namespace Dense
variable {α : Type}

/-- The numbers that are listed from a number on are those of the filled places. -/
theorem mem_entitiesFrom {n : Nat} {places : List (Option α)}
    (hb : n + places.length ≤ UInt32.size) {e : Entity} :
    e ∈ entitiesFrom n places ↔ n ≤ e.index ∧ (places[e.index - n]?).join.isSome := by
  induction places generalizing n with
  | nil => simp [entitiesFrom]
  | cons place rest ih =>
    rw [List.length_cons] at hb
    have hrest := ih (n := n + 1) (by omega)
    have hhead : e = ⟨UInt32.ofNat n⟩ ↔ e.index = n := by
      rw [← Entity.index_inj, Entity.index_ofNat (by omega)]
    have hlist : e ∈ entitiesFrom n (place :: rest) ↔
        (e.index = n ∧ place.isSome) ∨ e ∈ entitiesFrom (n + 1) rest := by
      rw [entitiesFrom]
      cases place <;> simp [hhead]
    rw [hlist, hrest]
    -- lower numbers are nowhere, the number itself is the head, and higher ones are in the rest
    rcases Nat.lt_trichotomy e.index n with hlt | heq | hgt
    · simp only [show ¬n ≤ e.index by omega, show ¬n + 1 ≤ e.index by omega,
        show e.index ≠ n by omega, false_and, or_false]
    · simp only [heq, Nat.le_refl, Nat.sub_self, List.getElem?_cons_zero, true_and,
        show ¬n + 1 ≤ n by omega, false_and, or_false, Option.join_some]
    · have hsub : e.index - n = e.index - (n + 1) + 1 := by omega
      simp only [show e.index ≠ n by omega, false_and, false_or, show n ≤ e.index by omega,
        show n + 1 ≤ e.index by omega, true_and, hsub, List.getElem?_cons_succ]

theorem entitiesFrom_ascending {n : Nat} {places : List (Option α)}
    (hb : n + places.length ≤ UInt32.size) :
    (entitiesFrom n places).Pairwise fun a b => a.index < b.index := by
  induction places generalizing n with
  | nil => exact .nil
  | cons place rest ih =>
    rw [List.length_cons] at hb
    have hrest := ih (n := n + 1) (by omega)
    rw [entitiesFrom]
    split
    · refine List.pairwise_cons.mpr ⟨fun e he => ?_, hrest⟩
      rw [Entity.index_ofNat (by omega)]
      exact ((mem_entitiesFrom (by omega)).mp he).1
    · exact hrest

theorem length_entitiesFrom (n : Nat) (places : List (Option α)) :
    (entitiesFrom n places).length = places.countP Option.isSome := by
  induction places generalizing n with
  | nil => rfl
  | cons place rest ih =>
    rw [entitiesFrom]
    split
    · rename_i hp
      rw [List.length_cons, ih, List.countP_cons_of_pos hp]
    · rename_i hp
      rw [ih, List.countP_cons_of_neg hp]

theorem size_insert_le {d : Dense α} {bound : Nat} (hd : d.size ≤ bound) {e : Entity}
    (he : e.index < bound) (a : α) : (insert d e a).size ≤ bound := by
  simp only [insert, grow, Array.size_setIfInBounds, Array.size_append, Array.size_replicate]
  omega

end Dense

namespace Storage

/-- A table is in order of its entities, and places have numbers of entities. -/
def Tidy : Storage → Prop
  | .table entries => Table.Sorted entries
  | .dense _ places => places.size ≤ UInt32.size
  | .transforms _ places => places.size ≤ UInt32.size

theorem tidy_empty (kind : StorageKind) : (empty kind).Tidy := by
  rcases kind with _ | (_ | _) | (_ | _)
  · exact .nil
  all_goals exact Nat.zero_le _

theorem Tidy.insert {s s' : Storage} (hs : s.Tidy) {e : Entity} {v : Value}
    (h : s.insert? e v = some s') : s'.Tidy := by
  have he : e.index < UInt32.size := UInt32.toNat_lt e.id
  cases s with
  | table entries =>
    cases h
    exact Table.Sorted.insert hs e v
  | dense shared places =>
    cases h
    exact Dense.size_insert_le hs he v
  | transforms shared places =>
    obtain ⟨t, _, rfl⟩ := Option.map_eq_some_iff.mp h
    exact Dense.size_insert_le hs he t

theorem Tidy.remove {s : Storage} (hs : s.Tidy) (e : Entity) : (s.remove e).Tidy := by
  cases s with
  | table entries => exact List.Pairwise.filter _ hs
  | dense shared places | transforms shared places =>
    have hsize : places.size ≤ UInt32.size := hs
    simpa only [Storage.remove, Tidy, Dense.remove, Array.size_setIfInBounds] using hsize

theorem Tidy.ascending {s : Storage} (hs : s.Tidy) :
    s.entities.Pairwise fun a b => a.index < b.index := by
  cases s with
  | table entries => exact (Table.sorted_iff_keys.mp hs).imp Entity.compare_eq_lt.mp
  | dense shared places | transforms shared places =>
    have hsize : places.size ≤ UInt32.size := hs
    exact Dense.entitiesFrom_ascending (by simpa using hsize)

theorem Tidy.mem_entities {s : Storage} (hs : s.Tidy) {e : Entity} :
    e ∈ s.entities ↔ (s.get? e).isSome := by
  cases s with
  | table entries => exact Table.find?_isSome.symm
  | dense shared places | transforms shared places =>
    have hsize : places.size ≤ UInt32.size := hs
    refine (Dense.mem_entitiesFrom (by simpa using hsize)).trans ?_
    simp [Storage.get?, Dense.get?]

theorem length_entities (s : Storage) : s.entities.length = s.count := by
  cases s with
  | table entries => exact List.length_map _
  | dense shared places | transforms shared places =>
    exact Dense.length_entitiesFrom 0 places.toList

end Storage

/-! ### Arrays of values -/

/-- The kinds of arrays that store values as they are. -/
def StorageKind.storesValues : StorageKind → Bool
  | .map | .dense .value | .synchronized .value => true
  | .dense .transform | .synchronized .transform => false

namespace ComponentArray

/-- An array as its callers see it. -/
def interface : ArrayInterface ComponentArray where
  has := has
  get? := get?
  insert a e v := (a.insert e v).map fun a' => (a.get? e, a')
  remove a e := (a.get? e, a.remove e)
  entities := entities
  count := count

/-- An array of values that holds what it should. -/
structure Holds (shape : ValueType) (f : Contents) (a : ComponentArray) : Prop where
  shape : a.shape = shape
  kind : a.storage.kind.storesValues = true
  tidy : a.storage.Tidy
  get : ∀ e, a.get? e = f e

theorem holds_empty (shape : ValueType) {kind : StorageKind} (hk : kind.storesValues = true) :
    Holds shape (fun _ => none) (.empty shape kind) where
  shape := rfl
  kind := by rwa [empty_kind]
  tidy := Storage.tidy_empty kind
  get := get?_empty shape kind

theorem insert_storage {a a' : ComponentArray} {e : Entity} {v : Value}
    (h : a.insert e v = .ok a') : a.storage.insert? e v = some a'.storage := by
  unfold insert at h
  split at h
  · split at h
    · rename_i hs
      cases h
      exact hs
    · cases h
  · cases h

theorem exact_of_storesValues {a : ComponentArray} (hk : a.storage.kind.storesValues = true) :
    a.Exact := by
  obtain ⟨shape, storage⟩ := a
  cases storage with
  | table entries | dense shared places => trivial
  | transforms shared places => cases shared <;> cases hk

theorem Holds.insert {shape : ValueType} {f : Contents} {a : ComponentArray} {v : Value}
    (ha : Holds shape f a) (hv : v.type = shape) (e : Entity) :
    ∃ a', a.insert e v = .ok a' ∧ Holds shape (Function.update f e (some v)) a' := by
  have hexact := exact_of_storesValues ha.kind
  obtain ⟨a', hi⟩ := insert_of_exact hexact (hv.trans ha.shape.symm) e
  have hin := inserted hi
  refine ⟨a', hi, hin.shape.trans ha.shape, ?_, ha.tidy.insert (insert_storage hi), fun e' => ?_⟩
  · rw [insert_kind hi]
    exact ha.kind
  · by_cases he : e' = e
    · subst he
      rw [hin.same hexact, Function.update_self]
    · rw [hin.other e' he, Function.update_of_ne he, ha.get]

theorem Holds.remove {shape : ValueType} {f : Contents} {a : ComponentArray}
    (ha : Holds shape f a) (e : Entity) :
    Holds shape (Function.update f e none) (a.remove e) := by
  refine ⟨ha.shape, ?_, ha.tidy.remove e, fun e' => ?_⟩
  · rw [remove_kind]
    exact ha.kind
  · by_cases he : e' = e
    · subst he
      rw [get?_remove_self, Function.update_self]
    · rw [get?_remove_ne _ he, Function.update_of_ne he, ha.get]

/-- Tables, dense arrays and synchronized arrays of values are faithful. -/
theorem faithful (shape : ValueType) : interface.Faithful shape (Holds shape) where
  get ha := ha.get
  has ha e := congrArg Option.isSome (ha.get e)
  mem ha e := by
    rw [← ha.get]
    exact ha.tidy.mem_entities
  ascending ha := ha.tidy.ascending
  count {_ a} _ := (Storage.length_entities a.storage).symm
  insert {_ a v} ha hv e := by
    obtain ⟨a', hi, ha'⟩ := ha.insert hv e
    exact ⟨a', by simp [interface, hi, ha.get, Except.map], ha'⟩
  reject {_ a v} ha hv e := by
    simp [interface, ComponentArray.insert, ha.shape, hv, Except.map]
  remove ha e := ⟨ha.get e, ha.remove e⟩

end ComponentArray

/-! ### Values with placeholders -/

/-- Dense storage laid out as two vectors of the same size: which places are filled, and what they
hold. An empty place holds a placeholder. -/
structure Slots where
  present : Array Bool := #[]
  values : Array Value := #[]

namespace Slots

def contains (s : Slots) (e : Entity) : Bool := s.present.getD e.index false

def get? (s : Slots) (e : Entity) : Option Value :=
  if s.contains e then s.values[e.index]? else none

/-- Both vectors with at least `n` places. -/
def grow (s : Slots) (n : Nat) : Slots where
  present := s.present ++ Array.replicate (n - s.present.size) false
  values := s.values ++ Array.replicate (n - s.values.size) default

def put (s : Slots) (e : Entity) (v : Value) : Option Value × Slots :=
  let grown := s.grow (e.index + 1)
  (grown.get? e,
    ⟨grown.present.setIfInBounds e.index true, grown.values.setIfInBounds e.index v⟩)

/-- Clear a bit and put the placeholder back. -/
def clear (s : Slots) (e : Entity) : Slots :=
  ⟨s.present.setIfInBounds e.index false, s.values.setIfInBounds e.index default⟩

def take (s : Slots) (e : Entity) : Option Value × Slots :=
  if s.contains e then (s.values[e.index]?, s.clear e) else (none, s)

/-- The numbers of the filled places. -/
def ones (s : Slots) : List Nat :=
  (List.range s.present.size).filter fun n => s.present.getD n false

/-- The slots as an array for values of a shape. -/
def interface (shape : ValueType) : ArrayInterface Slots where
  has := contains
  get? := get?
  insert s e v :=
    if v.type = shape then .ok (s.put e v) else .error (.typeMismatch shape v.type)
  remove := take
  entities s := s.ones.map fun n => ⟨UInt32.ofNat n⟩
  count s := s.ones.length

/-- The vectors are in step and hold what they should. -/
structure Holds (f : Contents) (s : Slots) : Prop where
  size : s.values.size = s.present.size
  bound : s.present.size ≤ UInt32.size
  get : ∀ e, s.get? e = f e

theorem contains_iff {s : Slots} {e : Entity} :
    s.contains e = true ↔ s.present[e.index]? = some true := by
  rw [contains, Array.getD_eq_getD_getElem?]
  cases s.present[e.index]? <;> simp

theorem lt_size_of_contains {s : Slots} {e : Entity} (h : s.contains e = true) :
    e.index < s.present.size :=
  (Array.getElem?_eq_some_iff.mp (contains_iff.mp h)).1

/-- A place is read only where the bit is set. -/
theorem get?_congr {s s' : Slots} {e : Entity} (hp : s'.contains e = s.contains e)
    (hv : s.contains e = true → s'.values[e.index]? = s.values[e.index]?) :
    s'.get? e = s.get? e := by
  rw [get?, get?, hp]
  cases hc : s.contains e with
  | false => rfl
  | true => rw [hv hc]

theorem contains_grow (s : Slots) (n : Nat) (e : Entity) :
    (s.grow n).contains e = s.contains e := by
  rw [Bool.eq_iff_iff, contains_iff, contains_iff, grow, Array.getElem?_append]
  split
  · exact Iff.rfl
  · rename_i hsize
    rw [Array.getElem?_replicate, Array.getElem?_eq_none (by omega)]
    split <;> simp

/-- What is put behind the last place is empty. -/
theorem get?_grow {s : Slots} (hs : s.values.size = s.present.size) (n : Nat) (e : Entity) :
    (s.grow n).get? e = s.get? e := by
  refine get?_congr (contains_grow s n e) fun hc => ?_
  rw [grow, Array.getElem?_append_left (hs ▸ lt_size_of_contains hc)]

theorem contains_put (s : Slots) (e : Entity) (v : Value) (e' : Entity) :
    (s.put e v).2.contains e' = if e' = e then true else s.contains e' := by
  have hlt : e.index < (s.grow (e.index + 1)).present.size := by
    simp only [grow, Array.size_append, Array.size_replicate]
    omega
  split
  · rename_i he
    subst he
    rw [contains_iff]
    exact Array.getElem?_setIfInBounds_self_of_lt hlt
  · rename_i he
    have hi : e.index ≠ e'.index := fun hi => he (Entity.index_inj.mp hi).symm
    rw [← contains_grow s (e.index + 1) e', Bool.eq_iff_iff, contains_iff, contains_iff, put,
      Array.getElem?_setIfInBounds_ne hi]

theorem contains_clear (s : Slots) (e e' : Entity) :
    (s.clear e).contains e' = if e' = e then false else s.contains e' := by
  split
  · rename_i he
    subst he
    rw [Bool.eq_false_iff, ne_eq, contains_iff, clear, Array.getElem?_setIfInBounds_self]
    split <;> simp
  · rename_i he
    have hi : e.index ≠ e'.index := fun hi => he (Entity.index_inj.mp hi).symm
    rw [Bool.eq_iff_iff, contains_iff, contains_iff, clear, Array.getElem?_setIfInBounds_ne hi]

namespace Holds
variable {f : Contents} {s : Slots}

theorem contains (hs : Holds f s) (e : Entity) : s.contains e = (f e).isSome := by
  rw [← hs.get, Slots.get?]
  cases hc : s.contains e with
  | false => simp
  | true =>
    have hlt : e.index < s.values.size := hs.size ▸ lt_size_of_contains hc
    simp [hlt]

theorem put (hs : Holds f s) (e : Entity) (v : Value) :
    (s.put e v).1 = f e ∧ Holds (Function.update f e (some v)) (s.put e v).2 := by
  have he : e.index < UInt32.size := UInt32.toNat_lt e.id
  have hsize := hs.size
  have hbound := hs.bound
  refine ⟨(get?_grow hs.size _ e).trans (hs.get e), ?_, ?_, fun e' => ?_⟩
  · simp only [Slots.put, grow, Array.size_setIfInBounds, Array.size_append, Array.size_replicate]
    omega
  · simp only [Slots.put, grow, Array.size_setIfInBounds, Array.size_append, Array.size_replicate]
    omega
  · by_cases hne : e' = e
    · subst hne
      rw [Function.update_self, Slots.get?, contains_put, if_pos rfl, if_pos rfl]
      refine Array.getElem?_setIfInBounds_self_of_lt ?_
      simp only [grow, Array.size_append, Array.size_replicate]
      omega
    · have hi : e.index ≠ e'.index := fun hi => hne (Entity.index_inj.mp hi).symm
      rw [Function.update_of_ne hne, ← hs.get]
      -- a set bit has a value beside it, so what growth puts behind is never read
      refine get?_congr (by rw [contains_put, if_neg hne]) fun hc => ?_
      have hlt : e'.index < s.values.size := hs.size ▸ lt_size_of_contains hc
      rw [Slots.put, Array.getElem?_setIfInBounds_ne hi, grow, Array.getElem?_append_left hlt]

theorem clear (hs : Holds f s) (e : Entity) : Holds (Function.update f e none) (s.clear e) := by
  refine ⟨?_, ?_, fun e' => ?_⟩
  · simpa only [Slots.clear, Array.size_setIfInBounds] using hs.size
  · simpa only [Slots.clear, Array.size_setIfInBounds] using hs.bound
  · by_cases hne : e' = e
    · subst hne
      rw [Function.update_self, Slots.get?, contains_clear, if_pos rfl]
      rfl
    · have hi : e.index ≠ e'.index := fun hi => hne (Entity.index_inj.mp hi).symm
      rw [Function.update_of_ne hne, ← hs.get]
      refine get?_congr (by rw [contains_clear, if_neg hne]) fun _ => ?_
      rw [Slots.clear, Array.getElem?_setIfInBounds_ne hi]

theorem take (hs : Holds f s) (e : Entity) :
    (s.take e).1 = f e ∧ Holds (Function.update f e none) (s.take e).2 := by
  have hget := hs.get e
  rw [Slots.get?] at hget
  rw [Slots.take]
  split at hget
  · rename_i hc
    rw [if_pos hc]
    exact ⟨hget, hs.clear e⟩
  · rename_i hc
    rw [if_neg hc, hget, Function.update_eq_self]
    exact ⟨rfl, hs⟩

theorem empty : Holds (fun _ => none) {} :=
  ⟨rfl, Nat.zero_le _, fun _ => rfl⟩

end Holds

theorem mem_ones {s : Slots} {n : Nat} : n ∈ s.ones ↔ s.present[n]? = some true := by
  simp only [ones, List.mem_filter, List.mem_range]
  constructor
  · rintro ⟨hlt, h⟩
    simpa [hlt] using h
  · intro h
    have hlt := (Array.getElem?_eq_some_iff.mp h).1
    exact ⟨hlt, by simp [h]⟩

theorem Holds.index_of_mem_ones {f : Contents} {s : Slots} (hs : Holds f s) {n : Nat}
    (hn : n ∈ s.ones) : Entity.index ⟨UInt32.ofNat n⟩ = n :=
  Entity.index_ofNat
    (Nat.lt_of_lt_of_le (Array.getElem?_eq_some_iff.mp (mem_ones.mp hn)).1 hs.bound)

/-- Values with placeholders are faithful, and the placeholders are never seen. -/
theorem faithful (shape : ValueType) : (interface shape).Faithful shape Holds where
  get hs := hs.get
  has hs := hs.contains
  mem {f s} hs e := by
    rw [← hs.contains, contains_iff, ← mem_ones]
    constructor
    · intro he
      obtain ⟨n, hn, rfl⟩ := List.mem_map.mp he
      rwa [hs.index_of_mem_ones hn]
    · intro he
      exact List.mem_map.mpr ⟨e.index, he, Entity.index_inj.mp (hs.index_of_mem_ones he)⟩
  ascending {f s} hs := by
    refine List.pairwise_map.mpr ((List.pairwise_lt_range.filter _).imp_of_mem ?_)
    intro m n hm hn hlt
    rwa [hs.index_of_mem_ones hm, hs.index_of_mem_ones hn]
  count _ := (List.length_map _).symm
  insert {f s v} hs hv e := by
    obtain ⟨hprevious, hput⟩ := hs.put e v
    exact ⟨_, by simp only [interface, if_pos hv, ← hprevious], hput⟩
  reject _ hv _ := if_neg hv
  remove hs e := hs.take e

end Slots

/-- A table, a dense array and a synchronized array of values give the same answers to any sequence
of calls, errors and previous values included, and so does dense storage that is laid out with
placeholders. All of them show what the accepted calls have left and nothing else. -/
theorem storages_interchangeable (shape : ValueType) (calls : List ArrayCall) :
    (∀ kind : StorageKind, kind.storesValues = true →
      ComponentArray.interface.answers (.empty shape kind) calls =
          ComponentArray.interface.answers (.empty shape .map) calls ∧
        ComponentArray.interface.Shows shape calls
          (ComponentArray.interface.after (.empty shape kind) calls)) ∧
      (Slots.interface shape).answers {} calls =
          ComponentArray.interface.answers (.empty shape .map) calls ∧
        (Slots.interface shape).Shows shape calls ((Slots.interface shape).after {} calls) := by
  have harrays := ComponentArray.faithful shape
  have hslots := Slots.faithful shape
  have htable : ComponentArray.Holds shape (fun _ => none) (.empty shape .map) :=
    ComponentArray.holds_empty shape rfl
  refine ⟨fun kind hk => ?_, ?_, ?_⟩
  · have hempty := ComponentArray.holds_empty shape hk
    exact ⟨harrays.answers_eq harrays hempty htable calls, harrays.shows hempty calls⟩
  · exact hslots.answers_eq harrays Slots.Holds.empty htable calls
  · exact hslots.shows Slots.Holds.empty calls

/-- A value of the wrong type is refused, and the places below the highest one and a place that was
cleared show nothing. -/
theorem synchronized_answers :
    StorageKind.storesValues (.synchronized .value) = true ∧
      ComponentArray.interface.answers (.empty (.basic .boolean) (.synchronized .value))
        [.insert ⟨2⟩ (.boolean true), .insert ⟨1⟩ .void, .insert ⟨2⟩ (.boolean false),
          .set ⟨0⟩ (some (.boolean true)), .get ⟨1⟩, .entities, .remove ⟨2⟩, .has ⟨2⟩, .count,
          .set ⟨0⟩ none, .isEmpty] =
      [.ok (.value none), .error (.typeMismatch (.basic .boolean) (.basic .void)),
        .ok (.value (some (.boolean true))), .ok .done, .ok (.value none),
        .ok (.entities [⟨0⟩, ⟨2⟩]), .ok (.value (some (.boolean false))), .ok (.truth false),
        .ok (.number 1), .ok .done, .ok (.truth true)] :=
  ⟨rfl, ((storages_interchangeable _ _).1 _ rfl).1.trans rfl⟩

end SceneScript
