import Mathlib.Data.List.Sort
import SceneScript.Table

/-! # Tables as maps

A table in key order is determined by what its keys find. Writing keeps the order, a list of entries
becomes a table in order, and a list that is in order already becomes itself.
-/
namespace SceneScript.Table
universe u v w
variable {α : Type u} {β : Type v} {γ : Type w} [Ord α]

theorem sorted_iff_keys {t : Table α β} :
    Sorted t ↔ (keys t).Pairwise fun a b => compare a b = .lt := by
  simp [Sorted, keys, List.pairwise_map]

/-- The order is one of keys: changing values keeps it. -/
theorem Sorted.congr_keys {t : Table α β} {t' : Table α γ} (h : Sorted t)
    (hk : keys t' = keys t) : Sorted t' := by
  rw [sorted_iff_keys] at h ⊢
  rwa [hk]

/-- Other values under the same keys. -/
def mapValues {α : Type u} (f : β → γ) (t : Table α β) : Table α γ :=
  t.map fun entry => (entry.1, f entry.2)

@[simp] theorem keys_mapValues {α : Type u} (f : β → γ) (t : Table α β) :
    keys (mapValues f t) = keys t := by
  simp [keys, mapValues]

@[simp] theorem length_mapValues {α : Type u} (f : β → γ) (t : Table α β) :
    (mapValues f t).length = t.length :=
  List.length_map _

@[simp] theorem find?_mapValues (f : β → γ) (t : Table α β) (key : α) :
    Table.find? (mapValues f t) key = (Table.find? t key).map f := by
  induction t with
  | nil => rfl
  | cons entry rest ih =>
    by_cases h : compare key entry.1 = .eq
    · simp [mapValues, find?, h]
    · simpa [mapValues, find?, h] using ih

theorem mapValues_mapValues {α δ : Type u} (f : β → γ) (g : γ → δ) (t : Table α β) :
    mapValues g (mapValues f t) = mapValues (g ∘ f) t := by
  simp [mapValues, Function.comp_def]

theorem insert_mapValues (f : β → γ) (t : Table α β) (key : α) (value : β) :
    Table.insert (mapValues f t) key (f value) = mapValues f (Table.insert t key value) := by
  induction t with
  | nil => rfl
  | cons entry rest ih =>
    cases h : compare key entry.1 with
    | gt => simpa [mapValues, Table.insert, h] using ih
    | lt | eq => simp [mapValues, Table.insert, h]

@[simp] theorem keys_modify (t : Table α β) (key : α) (f : β → β) :
    keys (modify t key f) = keys t := by
  simp only [keys, modify, List.map_map]
  refine List.map_congr_left fun entry _ => ?_
  simp only [Function.comp_apply]
  split <;> rfl

theorem mapValues_modify {f : β → γ} {g : β → β} (h : ∀ value, f (g value) = f value)
    (t : Table α β) (key : α) : mapValues f (modify t key g) = mapValues f t := by
  simp only [mapValues, modify, List.map_map]
  refine List.map_congr_left fun entry _ => ?_
  simp only [Function.comp_apply]
  split
  · rw [h]
  · rfl

theorem keys_foldl_modify (t : Table α β) (order : List α) (f : β → β) :
    keys (order.foldl (fun t key => modify t key f) t) = keys t := by
  induction order generalizing t with
  | nil => rfl
  | cons key rest ih => exact (ih _).trans (keys_modify t key f)

theorem find?_modify_self (t : Table α β) (key : α) (f : β → β) :
    Table.find? (modify t key f) key = (Table.find? t key).map f := by
  induction t with
  | nil => rfl
  | cons entry rest ih =>
    by_cases h : compare key entry.1 = .eq
    · simp [modify, find?, h]
    · simpa [modify, find?, h] using ih

variable [Std.LawfulEqOrd α]

theorem find?_modify_ne (t : Table α β) {key other : α} (f : β → β) (hne : other ≠ key) :
    Table.find? (modify t key f) other = Table.find? t other := by
  induction t with
  | nil => rfl
  | cons entry rest ih =>
    by_cases h : compare key entry.1 = .eq
    · obtain rfl : key = entry.1 := Std.LawfulEqOrd.eq_of_compare h
      have hother : compare other entry.1 ≠ .eq := by simpa using hne
      simpa [modify, find?, hother] using ih
    · by_cases ho : compare other entry.1 = .eq
      · simp [modify, find?, h, ho]
      · simpa [modify, find?, h, ho] using ih

/-- Changing the values of different keys one after the other changes each of them once. -/
theorem find?_foldl_modify {order : List α} (ho : order.Nodup) (t : Table α β) (f : β → β)
    (key : α) :
    (key ∈ order → Table.find? (order.foldl (fun t key => modify t key f) t) key =
      (Table.find? t key).map f) ∧
    (key ∉ order → Table.find? (order.foldl (fun t key => modify t key f) t) key =
      Table.find? t key) := by
  induction order generalizing t with
  | nil => simp
  | cons first rest ih =>
    obtain ⟨hfirst, hrest⟩ := List.nodup_cons.mp ho
    obtain ⟨hin, hout⟩ := ih hrest (modify t first f)
    rw [List.foldl_cons]
    constructor
    · intro h
      rcases List.mem_cons.mp h with rfl | h
      · rw [hout hfirst, find?_modify_self]
      · have hne : key ≠ first := fun he => hfirst (he ▸ h)
        rw [hin h, find?_modify_ne t f hne]
    · intro h
      rw [List.mem_cons, not_or] at h
      obtain ⟨hne, h⟩ := h
      rw [hout h, find?_modify_ne t f hne]

theorem mem_of_find? {t : Table α β} {key : α} {value : β}
    (h : Table.find? t key = some value) : (key, value) ∈ t := by
  induction t with
  | nil => simp [find?] at h
  | cons entry rest ih =>
    simp only [find?] at h
    split at h
    · rename_i hc
      have hk : key = entry.1 := Std.LawfulEqOrd.eq_of_compare hc
      cases h
      exact List.mem_cons.mpr (.inl (by rw [hk]))
    · exact List.mem_cons_of_mem _ (ih h)

/-- With distinct keys every entry is found. -/
theorem find?_of_mem {t : Table α β} (hn : (keys t).Nodup) {key : α} {value : β}
    (h : (key, value) ∈ t) : Table.find? t key = some value := by
  induction t with
  | nil => simp at h
  | cons entry rest ih =>
    obtain ⟨hhead, hrest⟩ := List.nodup_cons.mp (show (entry.1 :: keys rest).Nodup from hn)
    rcases List.mem_cons.mp h with rfl | hm
    · simp [find?]
    · have hne : key ≠ entry.1 := by
        rintro rfl
        exact hhead (List.mem_map.mpr ⟨_, hm, rfl⟩)
      have hc : compare key entry.1 ≠ .eq := by simpa using hne
      simp only [find?, if_neg hc]
      exact ih hrest hm

theorem find?_isSome {t : Table α β} {key : α} :
    (Table.find? t key).isSome = true ↔ key ∈ keys t := by
  constructor
  · intro h
    obtain ⟨value, hv⟩ := Option.isSome_iff_exists.mp h
    exact List.mem_map.mpr ⟨_, mem_of_find? hv, rfl⟩
  · intro h
    induction t with
    | nil => simp [keys] at h
    | cons entry rest ih =>
      simp only [find?]
      split
      · rfl
      · rename_i hc
        rcases List.mem_cons.mp h with rfl | hm
        · simp at hc
        · exact ih hm

theorem mem_keys_insert {t : Table α β} {key other : α} {value : β} :
    other ∈ keys (Table.insert t key value) ↔ other = key ∨ other ∈ keys t := by
  rw [← find?_isSome, ← find?_isSome]
  by_cases h : other = key
  · subst h
    simp
  · simp [find?_insert_ne _ _ h, h]

/-- A list of entries becomes a table that finds the keys of the list. -/
theorem find?_ofList_isSome {entries : List (α × β)} {key : α} :
    (Table.find? (ofList entries) key).isSome = true ↔ key ∈ entries.map Prod.fst := by
  suffices h : ∀ t : Table α β,
      (Table.find? (entries.foldl (fun t entry => Table.insert t entry.1 entry.2) t) key).isSome =
        true ↔ key ∈ keys t ∨ key ∈ entries.map Prod.fst by
    simpa [ofList, keys] using h []
  induction entries with
  | nil => simp [find?_isSome]
  | cons entry rest ih =>
    intro t
    rw [List.foldl_cons, ih, mem_keys_insert, List.map_cons, List.mem_cons, or_left_comm, or_assoc]

/-- A table of a list finds nothing but entries of the list. -/
theorem mem_of_find?_ofList {entries : List (α × β)} {key : α} {value : β}
    (h : Table.find? (ofList entries) key = some value) : (key, value) ∈ entries := by
  suffices hs : ∀ t : Table α β,
      Table.find? (entries.foldl (fun t entry => Table.insert t entry.1 entry.2) t) key =
        some value → (key, value) ∈ entries ∨ Table.find? t key = some value by
    refine (hs [] h).resolve_right fun hn => ?_
    cases hn
  clear h
  induction entries with
  | nil => exact fun t => .inr
  | cons entry rest ih =>
    intro t ht
    rcases ih (Table.insert t entry.1 entry.2) ht with hm | hf
    · exact .inl (List.mem_cons_of_mem _ hm)
    · by_cases hk : key = entry.1
      · subst hk
        rw [find?_insert_self] at hf
        cases hf
        exact .inl (List.mem_cons_self ..)
      · rw [find?_insert_ne _ _ hk] at hf
        exact .inr hf

/-- A list of entries that a function answers to becomes a table that answers like the function. -/
theorem find?_ofList_eq {entries : List (α × β)} {f : α → Option β}
    (h : ∀ key value, (key, value) ∈ entries ↔ f key = some value) (key : α) :
    Table.find? (ofList entries) key = f key := by
  -- at every point the key is settled already, or its entry is still to come
  suffices hs : ∀ (rest : List (α × β)) (t : Table α β),
      (∀ value, (key, value) ∈ rest → f key = some value) →
        (Table.find? t key = f key ∨ ∃ value, (key, value) ∈ rest) →
          Table.find? (rest.foldl (fun t entry => Table.insert t entry.1 entry.2) t) key =
            f key by
    refine hs entries [] (fun value => (h key value).mp) ?_
    cases hf : f key with
    | none => exact .inl rfl
    | some value => exact .inr ⟨value, (h key value).mpr hf⟩
  intro rest
  induction rest with
  | nil =>
    intro t _ ht
    simpa using ht
  | cons entry rest ih =>
    intro t hmem ht
    refine ih _ (fun value hv => hmem value (List.mem_cons_of_mem _ hv)) ?_
    by_cases hk : key = entry.1
    · subst hk
      exact .inl (by rw [find?_insert_self, hmem entry.2 (List.mem_cons_self ..)])
    · rcases ht with ht | ⟨value, hv⟩
      · exact .inl (by rw [find?_insert_ne _ _ hk, ht])
      · rcases List.mem_cons.mp hv with rfl | hv
        · exact absurd rfl hk
        · exact .inr ⟨value, hv⟩

theorem Sorted.keys_nodup {t : Table α β} (h : Sorted t) : (keys t).Nodup := by
  refine (sorted_iff_keys.mp h).imp fun {a b} hab => ?_
  rintro rfl
  simp at hab

theorem Sorted.mem_iff {t : Table α β} (h : Sorted t) {key : α} {value : β} :
    (key, value) ∈ t ↔ Table.find? t key = some value :=
  ⟨find?_of_mem h.keys_nodup, mem_of_find?⟩

variable [Std.TransOrd α]

theorem Sorted.insert {t : Table α β} (h : Sorted t) (key : α) (value : β) :
    Sorted (Table.insert t key value) := by
  induction t with
  | nil => simp [Table.insert, Sorted]
  | cons entry rest ih =>
    obtain ⟨k, v⟩ := entry
    obtain ⟨hhead, hrest⟩ := List.pairwise_cons.mp h
    cases hc : compare key k with
    | lt =>
      simp only [Table.insert, hc]
      refine List.pairwise_cons.mpr ⟨fun other ho => ?_, h⟩
      rcases List.mem_cons.mp ho with rfl | ho
      · exact hc
      · exact Std.TransCmp.lt_trans hc (hhead other ho)
    | eq =>
      have hk : key = k := Std.LawfulEqOrd.eq_of_compare hc
      subst hk
      simp only [Table.insert, hc]
      exact List.pairwise_cons.mpr ⟨hhead, hrest⟩
    | gt =>
      simp only [Table.insert, hc]
      refine List.pairwise_cons.mpr ⟨fun other ho => ?_, ih hrest⟩
      have hm : other.1 ∈ keys (Table.insert rest key value) := List.mem_map_of_mem ho
      rcases mem_keys_insert.mp hm with hk | hm
      · change compare k other.1 = .lt
        rw [hk]
        exact Std.OrientedCmp.gt_iff_lt.mp hc
      · obtain ⟨old, hold, he⟩ := List.mem_map.mp hm
        change compare k other.1 = .lt
        rw [← he]
        exact hhead old hold

theorem sorted_ofList (entries : List (α × β)) : Sorted (ofList entries) := by
  suffices h : ∀ t : Table α β, Sorted t →
      Sorted (entries.foldl (fun t entry => Table.insert t entry.1 entry.2) t) from
    h [] List.Pairwise.nil
  induction entries with
  | nil => exact fun t ht => ht
  | cons entry rest ih => exact fun t ht => ih _ (ht.insert entry.1 entry.2)

/-- A table of a list is as long as there are different keys in the list. -/
theorem length_ofList {entries : List (α × β)} {distinct : List α} (hn : distinct.Nodup)
    (hm : ∀ key, key ∈ distinct ↔ key ∈ entries.map Prod.fst) :
    (ofList entries).length = distinct.length := by
  have hperm : (keys (ofList entries)).Perm distinct := by
    rw [List.perm_ext_iff_of_nodup (sorted_ofList entries).keys_nodup hn]
    intro key
    rw [hm, ← find?_isSome, find?_ofList_isSome]
  rw [← hperm.length_eq, keys, List.length_map]

omit [Std.LawfulEqOrd α] in
/-- A key above all others goes to the end. -/
theorem insert_of_lt {t : Table α β} {key : α} (value : β)
    (h : ∀ entry ∈ t, compare entry.1 key = .lt) :
    Table.insert t key value = t ++ [(key, value)] := by
  induction t with
  | nil => rfl
  | cons entry rest ih =>
    have hc : compare key entry.1 = .gt :=
      Std.OrientedCmp.gt_iff_lt.mpr (h entry (List.mem_cons_self ..))
    simp only [Table.insert, hc, List.cons_append,
      ih fun other ho => h other (List.mem_cons_of_mem _ ho)]

omit [Std.LawfulEqOrd α] in
/-- A list in key order is its own table. -/
theorem ofList_of_sorted {t : Table α β} (h : Sorted t) : ofList t = t := by
  suffices hs : ∀ rest done : Table α β, Sorted (done ++ rest) →
      rest.foldl (fun t entry => Table.insert t entry.1 entry.2) done = done ++ rest from
    hs t [] h
  intro rest
  induction rest with
  | nil => simp
  | cons entry rest ih =>
    intro done hd
    have happend : done ++ entry :: rest = (done ++ [entry]) ++ rest := by simp
    have hlt : ∀ other ∈ done, compare other.1 entry.1 = .lt := fun other ho =>
      (List.pairwise_append.mp hd).2.2 other ho entry (List.mem_cons_self ..)
    rw [List.foldl_cons, insert_of_lt _ hlt, happend]
    exact ih _ (happend ▸ hd)

omit [Std.LawfulEqOrd α] in
/-- Lists in strict order of some key are the same when their members are. -/
theorem eq_of_ascending {γ : Type w} {f : γ → α} {l l' : List γ}
    (h : l.Pairwise fun a b => compare (f a) (f b) = .lt)
    (h' : l'.Pairwise fun a b => compare (f a) (f b) = .lt) (hm : ∀ a, a ∈ l ↔ a ∈ l') :
    l = l' := by
  have hirrefl : Std.Irrefl fun a b => compare (f a) (f b) = .lt :=
    ⟨fun a ha => by simp at ha⟩
  have hantisymm : Std.Antisymm fun a b => compare (f a) (f b) = .lt :=
    ⟨fun a b hab hba => by
      rw [Std.OrientedCmp.gt_iff_lt.mpr hba] at hab
      cases hab⟩
  exact List.Pairwise.eq_of_mem_iff h h' hm

/-- Two tables in key order that find the same are the same. -/
theorem Sorted.ext {t t' : Table α β} (h : Sorted t) (h' : Sorted t')
    (hf : ∀ key, Table.find? t key = Table.find? t' key) : t = t' := by
  refine eq_of_ascending (f := Prod.fst) h h' fun entry => ?_
  rw [h.mem_iff, h'.mem_iff, hf]

/-- Putting the value that is found under a key changes nothing. -/
theorem Sorted.insert_found {t : Table α β} (h : Sorted t) {key : α} {value : β}
    (hv : Table.find? t key = some value) : Table.insert t key value = t := by
  refine (h.insert key value).ext h fun other => ?_
  by_cases ho : other = key
  · subst ho
    rw [find?_insert_self, hv]
  · rw [find?_insert_ne t _ ho]

/-- Of two values that are put under one key the later one stays. -/
theorem Sorted.insert_insert {t : Table α β} (h : Sorted t) (key : α) (first second : β) :
    Table.insert (Table.insert t key first) key second = Table.insert t key second := by
  refine ((h.insert key first).insert key second).ext (h.insert key second) fun other => ?_
  by_cases ho : other = key
  · subst ho
    rw [find?_insert_self, find?_insert_self]
  · rw [find?_insert_ne _ _ ho, find?_insert_ne t _ ho, find?_insert_ne t _ ho]

/-- Replacing the value that is found is a change of this value. -/
theorem Sorted.insert_eq_modify {t : Table α β} (h : Sorted t) {key : α} {value : β}
    (hv : Table.find? t key = some value) (f : β → β) :
    Table.insert t key (f value) = modify t key f := by
  refine (h.insert key (f value)).ext (h.congr_keys (keys_modify t key f)) fun other => ?_
  by_cases ho : other = key
  · subst ho
    rw [find?_insert_self, find?_modify_self, hv, Option.map_some]
  · rw [find?_insert_ne t _ ho, find?_modify_ne t f ho]

/-- Changing the values of all keys one after the other changes all values. -/
theorem Sorted.foldl_modify_keys {t : Table α β} (h : Sorted t) (f : β → β) :
    (keys t).foldl (fun t key => modify t key f) t = mapValues f t := by
  have hfold := h.congr_keys (keys_foldl_modify t (keys t) f)
  refine hfold.ext (h.congr_keys (keys_mapValues f t)) fun key => ?_
  obtain ⟨hin, hout⟩ := find?_foldl_modify h.keys_nodup t f key
  rw [find?_mapValues]
  by_cases hk : key ∈ keys t
  · exact hin hk
  · have hnone : Table.find? t key = none := by
      rw [← Option.not_isSome_iff_eq_none, find?_isSome]
      exact hk
    rw [hout hk, hnone, Option.map_none]

/-! ### Where the keys of a list stand -/

/-- The table has every key of a list once, with the number of its place, and no other key. -/
structure Locates (number : β → Nat) (t : Table α β) (list : List α) : Prop where
  sorted : Sorted t
  find?_eq_some : ∀ key value, Table.find? t key = some value ↔ list[number value]? = some key

section
variable {number : β → Nat} {t : Table α β} {list : List α} {key : α} {value : β}

omit [Std.LawfulEqOrd α] [Std.TransOrd α] in
theorem locates_nil : Locates number ([] : Table α β) [] := ⟨.nil, by simp [find?]⟩

/-- A new key is put behind the others. -/
theorem Locates.push (h : Locates number t list) (hn : Function.Injective number)
    (hnew : Table.find? t key = none) (hvalue : number value = list.length) :
    Locates number (Table.insert t key value) (list ++ [key]) := by
  refine ⟨h.sorted.insert key value, fun other place => ?_⟩
  have hbehind : list[list.length]? = none := List.getElem?_eq_none (Nat.le_refl _)
  by_cases hplace : number place = list.length
  · obtain rfl : place = value := hn (hplace.trans hvalue.symm)
    have hold : Table.find? t other ≠ some place := fun hf => by
      simpa [hplace, hbehind] using (h.find?_eq_some other place).mp hf
    rw [hplace, List.getElem?_concat_length]
    by_cases hkey : other = key
    · simp [hkey]
    · simp [find?_insert_ne t place hkey, hold, Ne.symm hkey]
  · have hlist : (list ++ [key])[number place]? = list[number place]? := by
      rcases Nat.lt_or_gt_of_ne hplace with hlt | hgt
      · exact List.getElem?_append_left hlt
      · rw [List.getElem?_eq_none (by simp; omega), List.getElem?_eq_none (Nat.le_of_lt hgt)]
    rw [hlist, ← h.find?_eq_some]
    by_cases hkey : other = key
    · have hne : value ≠ place := fun heq => hplace (heq ▸ hvalue)
      simp [hkey, hnew, hne]
    · rw [find?_insert_ne t value hkey]

omit [Std.LawfulEqOrd α] [Std.TransOrd α] in
theorem Locates.isSome_find? (h : Locates number t list) (hn : Function.Surjective number) :
    (Table.find? t key).isSome ↔ key ∈ list := by
  rw [Option.isSome_iff_exists, List.mem_iff_getElem?]
  constructor
  · rintro ⟨value, hv⟩
    exact ⟨number value, (h.find?_eq_some key value).mp hv⟩
  · rintro ⟨i, hi⟩
    obtain ⟨value, rfl⟩ := hn i
    exact ⟨value, (h.find?_eq_some key value).mpr hi⟩

omit [Std.LawfulEqOrd α] [Std.TransOrd α] in
theorem Locates.nodup (h : Locates number t list) (hn : Function.Surjective number) :
    list.Nodup := by
  rw [List.nodup_iff_getElem?_ne_getElem?]
  intro i j hij hj heq
  obtain ⟨a, rfl⟩ := hn i
  obtain ⟨b, rfl⟩ := hn j
  have ha := (h.find?_eq_some list[number b] a).mpr (by rw [heq, List.getElem?_eq_getElem hj])
  have hb := (h.find?_eq_some list[number b] b).mpr (List.getElem?_eq_getElem hj)
  cases ha.symm.trans hb
  exact Nat.lt_irrefl _ hij

end

end SceneScript.Table
