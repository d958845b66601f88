/-! # Tables in key order

A table is a list of entries whose keys ascend strictly. Records, variable stores and component
maps are tables, so two maps with the same content are the same list and iteration needs no sort.
-/
namespace SceneScript
universe u v

/-- Entries in ascending key order. The order is kept by the operations, not by the type. -/
abbrev Table (α : Type u) (β : Type v) := List (α × β)

namespace Table
variable {α : Type u} {β : Type v} [Ord α]

def find? (t : Table α β) (key : α) : Option β :=
  match t with
  | [] => none
  | (k, v) :: rest => if compare key k = .eq then some v else Table.find? rest key

def contains (t : Table α β) (key : α) : Bool := (Table.find? t key).isSome

/-- Put a value under a key, replacing the one that was there. -/
def insert (t : Table α β) (key : α) (value : β) : Table α β :=
  match t with
  | [] => [(key, value)]
  | (k, v) :: rest =>
    match compare key k with
    | .lt => (key, value) :: (k, v) :: rest
    | .eq => (key, value) :: rest
    | .gt => (k, v) :: Table.insert rest key value

def erase (t : Table α β) (key : α) : Table α β :=
  t.filter fun entry => compare key entry.1 != .eq

/-- Replace the value under a key by its image; a key without a value stays without one. -/
def modify (t : Table α β) (key : α) (f : β → β) : Table α β :=
  t.map fun entry => if compare key entry.1 = .eq then (entry.1, f entry.2) else entry

def keys (t : Table α β) : List α := t.map Prod.fst

/-- The table of a list of entries; of two entries with one key the later one stays. -/
def ofList (entries : List (α × β)) : Table α β :=
  entries.foldl (fun t entry => Table.insert t entry.1 entry.2) []

/-- The keys ascend strictly. -/
def Sorted (t : Table α β) : Prop := t.Pairwise fun a b => compare a.1 b.1 = .lt

section
variable [Std.LawfulEqOrd α]

@[simp] theorem find?_insert_self (t : Table α β) (key : α) (value : β) :
    Table.find? (Table.insert t key value) key = some value := by
  induction t with
  | nil => simp [insert, find?]
  | cons entry rest ih =>
    obtain ⟨k, v⟩ := entry
    cases h : compare key k <;> simp [insert, find?, h, ih]

theorem find?_insert_ne (t : Table α β) {key other : α} (value : β) (hne : other ≠ key) :
    Table.find? (Table.insert t key value) other = Table.find? t other := by
  have hother : compare other key ≠ .eq := by simpa using hne
  induction t with
  | nil => simp [insert, find?, hne]
  | cons entry rest ih =>
    obtain ⟨k, v⟩ := entry
    cases h : compare key k with
    | lt => simp [insert, find?, h, hne]
    | eq =>
      have hk : key = k := Std.LawfulEqOrd.eq_of_compare h
      subst hk
      simp [insert, find?, hne]
    | gt => simp [insert, find?, h, ih]

omit [Std.LawfulEqOrd α] in
@[simp] theorem find?_erase_self (t : Table α β) (key : α) :
    Table.find? (Table.erase t key) key = none := by
  induction t with
  | nil => rfl
  | cons entry rest ih =>
    obtain ⟨k, v⟩ := entry
    simp only [erase] at ih
    cases h : compare key k <;> simp [erase, find?, h, ih]

theorem find?_erase_ne (t : Table α β) {key other : α} (hne : other ≠ key) :
    Table.find? (Table.erase t key) other = Table.find? t other := by
  induction t with
  | nil => rfl
  | cons entry rest ih =>
    obtain ⟨k, v⟩ := entry
    simp only [erase] at ih
    cases h : compare key k with
    | eq =>
      have hk : key = k := Std.LawfulEqOrd.eq_of_compare h
      subst hk
      simp [erase, find?, hne, ih]
    | lt => simp [erase, find?, h, ih]
    | gt => simp [erase, find?, h, ih]

end

end Table
end SceneScript
