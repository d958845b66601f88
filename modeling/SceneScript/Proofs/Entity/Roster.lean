import SceneScript.Entity.Roster
import SceneScript.Proofs.Component.Array

/-! # Who is alive and with which components

A roster keeps who is alive, the signatures and the generations apart from each other. Along all its
operations both vectors have a place for every live number, and the place of a number that is not
alive has no components left in it. So bringing a number to life changes no signature.
-/
namespace SceneScript

namespace BitSet

theorem contains_iff {s : BitSet} {n : Nat} : BitSet.contains s n = true ↔ n ∈ s := by
  simp [BitSet.contains]

theorem mem_add {s : BitSet} {n m : Nat} : m ∈ BitSet.add s n ↔ m = n ∨ m ∈ s := by
  induction s with
  | nil => simp [BitSet.add]
  | cons k rest ih =>
    by_cases h₁ : n < k
    · simp [BitSet.add, h₁]
    · by_cases h₂ : n = k
      · simp [BitSet.add, h₂]
      · simp [BitSet.add, h₁, h₂, ih, or_left_comm]

theorem mem_drop {s : BitSet} {n m : Nat} : m ∈ BitSet.drop s n ↔ m ∈ s ∧ m ≠ n := by
  simp [BitSet.drop]

theorem contains_put (s : BitSet) (n m : Nat) (present : Bool) :
    BitSet.contains (BitSet.put s n present) m =
      if m = n then present else BitSet.contains s m := by
  rw [Bool.eq_iff_iff, contains_iff]
  by_cases h : m = n <;> cases present <;>
    simp [BitSet.put, mem_add, mem_drop, contains_iff, h]

theorem ascending_add {s : BitSet} (hs : s.Pairwise (· < ·)) (n : Nat) :
    (BitSet.add s n).Pairwise (· < ·) := by
  induction s with
  | nil => exact List.pairwise_singleton ..
  | cons k rest ih =>
    obtain ⟨hk, hrest⟩ := List.pairwise_cons.mp hs
    by_cases h₁ : n < k
    · rw [BitSet.add, if_pos h₁]
      refine List.pairwise_cons.mpr ⟨fun m hm => ?_, hs⟩
      rcases List.mem_cons.mp hm with rfl | hm
      · exact h₁
      · exact Nat.lt_trans h₁ (hk m hm)
    · by_cases h₂ : n = k
      · rw [BitSet.add, if_neg h₁, if_pos h₂]
        exact hs
      · rw [BitSet.add, if_neg h₁, if_neg h₂]
        refine List.pairwise_cons.mpr ⟨fun m hm => ?_, ih hrest⟩
        rcases mem_add.mp hm with rfl | hm
        · omega
        · exact hk m hm

theorem ascending_drop {s : BitSet} (hs : s.Pairwise (· < ·)) (n : Nat) :
    (BitSet.drop s n).Pairwise (· < ·) := hs.filter _

end BitSet

namespace Signature

theorem contains_put (s : Signature) (id id' : ComponentId) (present : Bool) :
    (s.put id present).contains id' = if id' = id then present else s.contains id' := by
  simp only [contains, put, BitSet.contains_put, ComponentId.index_inj]

end Signature

namespace Roster

/-! ### Who is alive -/

theorem isAlive_iff {r : Roster} {e : Entity} : r.isAlive e = true ↔ e.index ∈ r.live :=
  BitSet.contains_iff

theorem grow_live (r : Roster) (n : Nat) : (r.grow n).live = r.live := by
  unfold grow
  split <;> rfl

theorem activate_live (r : Roster) (e : Entity) :
    (r.activate e).live = BitSet.add r.live e.index :=
  congrArg (BitSet.add · e.index) (r.grow_live e.index)

theorem isAlive_activate (r : Roster) (e e' : Entity) :
    (r.activate e).isAlive e' = true ↔ e' = e ∨ r.isAlive e' = true := by
  rw [isAlive_iff, isAlive_iff, activate_live, BitSet.mem_add, Entity.index_inj]

theorem isAlive_of_hasComponent {r : Roster} {e : Entity} {id : ComponentId}
    (h : r.hasComponent e id = true) : r.isAlive e = true := by
  cases ha : r.isAlive e with
  | true => rfl
  | false => simp [hasComponent, signature?, ha] at h

theorem hasComponent_eq_false {r : Roster} {e : Entity} (h : r.isAlive e = false)
    (id : ComponentId) : r.hasComponent e id = false := by
  simp [hasComponent, signature?, h]

/-! ### What the operations do -/

@[simp] theorem activate_free (r : Roster) (e : Entity) : (r.activate e).free = r.free := by
  simp only [activate, grow]
  split <;> rfl

@[simp] theorem activate_nextId (r : Roster) (e : Entity) : (r.activate e).nextId = r.nextId := by
  simp only [activate, grow]
  split <;> rfl

@[simp] theorem activate_count (r : Roster) (e : Entity) : (r.activate e).count = r.count + 1 := by
  simp only [activate, grow]
  split <;> rfl

/-- The roster with other free numbers. -/
def moved (r : Roster) (free : FreeIds) (nextId : Nat) : Roster :=
  { r with free := free, nextId := nextId }

theorem create_eq (r : Roster) :
    ∃ free nextId, r.create.2 = (r.moved free nextId).activate r.create.1 := by
  unfold create
  split
  · exact ⟨_, _, rfl⟩
  · exact ⟨_, _, rfl⟩

theorem createAt_ok {r r' : Roster} {e : Entity} (h : r.createAt e = .ok r') :
    e.id < limit ∧ r.isAlive e = false ∧
      ∃ free nextId, r' = (r.moved free nextId).activate e := by
  unfold createAt at h
  split at h
  · cases h
  · rename_i hlimit
    split at h
    · cases h
    · rename_i ha
      refine ⟨UInt32.not_le.mp hlimit, Bool.eq_false_iff.mpr ha, ?_⟩
      split at h <;> cases h <;> exact ⟨_, _, rfl⟩

theorem release_of_isAlive {r : Roster} {e : Entity} (h : r.isAlive e = true) :
    ∃ r', r.release e = .ok r' := ⟨_, if_pos h⟩

theorem release_of_dead {r : Roster} {e : Entity} (h : r.isAlive e = false) :
    r.release e = .error (.unknownEntity e) := if_neg (Bool.eq_false_iff.mp h)

theorem release_ok {r r' : Roster} {e : Entity} (h : r.release e = .ok r') :
    r.isAlive e = true ∧ r' = { r with
      live := r.live.drop e.index
      signatures := r.signatures.modify e.index fun _ => []
      generations := r.generations.modify e.index Generation.next
      free := r.free.give e.index
      count := r.count - 1 } := by
  unfold release at h
  split at h
  · exact ⟨‹_›, (Except.ok.inj h).symm⟩
  · cases h

theorem setBit_of_isAlive {r : Roster} {e : Entity} (h : r.isAlive e = true) (id : ComponentId)
    (present : Bool) : ∃ r', r.setBit e id present = .ok r' := ⟨_, if_pos h⟩

theorem setBit_ok {r r' : Roster} {e : Entity} {id : ComponentId} {present : Bool}
    (h : r.setBit e id present = .ok r') : r.isAlive e = true ∧
      r' = { r with signatures := r.signatures.modify e.index fun s => s.put id present } := by
  unfold setBit at h
  split at h
  · exact ⟨‹_›, (Except.ok.inj h).symm⟩
  · cases h

theorem isAlive_release {r r' : Roster} {e : Entity} (h : r.release e = .ok r') (e' : Entity) :
    r'.isAlive e' = true ↔ e' ≠ e ∧ r.isAlive e' = true := by
  obtain ⟨-, rfl⟩ := release_ok h
  rw [isAlive_iff, isAlive_iff]
  change e'.index ∈ BitSet.drop r.live e.index ↔ _
  rw [BitSet.mem_drop, ne_eq, Entity.index_inj, and_comm]

theorem isAlive_setBit {r r' : Roster} {e : Entity} {id : ComponentId} {present : Bool}
    (h : r.setBit e id present = .ok r') (e' : Entity) : r'.isAlive e' = r.isAlive e' := by
  obtain ⟨-, rfl⟩ := setBit_ok h
  rfl

/-! ### Places -/

theorem size_resize {α : Type} (xs : Array α) (n : Nat) (x : α) : (resize xs n x).size = n :=
  Array.size_ofFn

theorem getElem?_resize {α : Type} (xs : Array α) (n : Nat) (x : α) (i : Nat) :
    (resize xs n x)[i]? = if i < n then some (xs[i]?.getD x) else none := by
  simp only [resize, Array.getElem?_ofFn]
  split <;> rfl

theorem size_generations_grow (r : Roster) (n : Nat) :
    (r.grow n).generations.size = max r.generations.size (n + 1) := by
  unfold grow
  split
  · omega
  · rw [size_resize]
    omega

/-- A number that has a place keeps its generation. -/
theorem generation?_grow {r : Roster} {e : Entity} {g : Generation}
    (h : r.generation? e = some g) (n : Nat) : (r.grow n).generation? e = some g := by
  unfold grow
  split
  · exact h
  · have hlt : e.index < r.generations.size := (Array.getElem?_eq_some_iff.mp h).1
    have hplace : e.index < n + 1 := by omega
    rw [generation?, getElem?_resize, if_pos hplace]
    exact congrArg (fun g => some (Option.getD g Generation.first)) h

/-- The numbers that are alive are in order, both vectors have a place for each of them, and the
places of all other numbers are cleared. -/
structure Tidy (r : Roster) : Prop where
  ascending : r.live.Pairwise (· < ·)
  bounded : ∀ n ∈ r.live, n < UInt32.size
  sized : r.signatures.size = r.generations.size
  held : ∀ n ∈ r.live, n < r.generations.size
  cleared : ∀ n s, n ∉ r.live → r.signatures[n]? = some s → s = []

theorem tidy_empty : Tidy {} where
  ascending := .nil
  bounded := by simp
  sized := rfl
  held := by simp
  cleared := by simp

section
variable {r r' : Roster} {e : Entity}

/-- A new place has no components in it, and the others are as they were. -/
theorem Tidy.signatures_grow (h : r.Tidy) (n i : Nat) : (r.grow n).signatures[i]? =
    if i ≤ n then some (r.signatures[i]?.getD []) else r.signatures[i]? := by
  have hsized := h.sized
  unfold grow
  split
  · by_cases hi : i ≤ n
    · have hlt : i < r.signatures.size := by omega
      rw [if_pos hi, Array.getElem?_eq_getElem hlt, Option.getD_some]
    · rw [if_neg hi]
  · rw [getElem?_resize]
    by_cases hi : i ≤ n
    · rw [if_pos hi, if_pos (by omega)]
    · rw [if_neg hi, if_neg (by omega), Array.getElem?_eq_none (by omega)]

theorem Tidy.moved (h : r.Tidy) (free : FreeIds) (nextId : Nat) : (r.moved free nextId).Tidy :=
  ⟨h.ascending, h.bounded, h.sized, h.held, h.cleared⟩

theorem Tidy.activate (h : r.Tidy) (e : Entity) : (r.activate e).Tidy where
  ascending := by
    rw [activate_live]
    exact BitSet.ascending_add h.ascending _
  bounded n hn := by
    rw [activate_live] at hn
    rcases BitSet.mem_add.mp hn with rfl | hn
    · exact e.id.toNat_lt
    · exact h.bounded n hn
  sized := by
    change (r.grow e.index).signatures.size = (r.grow e.index).generations.size
    unfold grow
    split
    · exact h.sized
    · rw [size_resize, size_resize]
  held n hn := by
    change n < (r.grow e.index).generations.size
    rw [activate_live] at hn
    rw [size_generations_grow]
    rcases BitSet.mem_add.mp hn with rfl | hn
    · omega
    · have := h.held n hn
      omega
  cleared n s hn hs := by
    change (r.grow e.index).signatures[n]? = some s at hs
    rw [activate_live, BitSet.mem_add, not_or] at hn
    rw [h.signatures_grow] at hs
    split at hs
    · cases hold : r.signatures[n]? with
      | none => simpa [hold, eq_comm] using hs
      | some t =>
        rw [hold] at hs
        cases hs
        exact h.cleared n _ hn.2 hold
    · exact h.cleared n s hn.2 hs

theorem Tidy.create (h : r.Tidy) : r.create.2.Tidy := by
  obtain ⟨free, nextId, hr⟩ := r.create_eq
  rw [hr]
  exact (h.moved free nextId).activate _

theorem Tidy.createAt (h : r.Tidy) (hc : r.createAt e = .ok r') : r'.Tidy := by
  obtain ⟨-, -, free, nextId, rfl⟩ := createAt_ok hc
  exact (h.moved free nextId).activate e

theorem Tidy.release (h : r.Tidy) (hr : r.release e = .ok r') : r'.Tidy := by
  obtain ⟨-, rfl⟩ := release_ok hr
  have hkept : ∀ n, n ∈ BitSet.drop r.live e.index → n ∈ r.live := fun n hn =>
    (BitSet.mem_drop.mp hn).1
  refine ⟨BitSet.ascending_drop h.ascending _, fun n hn => h.bounded n (hkept n hn), ?_,
    fun n hn => ?_, fun n s hn hs => ?_⟩
  · rw [Array.size_modify, Array.size_modify, h.sized]
  · rw [Array.size_modify]
    exact h.held n (hkept n hn)
  · rw [Array.getElem?_modify] at hs
    split at hs
    · obtain ⟨_, _, rfl⟩ := Option.map_eq_some_iff.mp hs
      rfl
    · refine h.cleared n s (fun hm => hn ?_) hs
      exact BitSet.mem_drop.mpr ⟨hm, fun heq => ‹¬e.index = n› heq.symm⟩

theorem Tidy.setBit (h : r.Tidy) {id : ComponentId} {present : Bool}
    (hb : r.setBit e id present = .ok r') : r'.Tidy := by
  obtain ⟨ha, rfl⟩ := setBit_ok hb
  refine ⟨h.ascending, h.bounded, ?_, h.held, fun n s hn hs => ?_⟩
  · rw [Array.size_modify, h.sized]
  · rw [Array.getElem?_modify] at hs
    split at hs
    · rename_i heq
      exact absurd (heq ▸ isAlive_iff.mp ha) hn
    · exact h.cleared n s hn hs

/-! ### Signatures -/

/-- The live entities are those that have a signature. -/
theorem Tidy.isSome_signature? (h : r.Tidy) (e : Entity) :
    (r.signature? e).isSome = r.isAlive e := by
  cases ha : r.isAlive e with
  | false => simp [signature?, ha]
  | true =>
    have hlt : e.index < r.signatures.size := h.sized ▸ h.held _ (isAlive_iff.mp ha)
    simp [signature?, ha, hlt]

/-- Bringing a number to life gives it a signature without components, unless it has one. -/
theorem Tidy.signature?_activate (h : r.Tidy) (e e' : Entity) : (r.activate e).signature? e' =
    if e' = e then some ((r.signature? e).getD []) else r.signature? e' := by
  have hplace : (r.activate e).signatures[e'.index]? =
      if e'.index ≤ e.index then some (r.signatures[e'.index]?.getD []) else
        r.signatures[e'.index]? := h.signatures_grow e.index e'.index
  by_cases he : e' = e
  · subst he
    have halive : (r.activate e').isAlive e' = true := (isAlive_activate ..).mpr (.inl rfl)
    rw [signature?, if_pos halive, hplace, if_pos (Nat.le_refl _), if_pos rfl]
    cases ha : r.isAlive e' with
    | true => rw [signature?, if_pos ha]
    | false =>
      rw [signature?, if_neg (Bool.eq_false_iff.mp ha), Option.getD_none]
      have hdead : e'.index ∉ r.live := fun hm => by simp [isAlive_iff.mpr hm] at ha
      cases hs : r.signatures[e'.index]? with
      | none => rfl
      | some s => rw [h.cleared _ s hdead hs, Option.getD_some]
  · have halive : (r.activate e).isAlive e' = r.isAlive e' := by
      rw [Bool.eq_iff_iff, isAlive_activate]
      exact or_iff_right he
    rw [if_neg he, signature?, signature?, halive]
    split
    · rename_i ha
      have hlt : e'.index < r.signatures.size := h.sized ▸ h.held _ (isAlive_iff.mp ha)
      rw [hplace, Array.getElem?_eq_getElem hlt, Option.getD_some, ite_self]
    · rfl

/-- Bringing a number to life changes no signature. -/
theorem Tidy.hasComponent_activate (h : r.Tidy) (e e' : Entity) (id : ComponentId) :
    (r.activate e).hasComponent e' id = r.hasComponent e' id := by
  unfold hasComponent
  rw [h.signature?_activate]
  by_cases he : e' = e
  · subst he
    rw [if_pos rfl]
    cases r.signature? e' <;> rfl
  · rw [if_neg he]

theorem Tidy.hasComponent_create (h : r.Tidy) (e : Entity) (id : ComponentId) :
    r.create.2.hasComponent e id = r.hasComponent e id := by
  obtain ⟨free, nextId, hr⟩ := r.create_eq
  rw [hr, (h.moved free nextId).hasComponent_activate]
  rfl

theorem Tidy.hasComponent_createAt (h : r.Tidy) (hc : r.createAt e = .ok r') (e' : Entity)
    (id : ComponentId) : r'.hasComponent e' id = r.hasComponent e' id := by
  obtain ⟨-, -, free, nextId, rfl⟩ := createAt_ok hc
  rw [(h.moved free nextId).hasComponent_activate]
  rfl

theorem signature?_release (h : r.release e = .ok r') (e' : Entity) :
    r'.signature? e' = if e' = e then none else r.signature? e' := by
  have halive := isAlive_release h e'
  obtain ⟨-, rfl⟩ := release_ok h
  by_cases he : e' = e
  · rw [if_pos he, signature?, if_neg fun ha => (halive.mp ha).1 he]
  · have hne : ¬e.index = e'.index := fun hi => he (Entity.index_inj.mp hi).symm
    simp only [he, ne_eq, not_false_eq_true, true_and] at halive
    rw [if_neg he, signature?, signature?, Bool.eq_iff_iff.mpr halive, Array.getElem?_modify,
      if_neg hne]

theorem hasComponent_release (h : r.release e = .ok r') (e' : Entity) (id : ComponentId) :
    r'.hasComponent e' id = if e' = e then false else r.hasComponent e' id := by
  unfold hasComponent
  rw [signature?_release h]
  by_cases he : e' = e
  · rw [if_pos he, if_pos he]
  · rw [if_neg he, if_neg he]

theorem signature?_setBit {id : ComponentId} {present : Bool}
    (h : r.setBit e id present = .ok r') (e' : Entity) : r'.signature? e' =
      if e' = e then (r.signature? e').map (·.put id present) else r.signature? e' := by
  have halive := isAlive_setBit h e'
  obtain ⟨-, rfl⟩ := setBit_ok h
  rw [signature?, signature?, halive, Array.getElem?_modify]
  by_cases he : e' = e
  · subst he
    rw [if_pos rfl, if_pos rfl]
    split <;> rfl
  · have hne : ¬e.index = e'.index := fun hi => he (Entity.index_inj.mp hi).symm
    rw [if_neg he, if_neg hne]

theorem Tidy.hasComponent_setBit (h : r.Tidy) {id : ComponentId} {present : Bool}
    (hb : r.setBit e id present = .ok r') (e' : Entity) (id' : ComponentId) :
    r'.hasComponent e' id' = if e' = e ∧ id' = id then present else r.hasComponent e' id' := by
  unfold hasComponent
  rw [signature?_setBit hb]
  by_cases he : e' = e
  · subst he
    have hsome := h.isSome_signature? e'
    rw [(setBit_ok hb).1] at hsome
    obtain ⟨s, hs⟩ := Option.isSome_iff_exists.mp hsome
    simp [hs, Signature.contains_put]
  · simp [he]

end

end Roster
end SceneScript
