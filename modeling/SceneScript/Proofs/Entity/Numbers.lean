import Mathlib.Order.Defs.LinearOrder
import SceneScript.Proofs.Entity.Roster
import SceneScript.Proofs.Table

/-! # Which number comes next

The free runs of a roster are the numbers below its counter that nobody alive has. Every operation
keeps this up, as long as the counter stays within the numbers of entities, so the numbers that a
roster will hand out depend on nothing but on who is alive.
-/
namespace SceneScript

namespace FreeIds

/-- The runs ascend from the lower bound to the upper one, and none of them is empty. -/
def Within (high : Nat) : (low : Nat) → FreeIds → Prop
  | low, [] => low ≤ high
  | low, (start, stop) :: rest => low ≤ start ∧ start < stop ∧ Within high stop rest

theorem contains_cons {start stop n : Nat} {rest : FreeIds} :
    contains ((start, stop) :: rest) n = true ↔
      start ≤ n ∧ n < stop ∨ contains rest n = true := by
  simp [contains]

theorem contains_append {free more : FreeIds} {n : Nat} :
    contains (free ++ more) n = true ↔ contains free n = true ∨ contains more n = true := by
  simp [contains]

theorem contains_ofRun {start stop n : Nat} :
    contains (ofRun start stop) n = true ↔ start ≤ n ∧ n < stop := by
  unfold ofRun
  split
  · simp [contains]
  · simp only [contains, List.any_nil, Bool.false_eq_true, false_iff]
    omega

theorem Within.low_le {high low : Nat} {free : FreeIds} (h : Within high low free) :
    low ≤ high := by
  induction free generalizing low with
  | nil => exact h
  | cons run rest ih =>
    obtain ⟨hlow, hrun, hrest⟩ := h
    have := ih hrest
    omega

theorem Within.mono {high low low' : Nat} {free : FreeIds} (h : Within high low free)
    (hl : low' ≤ low) : Within high low' free := by
  cases free with
  | nil => exact Nat.le_trans hl h
  | cons run rest => exact ⟨Nat.le_trans hl h.1, h.2⟩

theorem Within.bounds {high low n : Nat} {free : FreeIds} (h : Within high low free)
    (hn : contains free n = true) : low ≤ n ∧ n < high := by
  induction free generalizing low with
  | nil => simp [contains] at hn
  | cons run rest ih =>
    obtain ⟨start, stop⟩ := run
    obtain ⟨hlow, hrun, hrest⟩ := h
    rcases contains_cons.mp hn with ⟨hstart, hstop⟩ | hn
    · have := hrest.low_le
      omega
    · have := ih hrest hn
      omega

theorem Within.ofRun_append {high low start stop : Nat} {free : FreeIds}
    (h : Within high stop free) (hl : low ≤ start) (hs : start ≤ stop) :
    Within high low (ofRun start stop ++ free) := by
  unfold ofRun
  split
  · exact ⟨hl, ‹_›, h⟩
  · exact h.mono (by omega)

theorem Within.append {high middle low : Nat} {free more : FreeIds}
    (h : Within middle low free) (hm : Within high middle more) :
    Within high low (free ++ more) := by
  induction free generalizing low with
  | nil => exact hm.mono h
  | cons run rest ih =>
    obtain ⟨hlow, hrun, hrest⟩ := h
    exact ⟨hlow, hrun, ih hrest⟩

/-- The lowest number of the first run is taken and no other one. -/
theorem Within.takeLowest {high low n : Nat} {free rest : FreeIds} (h : Within high low free)
    (ht : free.takeLowest? = some (n, rest)) :
    Within high low rest ∧ contains free n = true ∧ (∀ m, contains free m = true → n ≤ m) ∧
      ∀ m, contains rest m = true ↔ contains free m = true ∧ m ≠ n := by
  cases free with
  | nil => cases ht
  | cons run runs =>
    obtain ⟨start, stop⟩ := run
    obtain ⟨hlow, hrun, hruns⟩ := h
    cases ht
    refine ⟨hruns.ofRun_append (by omega) (by omega), ?_, ?_, ?_⟩
    · exact contains_cons.mpr (.inl ⟨Nat.le_refl _, hrun⟩)
    · intro m hm
      rcases contains_cons.mp hm with hm | hm
      · exact hm.1
      · have := hruns.bounds hm
        omega
    · intro m
      rw [contains_append, contains_ofRun, contains_cons]
      constructor
      · rintro (hm | hm)
        · exact ⟨.inl ⟨by omega, hm.2⟩, by omega⟩
        · have := hruns.bounds hm
          exact ⟨.inr hm, by omega⟩
      · rintro ⟨hm | hm, hne⟩
        · exact .inl ⟨by omega, hm.2⟩
        · exact .inr hm

theorem Within.take {high low n : Nat} {free : FreeIds} (h : Within high low free) :
    Within high low (free.take n) := by
  induction free generalizing low with
  | nil => exact h
  | cons run rest ih =>
    obtain ⟨start, stop⟩ := run
    obtain ⟨hlow, hrun, hrest⟩ := h
    simp only [FreeIds.take, List.flatMap_cons]
    split
    · rename_i hn
      rw [List.append_assoc]
      have hafter : Within high (n + 1) (ofRun (n + 1) stop ++ FreeIds.take rest n) :=
        (ih hrest).ofRun_append (Nat.le_refl _) hn.2
      exact (hafter.mono (Nat.le_succ n)).ofRun_append hlow hn.1
    · exact ⟨hlow, hrun, ih hrest⟩

theorem contains_take {free : FreeIds} {n m : Nat} :
    contains (free.take n) m = true ↔ contains free m = true ∧ m ≠ n := by
  induction free with
  | nil => simp [FreeIds.take, contains]
  | cons run rest ih =>
    obtain ⟨start, stop⟩ := run
    have hcons : contains (FreeIds.take ((start, stop) :: rest) n) m = true ↔
        (start ≤ m ∧ m < stop) ∧ m ≠ n ∨ contains (FreeIds.take rest n) m = true := by
      simp only [FreeIds.take, List.flatMap_cons, contains_append]
      refine or_congr ?_ Iff.rfl
      split
      · rw [contains_append, contains_ofRun, contains_ofRun]
        omega
      · simp only [contains, List.any_cons, List.any_nil, Bool.or_false, Bool.and_eq_true,
          decide_eq_true_eq]
        omega
    rw [hcons, ih, contains_cons, or_and_right]

/-- A number that is given back becomes free, whatever run it comes next to. -/
theorem Within.give {high low n : Nat} {free : FreeIds} (h : Within high low free)
    (hl : low ≤ n) (hh : n < high) (hn : ¬ contains free n = true) :
    Within high low (free.give n) ∧
      ∀ m, contains (free.give n) m = true ↔ contains free m = true ∨ m = n := by
  induction free generalizing low with
  | nil =>
    refine ⟨⟨hl, Nat.lt_succ_self n, hh⟩, fun m => ?_⟩
    simp only [FreeIds.give, contains, List.any_cons, List.any_nil, Bool.or_false,
      Bool.and_eq_true, decide_eq_true_eq, Bool.false_eq_true, false_or]
    omega
  | cons run rest ih =>
    obtain ⟨start, stop⟩ := run
    obtain ⟨hlow, hrun, hrest⟩ := h
    rw [contains_cons, not_or] at hn
    simp only [FreeIds.give]
    split
    · rename_i hlt
      refine ⟨⟨hl, Nat.lt_succ_self n, hlt, hrun, hrest⟩, fun m => ?_⟩
      rw [contains_cons, or_comm]
      refine or_congr Iff.rfl ?_
      omega
    · obtain ⟨hw, hc⟩ := ih hrest (by omega) hn.2
      refine ⟨⟨hlow, hrun, hw⟩, fun m => ?_⟩
      rw [contains_cons, contains_cons, hc m, or_assoc]

end FreeIds

namespace Entity

instance : Std.TransOrd Entity where
  eq_swap {a b} := show compare a.id b.id = (compare b.id a.id).swap from Std.OrientedCmp.eq_swap
  isLE_trans {a b c} := show (compare a.id b.id).isLE → (compare b.id c.id).isLE →
    (compare a.id c.id).isLE from Std.TransCmp.isLE_trans

/-- The number of an entity, if it is one. -/
theorem index_ofNat {n : Nat} (h : n < UInt32.size) : Entity.index ⟨UInt32.ofNat n⟩ = n :=
  UInt32.toNat_ofNat_of_lt h

end Entity

namespace Roster

/-- The free runs are what the live numbers leave of those below the counter. -/
structure Numbered (r : Roster) : Prop extends Tidy r where
  free : FreeIds.Within r.nextId 0 r.free
  alive_iff : ∀ e, r.isAlive e = true ↔ e.index < r.nextId ∧ ¬ r.free.contains e.index = true

theorem numbered_empty : Numbered {} :=
  ⟨tidy_empty, Nat.le_refl 0, fun e => by simp [isAlive, BitSet.contains]⟩

/-- A roster that brings a number to life is in order if its free runs leave out just that one. -/
theorem numbered_activate {r : Roster} {e : Entity} (ht : r.Tidy)
    (hf : FreeIds.Within r.nextId 0 r.free)
    (ha : ∀ e', e' = e ∨ r.isAlive e' = true ↔
      e'.index < r.nextId ∧ ¬ r.free.contains e'.index = true) : (r.activate e).Numbered where
  toTidy := ht.activate e
  free := by rwa [activate_free, activate_nextId]
  alive_iff e' := by rw [activate_free, activate_nextId, isAlive_activate, ha e']

theorem Numbered.create {r : Roster} (h : r.Numbered) (hb : r.create.2.nextId ≤ UInt32.size) :
    r.create.2.Numbered := by
  unfold Roster.create at hb ⊢
  cases ht : r.free.takeLowest? with
  | some taken =>
    obtain ⟨n, rest⟩ := taken
    obtain ⟨hw, hn, _, hrest⟩ := h.free.takeLowest ht
    simp only [ht, activate_nextId] at hb ⊢
    have hlt : n < r.nextId := (h.free.bounds hn).2
    have hindex : Entity.index ⟨UInt32.ofNat n⟩ = n :=
      Entity.index_ofNat (Nat.lt_of_lt_of_le hlt hb)
    refine numbered_activate (h.toTidy.moved _ _) hw fun e' => ?_
    have halive := h.alive_iff e'
    simp only at halive ⊢
    rw [← Entity.index_inj, hindex, hrest e'.index]
    change _ ∨ r.isAlive e' = true ↔ _
    rw [halive]
    constructor
    · rintro (rfl | ⟨hlt', hfree⟩)
      · exact ⟨hlt, fun hr => hr.2 rfl⟩
      · exact ⟨hlt', fun hr => hfree hr.1⟩
    · rintro ⟨hlt', hr⟩
      by_cases he : e'.index = n
      · exact .inl he
      · exact .inr ⟨hlt', fun hfree => hr ⟨hfree, he⟩⟩
  | none =>
    simp only [ht, activate_nextId] at hb ⊢
    have hindex : Entity.index ⟨UInt32.ofNat r.nextId⟩ = r.nextId :=
      Entity.index_ofNat (by omega)
    have hfree : r.free = [] := by
      cases hr : r.free with
      | nil => rfl
      | cons run rest => simp [hr, FreeIds.takeLowest?] at ht
    refine numbered_activate (h.toTidy.moved _ _) ?_ fun e' => ?_
    · change FreeIds.Within (r.nextId + 1) 0 r.free
      rw [hfree]
      exact Nat.zero_le _
    · have halive := h.alive_iff e'
      rw [← Entity.index_inj, hindex]
      change _ ∨ r.isAlive e' = true ↔ e'.index < r.nextId + 1 ∧ ¬ r.free.contains e'.index = true
      rw [halive, hfree]
      simp only [FreeIds.contains, List.any_nil, Bool.false_eq_true, not_false_eq_true, and_true]
      omega

theorem Numbered.createAt {r r' : Roster} {e : Entity} (h : r.Numbered)
    (hc : r.createAt e = .ok r') : r'.Numbered := by
  unfold Roster.createAt at hc
  split at hc
  · cases hc
  · split at hc
    · cases hc
    · split at hc
      · -- a new high number: what it skips becomes free
        rename_i hnext
        cases hc
        refine numbered_activate (h.toTidy.moved _ _) ?_ fun e' => ?_
        · have hgap : FreeIds.Within (e.index + 1) r.nextId
              (FreeIds.ofRun r.nextId e.index ++ []) :=
            FreeIds.Within.ofRun_append (Nat.le_succ _) (Nat.le_refl _) hnext
          rw [List.append_nil] at hgap
          exact h.free.append hgap
        · have halive := h.alive_iff e'
          rw [← Entity.index_inj, FreeIds.contains_append, FreeIds.contains_ofRun]
          change _ ∨ r.isAlive e' = true ↔ e'.index < e.index + 1 ∧ _
          rw [halive]
          by_cases hfree : FreeIds.contains r.free e'.index = true
          · have := h.free.bounds hfree
            simp only [hfree, not_true_eq_false, and_false, true_or, or_false, iff_false]
            omega
          · have hor : ∀ p : Prop, r.free.contains e'.index = true ∨ p ↔ p := fun p => by
              simp [hfree]
            rw [hor, and_iff_left hfree]
            omega
      · -- a number below the counter is taken out of its run
        rename_i hnext
        cases hc
        refine numbered_activate (h.toTidy.moved _ _) h.free.take fun e' => ?_
        have halive := h.alive_iff e'
        rw [← Entity.index_inj, FreeIds.contains_take]
        change _ ∨ r.isAlive e' = true ↔ e'.index < r.nextId ∧ _
        rw [halive]
        by_cases he : e'.index = e.index
        · simp only [he, true_or, ne_eq, not_true_eq_false, and_false, not_false_eq_true, and_true,
            true_iff]
          omega
        · simp [he]

theorem Numbered.release {r r' : Roster} {e : Entity} (h : r.Numbered)
    (hr : r.release e = .ok r') : r'.Numbered := by
  have htidy := h.toTidy.release hr
  have halive := isAlive_release hr
  obtain ⟨ha, rfl⟩ := release_ok hr
  obtain ⟨hlt, hfree⟩ := (h.alive_iff e).mp ha
  obtain ⟨hw, hc⟩ := h.free.give (Nat.zero_le _) hlt hfree
  refine ⟨htidy, hw, fun e' => ?_⟩
  rw [halive, h.alive_iff e', hc, not_or, ← Entity.index_inj.ne]
  tauto

theorem Numbered.setBit {r r' : Roster} {e : Entity} {id : ComponentId} {present : Bool}
    (h : r.Numbered) (hb : r.setBit e id present = .ok r') : r'.Numbered := by
  have htidy := h.toTidy.setBit hb
  have halive := isAlive_setBit hb
  obtain ⟨-, rfl⟩ := setBit_ok hb
  exact ⟨htidy, h.free, fun e' => by rw [halive]; exact h.alive_iff e'⟩

theorem nextId_le_create (r : Roster) : r.nextId ≤ r.create.2.nextId := by
  unfold Roster.create
  split <;> simp

theorem nextId_le_createAt {r r' : Roster} {e : Entity} (h : r.createAt e = .ok r') :
    r.nextId ≤ r'.nextId := by
  unfold Roster.createAt at h
  split at h
  · cases h
  · split at h
    · cases h
    · split at h
      · rename_i hnext
        cases h
        rw [activate_nextId]
        exact Nat.le_trans hnext (Nat.le_succ _)
      · cases h
        rw [activate_nextId]

/-- A number within the limit that nobody alive has can be asked for. -/
theorem createAt_of_dead {r : Roster} {e : Entity} (hl : e.id < limit)
    (ha : r.isAlive e = false) : ∃ r', r.createAt e = .ok r' := by
  have hlimit : ¬ limit ≤ e.id := UInt32.not_le.mpr hl
  have halive : ¬ r.isAlive e = true := Bool.eq_false_iff.mp ha
  unfold Roster.createAt
  rw [if_neg hlimit, if_neg halive]
  split <;> exact ⟨_, rfl⟩

theorem isAlive_createAt {r r' : Roster} {e : Entity} (h : r.createAt e = .ok r')
    (e' : Entity) : r'.isAlive e' = true ↔ e' = e ∨ r.isAlive e' = true := by
  obtain ⟨-, -, free, nextId, rfl⟩ := createAt_ok h
  exact isAlive_activate _ e e'

/-- A number that was asked for moves the counter no further than the limit. -/
theorem nextId_createAt_le {r r' : Roster} {e : Entity} (h : r.createAt e = .ok r')
    (hn : r.nextId ≤ limit.toNat) : r'.nextId ≤ limit.toNat := by
  unfold Roster.createAt at h
  split at h
  · cases h
  · rename_i hlimit
    have hlt : e.index < limit.toNat := UInt32.lt_iff_toNat_lt.mp (UInt32.not_le.mp hlimit)
    split at h
    · cases h
    · split at h
      · cases h
        rw [activate_nextId]
        exact hlt
      · cases h
        rw [activate_nextId]
        exact hn

theorem nextId_release {r r' : Roster} {e : Entity} (h : r.release e = .ok r') :
    r'.nextId = r.nextId := by
  obtain ⟨-, rfl⟩ := release_ok h
  rfl

theorem nextId_setBit {r r' : Roster} {e : Entity} {id : ComponentId} {present : Bool}
    (h : r.setBit e id present = .ok r') : r'.nextId = r.nextId := by
  obtain ⟨-, rfl⟩ := setBit_ok h
  rfl

theorem free_setBit {r r' : Roster} {e : Entity} {id : ComponentId} {present : Bool}
    (h : r.setBit e id present = .ok r') : r'.free = r.free := by
  obtain ⟨-, rfl⟩ := setBit_ok h
  rfl

/-- A number that can still be handed out: one that was given back, or a new one. -/
def Vacant (r : Roster) (n : Nat) : Prop := r.free.contains n = true ∨ r.nextId ≤ n

/-- Within the numbers of entities the vacant ones are those that nobody alive has. -/
theorem Numbered.vacant_iff {r : Roster} (h : r.Numbered) (hb : r.nextId ≤ UInt32.size)
    (n : Nat) : r.Vacant n ↔ ∀ e : Entity, e.index = n → r.isAlive e = false := by
  constructor
  · rintro hv e rfl
    rw [Bool.eq_false_iff]
    intro ha
    obtain ⟨hlt, hfree⟩ := (h.alive_iff e).mp ha
    rcases hv with hf | hn
    · exact hfree hf
    · omega
  · intro hdead
    by_cases hn : n < UInt32.size
    · have hindex := Entity.index_ofNat hn
      have ha := hdead _ hindex
      rw [Bool.eq_false_iff, ne_eq, h.alive_iff, hindex, not_and] at ha
      by_cases hf : r.free.contains n = true
      · exact .inl hf
      · exact .inr (Nat.le_of_not_lt fun hlt => ha hlt hf)
    · exact .inr (by omega)

/-- A new entity gets the lowest vacant number, and that number is vacant no more. -/
theorem create_lowest {r : Roster} (h : FreeIds.Within r.nextId 0 r.free) :
    ∃ n, r.create.1 = ⟨UInt32.ofNat n⟩ ∧ r.Vacant n ∧ (∀ m, r.Vacant m → n ≤ m) ∧
      FreeIds.Within r.create.2.nextId 0 r.create.2.free ∧
      ∀ m, r.create.2.Vacant m ↔ r.Vacant m ∧ m ≠ n := by
  unfold Roster.create
  cases ht : r.free.takeLowest? with
  | some taken =>
    obtain ⟨n, rest⟩ := taken
    obtain ⟨hw, hn, hleast, hrest⟩ := h.takeLowest ht
    have hlt := (h.bounds hn).2
    simp only [Vacant, activate_free, activate_nextId]
    refine ⟨n, rfl, .inl hn, ?_, hw, fun m => ?_⟩
    · rintro m (hm | hm)
      · exact hleast m hm
      · omega
    · rw [hrest, or_and_right]
      refine or_congr Iff.rfl ⟨fun hm => ⟨hm, by omega⟩, And.left⟩
  | none =>
    have hfree : r.free = [] := by
      cases hr : r.free with
      | nil => rfl
      | cons run rest => simp [hr, FreeIds.takeLowest?] at ht
    simp only [Vacant, activate_free, activate_nextId, hfree, FreeIds.contains, List.any_nil,
      Bool.false_eq_true, false_or]
    exact ⟨r.nextId, rfl, Nat.le_refl _, fun m hm => hm, Nat.zero_le _, fun m => by omega⟩

/-- Rosters with the same vacant numbers hand out the same numbers for ever. -/
theorem createMany_congr {r r' : Roster} (h : FreeIds.Within r.nextId 0 r.free)
    (h' : FreeIds.Within r'.nextId 0 r'.free) (hv : ∀ m, r.Vacant m ↔ r'.Vacant m) (n : Nat) :
    (r.createMany n).1 = (r'.createMany n).1 := by
  induction n generalizing r r' with
  | zero => rfl
  | succ n ih =>
    obtain ⟨k, hk, hvk, hleast, hw, hrest⟩ := create_lowest h
    obtain ⟨k', hk', hvk', hleast', hw', hrest'⟩ := create_lowest h'
    have heq : k = k' :=
      Nat.le_antisymm (hleast k' ((hv k').mpr hvk')) (hleast' k ((hv k).mp hvk))
    subst heq
    have htail := ih hw hw' fun m => by rw [hrest, hrest', hv]
    simp only [createMany, hk, hk', htail]

/-- Rosters in which the same entities are alive hand out the same numbers. -/
theorem Numbered.createMany_eq {r r' : Roster} (h : r.Numbered) (h' : r'.Numbered)
    (hb : r.nextId ≤ UInt32.size) (hb' : r'.nextId ≤ UInt32.size)
    (ha : ∀ e, r.isAlive e = r'.isAlive e) (n : Nat) :
    (r.createMany n).1 = (r'.createMany n).1 := by
  refine createMany_congr h.free h'.free (fun m => ?_) n
  simp only [h.vacant_iff hb, h'.vacant_iff hb', ha]

theorem Tidy.mem_alive {r : Roster} (h : r.Tidy) {e : Entity} :
    e ∈ r.alive ↔ r.isAlive e = true := by
  rw [isAlive_iff, alive, List.mem_map]
  constructor
  · rintro ⟨n, hn, rfl⟩
    rwa [Entity.index_ofNat (h.bounded n hn)]
  · intro he
    exact ⟨e.index, he, congrArg Entity.mk UInt32.ofNat_toNat⟩

theorem Tidy.alive_ascending {r : Roster} (h : r.Tidy) :
    r.alive.Pairwise fun a b => compare a b = .lt := by
  rw [alive, List.pairwise_map]
  refine h.ascending.imp_of_mem fun {m n} hm hn hmn => ?_
  change compare (UInt32.ofNat m) (UInt32.ofNat n) = .lt
  rw [Std.compare_eq_lt, UInt32.lt_iff_toNat_lt]
  have hsame : ∀ k ∈ r.live, (UInt32.ofNat k).toNat = k := fun k hk =>
    UInt32.toNat_ofNat_of_lt (h.bounded k hk)
  rwa [hsame m hm, hsame n hn]

/-- The live entities are listed by number, so the list tells nothing but who is alive. -/
theorem Tidy.alive_eq {r : Roster} (h : r.Tidy) {l : List Entity}
    (hl : l.Pairwise fun a b => compare a b = .lt) (hm : ∀ e, r.isAlive e = true ↔ e ∈ l) :
    r.alive = l :=
  Table.eq_of_ascending (f := id) h.alive_ascending hl fun e => h.mem_alive.trans (hm e)

end Roster
end SceneScript
