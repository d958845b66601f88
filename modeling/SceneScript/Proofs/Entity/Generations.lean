import Mathlib.Algebra.Group.Nat.Defs
import SceneScript.Proofs.Entity.Numbers
import SceneScript.Proofs.Value.Contents

/-! # Generations along a run

A number never forgets how often it was given up: bringing it to life keeps its generation, and
giving it up moves it to the next one. So a reference tells its own occupant apart from every later
one, until the number has been given up as often as there are generations.
-/
namespace SceneScript

namespace Generation

/-- The generation of a number that was given up a number of times more. -/
def after (g : Generation) (n : Nat) : Generation := ⟨g.value + UInt32.ofNat n⟩

@[simp] theorem after_zero (g : Generation) : g.after 0 = g := by
  simp [after]

theorem after_succ (g : Generation) (n : Nat) : g.after (n + 1) = g.next.after n := by
  have hn : UInt32.ofNat (n + 1) = 1 + UInt32.ofNat n := by
    rw [UInt32.ofNat_add, UInt32.add_comm]
    rfl
  simp only [after, next, hn, UInt32.add_assoc]

/-- A generation comes back only after as many steps as there are generations. -/
theorem after_eq_self {g : Generation} {n : Nat} (hn : n < 2 ^ 32) : g.after n = g ↔ n = 0 := by
  constructor
  · intro h
    have hzero : UInt32.ofNat n = 0 := by
      have hvalue : g.value + UInt32.ofNat n = g.value := congrArg Generation.value h
      exact UInt32.add_eq_left.mp hvalue
    have hnat : (UInt32.ofNat n).toNat = n := UInt32.toNat_ofNat_of_lt hn
    rw [← hnat, hzero]
    rfl
  · rintro rfl
    exact g.after_zero

end Generation

namespace Roster

/-! ### References of live entities -/

/-- The reference of an entity names it and has the generation of its place. -/
theorem ref?_eq_some {r : Roster} {e : Entity} {ref : EntityRef} :
    r.ref? e = some ref ↔
      r.isAlive e = true ∧ ref.entity = e ∧ r.generation? e = some ref.generation := by
  obtain ⟨entity, generation⟩ := ref
  unfold ref?
  split
  · simp [*, and_comm, eq_comm]
  · simp [*]

/-- A live entity has a reference. -/
theorem Tidy.exists_ref? {r : Roster} (h : r.Tidy) {e : Entity} (ha : r.isAlive e = true) :
    ∃ generation, r.ref? e = some ⟨e, generation⟩ := by
  have hlt := h.held _ (isAlive_iff.mp ha)
  exact ⟨r.generations[e.index], ref?_eq_some.mpr ⟨ha, rfl, Array.getElem?_eq_getElem hlt⟩⟩

theorem ref?_eq_none {r : Roster} {e : Entity} (h : r.isAlive e = false) : r.ref? e = none :=
  if_neg (Bool.eq_false_iff.mp h)

/-- A reference resolves when it is the one that its entity has now. -/
theorem resolve?_eq {r : Roster} {ref : EntityRef} {e : Entity} (he : ref.entity? = some e) :
    r.resolve? ref = if r.ref? e = some ref then some e else none := by
  have hentity := (EntityRef.entity?_eq_some.mp he).2
  simp only [resolve?, he, ref?_eq_some, hentity, true_and]

theorem resolve?_eq_none {r : Roster} {ref : EntityRef} (he : ref.entity? = none) :
    r.resolve? ref = none := by
  simp only [resolve?, he]

theorem ref?_of_resolve? {r : Roster} {ref : EntityRef} {e : Entity}
    (h : r.resolve? ref = some e) : r.ref? e = some ref := by
  cases he : ref.entity? with
  | none => simp [resolve?_eq_none he] at h
  | some named =>
    rw [resolve?_eq he] at h
    split at h
    · cases h
      assumption
    · cases h

/-- A reference that resolves resolves to the entity that it names. -/
theorem entity_of_resolve? {r : Roster} {ref : EntityRef} {e : Entity}
    (h : r.resolve? ref = some e) : ref.entity = e :=
  (ref?_eq_some.mp (ref?_of_resolve? h)).2.1

theorem isAlive_of_resolve? {r : Roster} {ref : EntityRef} {e : Entity}
    (h : r.resolve? ref = some e) : r.isAlive e = true :=
  (ref?_eq_some.mp (ref?_of_resolve? h)).1

/-! ### What the operations do to generations -/

section
variable {r r' : Roster} {e e' : Entity} {g : Generation}

/-- Bringing a number to life resets no generation. -/
theorem generation?_activate (h : r.generation? e' = some g) (e : Entity) :
    (r.activate e).generation? e' = some g := generation?_grow h e.index

theorem generation?_create (h : r.generation? e = some g) : r.create.2.generation? e = some g := by
  obtain ⟨free, nextId, hr⟩ := r.create_eq
  rw [hr]
  exact generation?_activate (r := r.moved free nextId) h _

theorem generation?_createAt (hc : r.createAt e' = .ok r') (h : r.generation? e = some g) :
    r'.generation? e = some g := by
  obtain ⟨-, -, free, nextId, rfl⟩ := createAt_ok hc
  exact generation?_activate (r := r.moved free nextId) h e'

theorem generation?_release (h : r.release e = .ok r') (e' : Entity) :
    r'.generation? e' =
      if e' = e then (r.generation? e').map Generation.next else r.generation? e' := by
  obtain ⟨-, rfl⟩ := release_ok h
  by_cases he : e' = e
  · rw [if_pos he, generation?, generation?, Array.getElem?_modify, if_pos (congrArg _ he.symm)]
  · have hne : ¬e.index = e'.index := fun hi => he (Entity.index_inj.mp hi).symm
    rw [if_neg he, generation?, generation?, Array.getElem?_modify, if_neg hne]

theorem generation?_setBit {id : ComponentId} {present : Bool}
    (h : r.setBit e id present = .ok r') (e' : Entity) : r'.generation? e' = r.generation? e' := by
  obtain ⟨-, rfl⟩ := setBit_ok h
  rfl

theorem isAlive_create (h : r.isAlive e = true) : r.create.2.isAlive e = true := by
  obtain ⟨free, nextId, hr⟩ := r.create_eq
  rw [hr, isAlive_activate]
  exact .inr h

end

/-! ### Runs -/

/-- A call of the roster. -/
inductive Request where
  | create
  | createAt (e : Entity)
  | destroy (e : Entity)
  | setBit (e : Entity) (id : ComponentId) (present : Bool)
  deriving DecidableEq

/-- The roster after a call. One that fails leaves it as it was. -/
def perform (r : Roster) : Request → Roster
  | .create => r.create.2
  | .createAt e => (r.createAt e).toOption.getD r
  | .destroy e => (destroy e r).state
  | .setBit e id present => (r.setBit e id present).toOption.getD r

def performAll (r : Roster) (requests : List Request) : Roster := requests.foldl perform r

/-- How often an entity is destroyed in a run. A call for an entity that is not alive does not
count. -/
def destructions (e : Entity) : Roster → List Request → Nat
  | _, [] => 0
  | r, q :: rest =>
    (if q = .destroy e ∧ r.isAlive e = true then 1 else 0) + destructions e (r.perform q) rest

theorem perform_destroy (r : Roster) (e : Entity) :
    r.perform (.destroy e) = (r.release e).toOption.getD r := by
  simp only [perform, destroy]
  cases r.release e <;> rfl

/-- What a call does to the generation of a number. -/
theorem generation?_perform {r : Roster} {e : Entity} {g : Generation}
    (h : r.generation? e = some g) (q : Request) :
    (r.perform q).generation? e =
      some (g.after (if q = .destroy e ∧ r.isAlive e = true then 1 else 0)) := by
  cases q with
  | create => simpa [perform] using generation?_create h
  | createAt e' =>
    cases hc : r.createAt e' with
    | error err => simpa [perform, hc, Except.toOption] using h
    | ok r' => simpa [perform, hc, Except.toOption] using generation?_createAt hc h
  | setBit e' id present =>
    cases hb : r.setBit e' id present with
    | error err => simpa [perform, hb, Except.toOption] using h
    | ok r' => simpa [perform, hb, Except.toOption] using (generation?_setBit hb e).trans h
  | destroy e' =>
    rw [perform_destroy]
    cases ha : r.isAlive e' with
    | false =>
      have hnot : ¬ (Request.destroy e' = .destroy e ∧ r.isAlive e = true) := by
        rintro ⟨heq, halive⟩
        cases heq
        rw [ha] at halive
        cases halive
      rw [release_of_dead ha, if_neg hnot, Generation.after_zero]
      exact h
    | true =>
      obtain ⟨r', hr⟩ := release_of_isAlive ha
      rw [hr]
      change r'.generation? e = _
      rw [generation?_release hr, h]
      by_cases he : e = e'
      · subst he
        rw [if_pos rfl, if_pos ⟨rfl, ha⟩, Generation.after_succ, Generation.after_zero]
        rfl
      · have hnot : ¬ (Request.destroy e' = .destroy e ∧ r.isAlive e = true) := by
          rintro ⟨heq, _⟩
          cases heq
          exact he rfl
        rw [if_neg he, if_neg hnot, Generation.after_zero]

/-- An entity lives on through every call that does not destroy it. -/
theorem isAlive_perform {r : Roster} {e : Entity} (h : r.isAlive e = true) {q : Request}
    (hq : q ≠ .destroy e) : (r.perform q).isAlive e = true := by
  cases q with
  | create => exact isAlive_create h
  | createAt e' =>
    cases hc : r.createAt e' with
    | error err => simpa [perform, hc, Except.toOption] using h
    | ok r' =>
      simpa [perform, hc, Except.toOption] using (isAlive_createAt hc e).mpr (.inr h)
  | setBit e' id present =>
    cases hb : r.setBit e' id present with
    | error err => simpa [perform, hb, Except.toOption] using h
    | ok r' => simpa [perform, hb, Except.toOption] using (isAlive_setBit hb e).trans h
  | destroy e' =>
    rw [perform_destroy]
    cases hr : r.release e' with
    | error err => exact h
    | ok r' =>
      have hne : e ≠ e' := by
        rintro rfl
        exact hq rfl
      exact (isAlive_release hr e).mpr ⟨hne, h⟩

/-- Along a run a generation counts the destructions of its number. -/
theorem generation?_performAll {r : Roster} {e : Entity} {g : Generation}
    (h : r.generation? e = some g) (requests : List Request) :
    (r.performAll requests).generation? e = some (g.after (destructions e r requests)) := by
  induction requests generalizing r g with
  | nil => simpa [performAll, destructions] using h
  | cons q rest ih =>
    have hrest := ih (generation?_perform h q)
    simp only [performAll, List.foldl_cons] at hrest ⊢
    rw [hrest, destructions]
    split
    · rw [Nat.add_comm, Generation.after_succ, Generation.after_succ, Generation.after_zero]
    · rw [Nat.zero_add, Generation.after_zero]

theorem isAlive_performAll {r : Roster} {e : Entity} (h : r.isAlive e = true)
    {requests : List Request} (hd : destructions e r requests = 0) :
    (r.performAll requests).isAlive e = true := by
  induction requests generalizing r with
  | nil => exact h
  | cons q rest ih =>
    obtain ⟨hone, hrest⟩ := Nat.add_eq_zero_iff.mp hd
    have hq : q ≠ .destroy e := by
      rintro rfl
      simp [h] at hone
    exact ih (isAlive_perform h hq) hrest

theorem nextId_le_perform (r : Roster) (q : Request) : r.nextId ≤ (r.perform q).nextId := by
  cases q with
  | create => exact nextId_le_create r
  | createAt e =>
    cases hc : r.createAt e with
    | error err => simp [perform, hc, Except.toOption]
    | ok r' => simpa [perform, hc, Except.toOption] using nextId_le_createAt hc
  | setBit e id present =>
    cases hb : r.setBit e id present with
    | error err => simp [perform, hb, Except.toOption]
    | ok r' => simp [perform, hb, Except.toOption, nextId_setBit hb]
  | destroy e =>
    rw [perform_destroy]
    cases hr : r.release e with
    | error err => exact Nat.le_refl _
    | ok r' => exact Nat.le_of_eq (nextId_release hr).symm

theorem nextId_le_performAll (r : Roster) (requests : List Request) :
    r.nextId ≤ (r.performAll requests).nextId := by
  induction requests generalizing r with
  | nil => exact Nat.le_refl _
  | cons q rest ih => exact Nat.le_trans (r.nextId_le_perform q) (ih (r.perform q))

theorem Numbered.perform {r : Roster} (h : r.Numbered) {q : Request}
    (hb : (r.perform q).nextId ≤ UInt32.size) : (r.perform q).Numbered := by
  cases q with
  | create => exact h.create hb
  | createAt e =>
    cases hc : r.createAt e with
    | error err => simpa [Roster.perform, hc, Except.toOption] using h
    | ok r' => simpa [Roster.perform, hc, Except.toOption] using h.createAt hc
  | setBit e id present =>
    cases hs : r.setBit e id present with
    | error err => simpa [Roster.perform, hs, Except.toOption] using h
    | ok r' => simpa [Roster.perform, hs, Except.toOption] using h.setBit hs
  | destroy e =>
    rw [perform_destroy]
    cases hr : r.release e with
    | error err => exact h
    | ok r' => exact h.release hr

theorem Numbered.performAll {r : Roster} (h : r.Numbered) {requests : List Request}
    (hb : (r.performAll requests).nextId ≤ UInt32.size) : (r.performAll requests).Numbered := by
  induction requests generalizing r with
  | nil => exact h
  | cons q rest ih =>
    have hone := h.perform (Nat.le_trans (nextId_le_performAll (r.perform q) rest) hb)
    exact ih hone hb

/-- Nobody alive has the number of the empty reference, as long as the counter has not passed it. -/
theorem Numbered.ref?_ne_empty {r : Roster} (h : r.Numbered) (hb : r.nextId < UInt32.size)
    {e : Entity} {ref : EntityRef} (hr : r.ref? e = some ref) : ref.isEmpty = false := by
  obtain ⟨halive, rfl, _⟩ := ref?_eq_some.mp hr
  have hlt := ((h.alive_iff ref.entity).mp halive).1
  rw [EntityRef.isEmpty, beq_eq_false_iff_ne]
  intro hid
  have hindex : ref.entity.index = 4294967295 := congrArg UInt32.toNat hid
  have hsize : UInt32.size = 4294967296 := rfl
  omega

/-- A reference that was taken at some point of a run resolves ever after to its entity, as long as
this has not been destroyed since, and to nothing once it has, however often its number was
destroyed and brought to life again, unless the number was given up as often as there are
generations. The one reference that never resolves has the number that marks the empty one, and
nobody gets that number before all others are used up. To another entity a reference never
resolves. -/
theorem resolve?_performAll {before : List Request} {e : Entity} {ref : EntityRef}
    (htaken : (performAll {} before).ref? e = some ref) (later : List Request) :
    let since := destructions e (performAll {} before) later
    let now := performAll {} (before ++ later)
    (since < 2 ^ 32 → ref.isEmpty = false →
      now.resolve? ref = if since = 0 then some e else none) ∧
    ((performAll {} before).nextId < UInt32.size → ref.isEmpty = false) ∧
    ∀ e', now.resolve? ref = some e' → e' = e := by
  intro since now
  obtain ⟨halive, rfl, hgeneration⟩ := ref?_eq_some.mp htaken
  have hnow : now = (performAll {} before).performAll later := List.foldl_append
  have hsince : now.generation? ref.entity = some (ref.generation.after since) := by
    rw [hnow]
    exact generation?_performAll hgeneration later
  refine ⟨fun hlt hempty => ?_, fun hb => ?_, fun e' he' => (entity_of_resolve? he').symm⟩
  · have hentity : ref.entity? = some ref.entity := EntityRef.entity?_eq_some.mpr ⟨hempty, rfl⟩
    rw [resolve?_eq hentity]
    refine if_congr ?_ rfl rfl
    rw [ref?_eq_some, hsince, Option.some.injEq, Generation.after_eq_self hlt]
    constructor
    · rintro ⟨_, _, hzero⟩
      exact hzero
    · intro hzero
      refine ⟨?_, rfl, hzero⟩
      rw [hnow]
      exact isAlive_performAll halive hzero
  · exact (numbered_empty.performAll (Nat.le_of_lt hb)).ref?_ne_empty hb htaken

/-- An entity that is destroyed and brought to life again under its number, once by being asked for
and once as the lowest free number, while another one lives through all of it. -/
theorem resolve?_recycled :
    let before : List Request := [.create, .createAt ⟨3⟩]
    let later : List Request := [.setBit ⟨3⟩ ⟨0⟩ true, .destroy ⟨0⟩, .destroy ⟨0⟩, .createAt ⟨0⟩,
      .destroy ⟨0⟩, .create]
    (performAll {} (before ++ later)).isAlive ⟨0⟩ = true ∧
      destructions ⟨0⟩ (performAll {} before) later = 2 ∧
      (performAll {} (before ++ later)).resolve? ⟨⟨0⟩, ⟨0⟩⟩ = none ∧
      (performAll {} (before ++ later)).resolve? ⟨⟨3⟩, ⟨0⟩⟩ = some ⟨3⟩ := by
  intro before later
  have hdestroyed : destructions ⟨0⟩ (performAll {} before) later = 2 := by decide
  have hkept : destructions ⟨3⟩ (performAll {} before) later = 0 := by decide
  have hfirst := (@resolve?_performAll before ⟨0⟩ ⟨⟨0⟩, ⟨0⟩⟩ rfl later).1
    (by rw [hdestroyed]; decide) rfl
  have hother := (@resolve?_performAll before ⟨3⟩ ⟨⟨3⟩, ⟨0⟩⟩ rfl later).1
    (by rw [hkept]; decide) rfl
  rw [hdestroyed] at hfirst
  rw [hkept] at hother
  exact ⟨by decide, hdestroyed, hfirst, hother⟩

end Roster
end SceneScript
