import SceneScript.Proofs.Entity.Generations
import SceneScript.Proofs.Scene.Persisted

/-! # References through snapshots

A document keeps a reference with its generation, and a snapshot keeps no generations. The numbers
of a rebuilt scene begin with the first one, so a reference says there what it said before exactly
when its entity had the first generation or when the reference had neither its generation nor the
first one.
-/
namespace SceneScript

namespace Roster

/-- No number has been given up yet. -/
def Fresh (r : Roster) : Prop :=
  ∀ e g, r.generation? e = some g → g = Generation.first

theorem fresh_empty : Fresh {} := by
  intro e g hg
  simp [generation?] at hg

theorem Fresh.moved {r : Roster} (h : r.Fresh) (free : FreeIds) (nextId : Nat) :
    (r.moved free nextId).Fresh := h

/-- A place that is made for a number has the first generation. -/
theorem Fresh.activate {r : Roster} (h : r.Fresh) (e : Entity) : (r.activate e).Fresh := by
  intro e' g hg
  cases hold : r.generation? e' with
  | some g' =>
    have hkept := generation?_activate hold e
    rw [hg] at hkept
    cases hkept
    exact h e' g hold
  | none =>
    change (r.grow e.index).generations[e'.index]? = some g at hg
    unfold grow at hg
    split at hg
    · exact h e' g hg
    · rw [getElem?_resize] at hg
      split at hg
      · rw [generation?] at hold
        rw [hold] at hg
        exact (Option.some.inj hg).symm
      · cases hg

theorem Fresh.create {r : Roster} (h : r.Fresh) : r.create.2.Fresh := by
  obtain ⟨free, nextId, hr⟩ := r.create_eq
  rw [hr]
  exact (h.moved free nextId).activate _

theorem Fresh.createAt {r r' : Roster} {e : Entity} (h : r.Fresh) (hc : r.createAt e = .ok r') :
    r'.Fresh := by
  obtain ⟨-, -, free, nextId, rfl⟩ := createAt_ok hc
  exact (h.moved free nextId).activate e

theorem Fresh.setBit {r r' : Roster} {e : Entity} {id : ComponentId} {present : Bool}
    (h : r.Fresh) (hb : r.setBit e id present = .ok r') : r'.Fresh := by
  intro e' g hg
  rw [generation?_setBit hb] at hg
  exact h e' g hg

/-- The reference of a live entity of a fresh roster has the first generation. -/
theorem Fresh.ref?_eq {r : Roster} (h : r.Fresh) (ht : r.Tidy) {e : Entity}
    (ha : r.isAlive e = true) : r.ref? e = some ⟨e, Generation.first⟩ := by
  obtain ⟨generation, hr⟩ := ht.exists_ref? ha
  have hfirst : generation = Generation.first := h e _ (ref?_eq_some.mp hr).2.2
  rw [hr, hfirst]

/-- A reference resolves alike in a roster and in a fresh one with the same live entities, exactly
when it is told apart from the first generation as from the one that its entity has. -/
theorem Fresh.resolve?_eq_iff {r r' : Roster} (h : r'.Fresh) (ht : r.Tidy) (ht' : r'.Tidy)
    (ha : ∀ e, r'.isAlive e = r.isAlive e) (hempty : r.isAlive ⟨EntityRef.emptyId⟩ = false)
    (ref : EntityRef) :
    r'.resolve? ref.canonical = r.resolve? ref ↔
      ∀ current, r.ref? ref.entity = some current →
        (ref.generation = current.generation ↔ ref.generation = Generation.first) := by
  cases he : ref.entity? with
  | none =>
    -- the empty reference resolves nowhere, and nobody alive has its number
    have hid : ref.entity.id = EntityRef.emptyId := by
      simpa [EntityRef.isEmpty] using EntityRef.entity?_eq_none.mp he
    have hentity : ref.entity = ⟨EntityRef.emptyId⟩ := congrArg Entity.mk hid
    have hcanonical : ref.canonical.entity? = none := (EntityRef.entity?_canonical ref).trans he
    rw [resolve?_eq_none hcanonical, resolve?_eq_none he, hentity, ref?_eq_none hempty]
    simp
  | some e =>
    obtain ⟨_, rfl⟩ := EntityRef.entity?_eq_some.mp he
    rw [EntityRef.canonical_of_entity? he, resolve?_eq he, resolve?_eq he]
    cases halive : r.isAlive ref.entity with
    | false =>
      rw [ref?_eq_none halive, ref?_eq_none ((ha _).trans halive)]
      simp
    | true =>
      obtain ⟨generation, hg⟩ := ht.exists_ref? halive
      rw [h.ref?_eq ht' ((ha _).trans halive), hg]
      obtain ⟨entity, own⟩ := ref
      simp only [Option.some.injEq, EntityRef.mk.injEq, true_and, eq_comm, forall_eq]
      by_cases hcurrent : own = generation <;> by_cases hfirst : own = Generation.first <;>
        simp [hcurrent, hfirst]

end Roster

namespace Scene

theorem Step.fresh {s s' : Scene} {h : List Change} (hs : Step s h s')
    (hd : ∀ e, Change.destroyed e ∉ h) (hf : s.roster.Fresh) : s'.roster.Fresh := by
  cases hs with
  | created => exact hf.create
  | placed hc => exact hf.createAt hc
  | @destroyed e _ _ => exact absurd (List.mem_singleton.mpr rfl) (hd e)
  | marked hb => exact hf.setBit hb
  | scripted path => rwa [addScript_roster]
  | declared _ | wrote _ | removed _ | registered _ _ => exact hf

/-- Nothing is given up along a run that destroys nothing. -/
theorem Steps.fresh {s s' : Scene} {h : List Change} (hs : Steps s h s')
    (hd : ∀ e, Change.destroyed e ∉ h) (hf : s.roster.Fresh) : s'.roster.Fresh := by
  induction hs with
  | nil => exact hf
  | cons hone _ ih =>
    refine ih (fun e hm => hd e (List.mem_append_right _ hm)) ?_
    exact hone.fresh (fun e hm => hd e (List.mem_append_left _ hm)) hf

theorem restore_fresh (index : Index) (snapshot : Snapshot) :
    (restore index snapshot).state.roster.Fresh := by
  obtain ⟨h, hd, hs⟩ := restore_steps index snapshot
  exact hs.fresh hd Roster.fresh_empty

/-- Every reference that a value of a live entity holds is held by the rebuilt value as well, in its
canonical form. It resolves there as it did before exactly when its entity is not alive, has the
first generation, or has a later one while the reference has neither. -/
theorem restore_links {s₀ s : Scene} {h : List Change} {index : Index} (hi : Initial s₀)
    (hr : Run s₀ h s) (hp : s.Persistable index) {e : Entity} (he : s.roster.isAlive e = true)
    {name : String} {v : Value} (hv : s.value? e name = .ok (some v)) :
    ∃ v', (restore index s.snapshot).state.value? e name = .ok (some v') ∧
      v'.refs = v.refs.map EntityRef.canonical ∧
      ∀ ref ∈ v.refs,
        ((restore index s.snapshot).state.roster.resolve? ref.canonical = s.roster.resolve? ref ↔
          ∀ current, s.roster.ref? ref.entity = some current →
            (ref.generation = current.generation ↔ ref.generation = Generation.first)) := by
  obtain ⟨origin, h', hm⟩ := hr.steps_new hi
  have hnumbered := hm.numbered Roster.numbered_empty hp.counter
  obtain ⟨hrestored, _, halive⟩ := hp.roster_restore hm
  have hnamed := hp.named?_restore hm (hnumbered.mem_alive.mpr he) name
  rw [value?_eq_some.mp hv, Option.map_some] at hnamed
  have hempty : s.roster.isAlive ⟨EntityRef.emptyId⟩ = false := by
    rw [Bool.eq_false_iff]
    intro ha
    exact absurd (hp.limit _ (hnumbered.mem_alive.mpr ha)) (by decide)
  exact ⟨v.canonical, value?_eq_some.mpr hnamed, v.refs_canonical, fun ref _ =>
    (restore_fresh index s.snapshot).resolve?_eq_iff hnumbered.toTidy hrestored.toTidy halive
      hempty ref⟩

/-- An index with a component that refers to an entity. -/
def linkIndex : Index :=
  { Index.initial with components := [.tag, .transform, .ofShape "Link" (.basic .entity)] }

/-- A live reference to an entity whose number was used before. -/
def liveLink : EntityRef := ⟨⟨0⟩, ⟨1⟩⟩

/-- A reference to the entity that had the number before. -/
def staleLink : EntityRef := ⟨⟨0⟩, ⟨0⟩⟩

/-- A reference to an entity whose number was never given up. -/
def steadyLink : EntityRef := ⟨⟨1⟩, ⟨0⟩⟩

/-- Three entities with a reference each, the first of them on a number that was used before. -/
def village : Scene where
  name := "village"
  roster := ⟨#[⟨1⟩, ⟨0⟩, ⟨0⟩], [0, 1, 2], #[[0], [0], [0]], [], 3, 3⟩
  store := ⟨[("Link", ⟨0⟩)], [⟨.ofShape "Link" (.basic .entity), ⟨.basic .entity, .table
    [(⟨0⟩, .entity staleLink), (⟨1⟩, .entity liveLink), (⟨2⟩, .entity steadyLink)]⟩⟩]⟩

theorem village_reached : ∃ h, Run { name := "village" } h village := by
  have h₀ : Run { name := "village" } [] _ := .start
  have h₁ := h₀.succeeded (.registerComponent linkIndex "Link") (x := ⟨0⟩) rfl
  have h₂ := h₁.succeeded .create (x := ⟨0⟩) rfl
  have h₃ := h₂.succeeded .create (x := ⟨1⟩) rfl
  have h₄ := h₃.succeeded .create (x := ⟨2⟩) rfl
  have h₅ := h₄.succeeded (.destroy ⟨0⟩) (x := ()) rfl
  have h₆ := h₅.succeeded .create (x := ⟨0⟩) rfl
  have h₇ := h₆.succeeded (.add ⟨0⟩ "Link" (.entity staleLink)) (x := ()) rfl
  have h₈ := h₇.succeeded (.add ⟨1⟩ "Link" (.entity liveLink)) (x := ()) rfl
  exact ⟨_, h₈.succeeded (.add ⟨2⟩ "Link" (.entity steadyLink)) (x := ()) rfl⟩

theorem village_persistable : village.Persistable linkIndex := by
  have hvalue : ∀ e, ∀ c ∈ village.store.components, ∀ v ∈ c.array.get? e,
      ∃ ref, v = .entity ref := fun e c hc v hv => by
    cases List.mem_singleton.mp hc
    have hm := Table.mem_of_find? hv
    simp only [List.mem_cons, Prod.mk.injEq, List.not_mem_nil, or_false] at hm
    rcases hm with ⟨_, rfl⟩ | ⟨_, rfl⟩ | ⟨_, rfl⟩ <;> exact ⟨_, rfl⟩
  refine ⟨fun d hd => ?_, fun system hs => ?_, fun e he c hc v hv => ?_, fun e he c hc v hv => ?_,
    by decide, by decide⟩
  · cases List.mem_singleton.mp hd
    exact ⟨rfl, trivial⟩
  · cases hs
  · obtain ⟨ref, rfl⟩ := hvalue e c hc v hv
    trivial
  · obtain ⟨ref, rfl⟩ := hvalue e c hc v hv
    simp [Value.floats]

/-- The reference to a number that was never given up keeps its meaning. -/
theorem village_steady :
    ∃ h, Run { name := "village" } h village ∧ village.Persistable linkIndex ∧
      village.value? ⟨2⟩ "Link" = .ok (some (.entity steadyLink)) ∧
      ∃ v', (restore linkIndex village.snapshot).state.value? ⟨2⟩ "Link" = .ok (some v') ∧
        v'.refs = [steadyLink] ∧
        (restore linkIndex village.snapshot).state.roster.resolve? steadyLink =
          village.roster.resolve? steadyLink := by
  obtain ⟨h, hr⟩ := village_reached
  have he : village.roster.isAlive ⟨2⟩ = true := rfl
  have hv : village.value? ⟨2⟩ "Link" = .ok (some (.entity steadyLink)) := rfl
  obtain ⟨v', hv', hrefs, hlinks⟩ := restore_links (.new "village") hr village_persistable he hv
  have hsame := (hlinks steadyLink (List.mem_singleton.mpr rfl)).mpr fun current hcurrent => by
    cases hcurrent
    exact Iff.rfl
  exact ⟨h, hr, village_persistable, hv, v', hv', hrefs, hsame⟩

/-- The live reference is lost, and the stale one finds the entity that has the number now. -/
theorem village_changed :
    (∃ h, Run { name := "village" } h village) ∧ village.Persistable linkIndex ∧
      (restore linkIndex village.snapshot).result = .ok () ∧
      (restore linkIndex village.snapshot).state.value? ⟨1⟩ "Link" =
        .ok (some (.entity liveLink)) ∧
      village.roster.resolve? liveLink = some ⟨0⟩ ∧
      (restore linkIndex village.snapshot).state.roster.resolve? liveLink = none ∧
      (restore linkIndex village.snapshot).state.value? ⟨0⟩ "Link" =
        .ok (some (.entity staleLink)) ∧
      village.roster.resolve? staleLink = none ∧
      (restore linkIndex village.snapshot).state.roster.resolve? staleLink = some ⟨0⟩ := by
  obtain ⟨h, hr⟩ := village_reached
  obtain ⟨origin, h', hm⟩ := hr.steps_new (.new "village")
  have hp := village_persistable
  obtain ⟨hok, _⟩ := restore_ok (hp.snapshot_readable hm)
  obtain ⟨hrestored, _, halive⟩ := hp.roster_restore hm
  have hlive := hp.named?_restore hm (e := ⟨1⟩) (by decide) "Link"
  have hstale := hp.named?_restore hm (e := ⟨0⟩) (by decide) "Link"
  have hcurrent := (restore_fresh linkIndex village.snapshot).ref?_eq hrestored.toTidy
    ((halive ⟨0⟩).trans rfl)
  have hlost : (restore linkIndex village.snapshot).state.roster.resolve? liveLink = none := by
    rw [Roster.resolve?_eq (e := ⟨0⟩) rfl, hcurrent]
    rfl
  have hfound : (restore linkIndex village.snapshot).state.roster.resolve? staleLink =
      some ⟨0⟩ := by
    rw [Roster.resolve?_eq (e := ⟨0⟩) rfl, hcurrent]
    rfl
  exact ⟨⟨h, hr⟩, hp, hok, value?_eq_some.mpr hlive, rfl, hlost, value?_eq_some.mpr hstale, rfl,
    hfound⟩

end Scene
end SceneScript
