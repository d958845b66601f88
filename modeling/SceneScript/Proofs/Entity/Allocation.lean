import SceneScript.Proofs.Entity.Generations

/-! # Numbers are handed out without loss or duplication

A roster keeps who is alive, which numbers are free, how far the numbers have gone and how many
entities there are, each for itself. Along every run the four agree: up to the counter every number
is either alive or free, and the count is the number of the live ones. From this follows which calls
are refused, and what the others change.
-/
namespace SceneScript.Roster

/-! ### Coming to life -/

/-- An entity was brought to life, without components, and nothing changed for anybody else. -/
structure Born (r r' : Roster) (e : Entity) : Prop where
  dead : r.isAlive e = false
  isAlive_iff : ∀ e', r'.isAlive e' = true ↔ e' = e ∨ r.isAlive e' = true
  signature? : ∀ e', r'.signature? e' = if e' = e then some [] else r.signature? e'

theorem Tidy.born_activate {r : Roster} (h : r.Tidy) {e : Entity} (ha : r.isAlive e = false)
    (free : FreeIds) (nextId : Nat) : Born r ((r.moved free nextId).activate e) e where
  dead := ha
  isAlive_iff e' := isAlive_activate (r.moved free nextId) e e'
  signature? e' := by
    have hnone : (r.moved free nextId).signature? e = none := if_neg (Bool.eq_false_iff.mp ha)
    rw [(h.moved free nextId).signature?_activate, hnone]
    rfl

/-- A new entity has the lowest number that nobody alive has. -/
theorem Numbered.create_least {r : Roster} (h : r.Numbered) (hb : r.nextId < UInt32.size) :
    r.isAlive r.create.1 = false ∧ ∀ e, r.isAlive e = false → r.create.1.index ≤ e.index := by
  obtain ⟨n, hn, hvacant, hleast, -, -⟩ := create_lowest h.free
  have hle : n ≤ r.nextId := hleast r.nextId (.inr (Nat.le_refl _))
  have hindex : r.create.1.index = n := by
    rw [hn]
    exact Entity.index_ofNat (Nat.lt_of_le_of_lt hle hb)
  have hvacant_iff := h.vacant_iff (Nat.le_of_lt hb)
  refine ⟨(hvacant_iff n).mp hvacant _ hindex, fun e he => ?_⟩
  rw [hindex]
  apply hleast
  rw [hvacant_iff]
  intro e' he'
  rwa [Entity.index_inj.mp he']

theorem Numbered.born_create {r : Roster} (h : r.Numbered) (hb : r.nextId < UInt32.size) :
    Born r r.create.2 r.create.1 := by
  obtain ⟨free, nextId, hr⟩ := r.create_eq
  rw [hr]
  exact h.toTidy.born_activate (h.create_least hb).1 free nextId

theorem Tidy.born_createAt {r r' : Roster} {e : Entity} (h : r.Tidy)
    (hc : r.createAt e = .ok r') : Born r r' e := by
  obtain ⟨-, hdead, free, nextId, rfl⟩ := createAt_ok hc
  exact h.born_activate hdead free nextId

/-! ### The count -/

theorem Numbered.nodup_alive {r : Roster} (h : r.Numbered) : r.alive.Nodup := by
  refine h.alive_ascending.imp fun {a b} hab => ?_
  rintro rfl
  simp at hab

/-- One live entity more makes the list of them longer by one. -/
theorem Numbered.length_alive {r r' : Roster} (h : r.Numbered) (h' : r'.Numbered) {e : Entity}
    (hd : r.isAlive e = false) (ha : ∀ e', r'.isAlive e' = true ↔ e' = e ∨ r.isAlive e' = true) :
    r'.alive.length = r.alive.length + 1 := by
  have hnew : e ∉ r.alive := by
    rw [h.mem_alive, hd]
    exact Bool.false_ne_true
  have hperm : r'.alive.Perm (e :: r.alive) := by
    rw [List.perm_ext_iff_of_nodup h'.nodup_alive (List.nodup_cons.mpr ⟨hnew, h.nodup_alive⟩)]
    intro e'
    rw [h'.mem_alive, ha e', List.mem_cons, h.mem_alive]
  rw [hperm.length_eq, List.length_cons]

/-- The numbers are in order, and as many entities are counted as are alive. -/
structure Counted (r : Roster) : Prop extends r.Numbered where
  count : r.count = r.alive.length

theorem counted_empty : Counted {} := ⟨numbered_empty, rfl⟩

theorem Counted.born {r r' : Roster} {e : Entity} (h : r.Counted) (hn : r'.Numbered)
    (hb : Born r r' e) (hc : r'.count = r.count + 1) : r'.Counted := by
  have hlength := h.toNumbered.length_alive hn hb.dead hb.isAlive_iff
  exact ⟨hn, by rw [hc, hlength, h.count]⟩

theorem count_create (r : Roster) : r.create.2.count = r.count + 1 := by
  obtain ⟨free, nextId, hr⟩ := r.create_eq
  rw [hr, activate_count]
  rfl

theorem count_createAt {r r' : Roster} {e : Entity} (h : r.createAt e = .ok r') :
    r'.count = r.count + 1 := by
  obtain ⟨-, -, free, nextId, rfl⟩ := createAt_ok h
  rw [activate_count]
  rfl

theorem Counted.release {r r' : Roster} {e : Entity} (h : r.Counted)
    (hr : r.release e = .ok r') : r'.Counted := by
  have hn := h.toNumbered.release hr
  have halive := isAlive_release hr
  have hdead : r'.isAlive e = false := by
    rw [Bool.eq_false_iff, ne_eq, halive]
    exact fun h => h.1 rfl
  have hold : r.isAlive e = true := (release_ok hr).1
  -- seen backwards, giving an entity up brings it to life
  have hback : ∀ e', r.isAlive e' = true ↔ e' = e ∨ r'.isAlive e' = true := by
    intro e'
    rw [halive]
    by_cases he : e' = e
    · simp [he, hold]
    · simp [he]
  have hlength := hn.length_alive h.toNumbered hdead hback
  have hcount := h.count
  have hless : r'.count = r.count - 1 := by
    obtain ⟨-, rfl⟩ := release_ok hr
    rfl
  refine ⟨hn, ?_⟩
  omega

theorem Counted.setBit {r r' : Roster} {e : Entity} {id : ComponentId} {present : Bool}
    (h : r.Counted) (hb : r.setBit e id present = .ok r') : r'.Counted := by
  have hn := h.toNumbered.setBit hb
  have hcount : r'.count = r.count := by
    obtain ⟨-, rfl⟩ := setBit_ok hb
    rfl
  have hsame : r'.alive = r.alive := hn.alive_eq h.alive_ascending fun e' => by
    rw [isAlive_setBit hb, h.mem_alive]
  exact ⟨hn, by rw [hcount, hsame, h.count]⟩

theorem Counted.perform {r : Roster} (h : r.Counted) {q : Request}
    (hb : (r.perform q).nextId < UInt32.size) : (r.perform q).Counted := by
  have hr : r.nextId < UInt32.size := Nat.lt_of_le_of_lt (r.nextId_le_perform q) hb
  cases q with
  | create =>
    have hn := h.toNumbered.create (Nat.le_of_lt hb)
    exact h.born hn (h.toNumbered.born_create hr) r.count_create
  | createAt e =>
    cases hc : r.createAt e with
    | error err => simpa [Roster.perform, hc, Except.toOption] using h
    | ok r' =>
      have hborn := h.born (h.toNumbered.createAt hc) (h.born_createAt hc) (count_createAt hc)
      simpa [Roster.perform, hc, Except.toOption] using hborn
  | setBit e id present =>
    cases hs : r.setBit e id present with
    | error err => simpa [Roster.perform, hs, Except.toOption] using h
    | ok r' => simpa [Roster.perform, hs, Except.toOption] using h.setBit hs
  | destroy e =>
    rw [perform_destroy]
    cases hd : r.release e with
    | error err => exact h
    | ok r' => exact h.release hd

theorem Counted.performAll {r : Roster} (h : r.Counted) {requests : List Request}
    (hb : (r.performAll requests).nextId < UInt32.size) : (r.performAll requests).Counted := by
  induction requests generalizing r with
  | nil => exact h
  | cons q rest ih =>
    have hle := nextId_le_performAll (r.perform q) rest
    exact ih (h.perform (Nat.lt_of_le_of_lt hle hb)) hb

/-! ### Refused calls -/

/-- Why a call is refused, if it is. -/
def refusal? (r : Roster) : Request → Option Error
  | .create => none
  | .createAt e =>
    match r.createAt e with
    | .ok _ => none
    | .error err => some err
  | .destroy e =>
    match (destroy e r).result with
    | .ok _ => none
    | .error err => some err
  | .setBit e id present =>
    match r.setBit e id present with
    | .ok _ => none
    | .error err => some err

/-- A refused call changes nothing. -/
theorem perform_refused {r : Roster} {q : Request} {err : Error} (h : r.refusal? q = some err) :
    r.perform q = r := by
  cases q with
  | create => cases h
  | createAt e =>
    cases hc : r.createAt e with
    | ok r' => simp [refusal?, hc] at h
    | error err' => simp [perform, hc, Except.toOption]
  | setBit e id present =>
    cases hb : r.setBit e id present with
    | ok r' => simp [refusal?, hb] at h
    | error err' => simp [perform, hb, Except.toOption]
  | destroy e =>
    cases hd : r.release e with
    | ok r' => simp [refusal?, destroy, hd] at h
    | error err' =>
      rw [perform_destroy, hd]
      rfl

theorem refusal?_createAt (r : Roster) (e : Entity) :
    r.refusal? (.createAt e) =
      if limit ≤ e.id then some (.entityOutOfRange e limit)
      else if r.isAlive e then some (.entityAlreadyAlive e)
      else none := by
  by_cases hl : limit ≤ e.id
  · have hr : r.createAt e = .error (.entityOutOfRange e limit) := by
      simp only [createAt, if_pos hl]
    simp only [refusal?, hr, if_pos hl]
  · rw [if_neg hl]
    cases ha : r.isAlive e with
    | true =>
      have hr : r.createAt e = .error (.entityAlreadyAlive e) := by
        simp only [createAt, if_neg hl, ha, ↓reduceIte]
      simp only [refusal?, hr, ↓reduceIte]
    | false =>
      obtain ⟨r', hr⟩ := createAt_of_dead (UInt32.not_le.mp hl) ha
      simp only [refusal?, hr, Bool.false_eq_true, ↓reduceIte]

theorem refusal?_destroy (r : Roster) (e : Entity) :
    r.refusal? (.destroy e) = if r.isAlive e then none else some (.unknownEntity e) := by
  cases ha : r.isAlive e with
  | true =>
    obtain ⟨r', hr⟩ := release_of_isAlive ha
    simp [refusal?, destroy, hr]
  | false => simp [refusal?, destroy, release_of_dead ha]

/-! ### The promises -/

/-- What a roster promises as long as its counter stays among the numbers of entities. -/
structure Allocates (r : Roster) : Prop where
  /-- Up to the counter every number is alive or free. -/
  lt_nextId : ∀ n, n < r.nextId ↔
    (∃ e, e.index = n ∧ r.isAlive e = true) ∨ r.free.contains n = true
  /-- No number is both. -/
  apart : ∀ e, r.isAlive e = true → r.free.contains e.index = false
  create_born : Born r (r.perform .create) r.create.1
  create_lowest : ∀ e, r.isAlive e = false → r.create.1.index ≤ e.index
  createAt_accepted : ∀ e, r.refusal? (.createAt e) = none ↔ e.id < limit ∧ r.isAlive e = false
  createAt_born : ∀ e, r.refusal? (.createAt e) = none → Born r (r.perform (.createAt e)) e
  destroy_accepted : ∀ e, r.refusal? (.destroy e) = none ↔ r.isAlive e = true
  destroy_ends : ∀ e, r.refusal? (.destroy e) = none → ∀ e',
    ((r.perform (.destroy e)).isAlive e' = true ↔ e' ≠ e ∧ r.isAlive e' = true) ∧
      (r.perform (.destroy e)).signature? e' = if e' = e then none else r.signature? e'
  refused : ∀ q err, r.refusal? q = some err → r.perform q = r
  count : r.count = r.alive.length
  mem_alive : ∀ e, e ∈ r.alive ↔ r.isAlive e = true
  ascending : r.alive.Pairwise fun a b => a.index < b.index
  /-- No live entity is out of bounds, and each of them has the signature at its place. All that
  reads or writes a place asks before whether the entity is alive. -/
  indexed : ∀ e, r.isAlive e = true →
    e.index < r.generations.size ∧ ∃ hi : e.index < r.signatures.size,
      r.signature? e = some r.signatures[e.index]

theorem Counted.allocates {r : Roster} (h : r.Counted) (hb : r.nextId < UInt32.size) :
    Allocates r where
  lt_nextId n := by
    constructor
    · intro hn
      by_cases hf : r.free.contains n = true
      · exact .inr hf
      · have hindex := Entity.index_ofNat (Nat.lt_trans hn hb)
        exact .inl ⟨_, hindex, (h.alive_iff _).mpr (by rw [hindex]; exact ⟨hn, hf⟩)⟩
    · rintro (⟨e, rfl, ha⟩ | hf)
      · exact ((h.alive_iff e).mp ha).1
      · exact (h.free.bounds hf).2
  apart e ha := Bool.eq_false_iff.mpr ((h.alive_iff e).mp ha).2
  create_born := h.toNumbered.born_create hb
  create_lowest := (h.toNumbered.create_least hb).2
  createAt_accepted e := by
    rw [refusal?_createAt]
    by_cases hl : limit ≤ e.id
    · simp [hl]
    · have hlt : e.id < limit := UInt32.not_le.mp hl
      simp [hl, hlt]
  createAt_born e he := by
    cases hc : r.createAt e with
    | error err => simp [refusal?, hc] at he
    | ok r' => simpa [Roster.perform, hc, Except.toOption] using h.born_createAt hc
  destroy_accepted e := by
    rw [refusal?_destroy]
    simp
  destroy_ends e he := by
    cases hd : r.release e with
    | error err => simp [refusal?, destroy, hd] at he
    | ok r' =>
      rw [perform_destroy, hd]
      exact fun e' => ⟨isAlive_release hd e', signature?_release hd e'⟩
  refused q err := perform_refused
  count := h.count
  mem_alive e := h.mem_alive
  ascending := by
    refine h.alive_ascending.imp fun {a b} hab => ?_
    have hid : compare a.id b.id = .lt := hab
    exact UInt32.lt_iff_toNat_lt.mp (Std.compare_eq_lt.mp hid)
  indexed e ha := by
    have hlt := h.held _ (isAlive_iff.mp ha)
    refine ⟨hlt, h.sized ▸ hlt, ?_⟩
    rw [Roster.signature?, if_pos ha, Array.getElem?_eq_getElem]

/-- A number that was alive once has a place in both vectors. -/
def HasPlace (r : Roster) (e : Entity) : Prop :=
  e.index < r.generations.size ∧ e.index < r.signatures.size

theorem Tidy.hasPlace {r : Roster} (h : r.Tidy) {e : Entity} {g : Generation}
    (hg : r.generation? e = some g) : r.HasPlace e := by
  have hlt := (Array.getElem?_eq_some_iff.mp hg).1
  exact ⟨hlt, h.sized ▸ hlt⟩

theorem Tidy.hasPlace_performAll {r : Roster} (h : r.Tidy) {e : Entity}
    (ha : r.isAlive e = true) {requests : List Request} (h' : (r.performAll requests).Tidy) :
    (r.performAll requests).HasPlace e := by
  obtain ⟨generation, hr⟩ := h.exists_ref? ha
  exact h'.hasPlace (generation?_performAll (ref?_eq_some.mp hr).2.2 requests)

/-- Behind every run from the empty roster, calls that are refused included, the live and the free
numbers divide what was handed out or skipped between them, a new entity gets the lowest number that
is not alive and no components, and a number can be asked for or given up exactly when nobody has it
or somebody has it. Every number that was alive at some point of the run still has its places. -/
theorem performAll_allocates (requests : List Request)
    (hb : (performAll {} requests).nextId < UInt32.size - 1) :
    Allocates (performAll {} requests) ∧
      ∀ before later, requests = before ++ later → ∀ e, (performAll {} before).isAlive e = true →
        (performAll {} requests).HasPlace e := by
  have hsize : (performAll {} requests).nextId < UInt32.size := by omega
  have hcounted := counted_empty.performAll hsize
  refine ⟨hcounted.allocates hsize, ?_⟩
  rintro before later rfl e he
  have hrun : performAll {} (before ++ later) = (performAll {} before).performAll later :=
    List.foldl_append
  rw [hrun] at hsize hcounted ⊢
  have hbefore : (performAll {} before).nextId < UInt32.size :=
    Nat.lt_of_le_of_lt (nextId_le_performAll _ later) hsize
  exact (counted_empty.performAll hbefore).toTidy.hasPlace_performAll he hcounted.toTidy

/-- A run that skips numbers, fills a gap and gives numbers back, with calls that are refused. -/
def gaps : List Request :=
  [.create, .createAt ⟨5⟩, .createAt ⟨2⟩, .createAt ⟨5⟩, .destroy ⟨0⟩, .setBit ⟨2⟩ ⟨7⟩ true,
    .destroy ⟨9⟩, .create, .createAt ⟨16777216⟩, .destroy ⟨2⟩, .create]

theorem gaps_allocated :
    (performAll {} gaps).nextId < UInt32.size - 1 ∧
      (performAll {} gaps).alive = [⟨0⟩, ⟨1⟩, ⟨5⟩] ∧
        Born (performAll {} gaps) ((performAll {} gaps).perform .create) ⟨2⟩ ∧
          (performAll {} gaps).HasPlace ⟨2⟩ := by
  have hb : (performAll {} gaps).nextId < UInt32.size - 1 := by decide
  obtain ⟨hallocates, hplaces⟩ := performAll_allocates gaps hb
  have hcreated := hallocates.create_born
  have hlowest : (performAll {} gaps).create.1 = ⟨2⟩ := by decide
  rw [hlowest] at hcreated
  exact ⟨hb, by decide, hcreated, hplaces (gaps.take 3) (gaps.drop 3) rfl ⟨2⟩ (by decide)⟩

end SceneScript.Roster
