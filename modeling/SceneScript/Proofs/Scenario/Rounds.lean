import SceneScript.Proofs.Scenario.Counters

/-! # Frames of the cascade

In a frame every event makes a round of its own: the tick, and behind it one step for each number
up to the depth. So the report of a frame and the counts after it have a closed form.
-/
namespace SceneScript.Scenario.Cascade
open Script (loadSource)

/-! ### Deliveries -/

section
variable {depth : String} {d : Int64} {counts : Table Entity Int64} {p : Progress}
  (roster : Roster)

/-- The systems of the script, with the text of the depth. -/
def scripted (depth : String) : Registry := .ofSystems [start, step depth, count]

theorem listeners_tick (depth : String) : (scripted depth).listeners tickName = [start] := by
  rfl

theorem listeners_step (depth : String) :
    (scripted depth).listeners "Step" = [step depth, count] := by
  rfl

theorem deliver_tick (hp : p.store = driven counts) (seconds : Float) (depth : String) :
    p.deliver (scripted depth) roster (.tick seconds) =
      ([stepEvent 1], p.addEvent.ran p.store 1) := by
  have hstart := offer_start (p := p.addEvent) roster hp seconds
  rw [Progress.deliver_listeners (listeners_tick depth), Progress.offerEach, hstart]
  rfl

/-- The driver and every counter are run for a step. -/
theorem deliver_step (hd : Number.readInteger? depth = some d) (hs : Table.Sorted counts)
    (hp : p.store = driven counts) (n : Int64) :
    p.deliver (scripted depth) roster (stepEvent n) =
      (if n < d then [stepEvent (n + 1)] else [],
        p.addEvent.ran (driven (Table.mapValues (· + 1) counts)) (1 + counts.length)) := by
  have hstep := offer_step (p := p.addEvent) roster hd hp n
  have hcount := offer_count (p := p.addEvent.ran p.store 1) roster hs hp n
  have hstore : p.addEvent.store = p.store := rfl
  rw [Progress.deliver_listeners (listeners_step depth), Progress.offerEach, hstep, hstore]
  simp only [Progress.offerEach, hcount, List.append_nil, Progress.ran_ran]

/-! ### The rounds of a frame -/

/-- The progress when some more rounds have counted a step each. -/
def counted (counts : Table Entity Int64) (rounds : Nat) (p : Progress) : Progress where
  store := driven (Table.mapValues (· + 1)^[rounds] counts)
  random := p.random
  report := { p.report with
    rounds := p.report.rounds + rounds
    events := p.report.events + rounds
    invocations := p.report.invocations + rounds * (1 + counts.length) }
  log := p.log

theorem counted_succ (counts : Table Entity Int64) (rounds : Nat) (p : Progress) :
    counted (Table.mapValues (· + 1) counts) rounds (counted counts 1 p) =
      counted counts (rounds + 1) p := by
  have hinvocations : p.report.invocations + 1 * (1 + counts.length) +
      rounds * (1 + counts.length) = p.report.invocations + (rounds + 1) * (1 + counts.length) := by
    rw [Nat.add_assoc, ← Nat.add_mul, Nat.add_comm 1 rounds]
  simp only [counted, Table.mapValues_mapValues, ← Function.iterate_succ, Table.length_mapValues,
    hinvocations, Nat.add_assoc, Nat.add_comm 1 rounds]

/-- One round delivers a step and leaves the next one, if the depth is not reached. -/
theorem drain_step (hd : Number.readInteger? depth = some d) (hs : Table.Sorted counts)
    (hp : p.store = driven counts) {stream : Stream Event} {n : Int64}
    (hpending : stream.pending = [stepEvent n]) (limit : Nat) :
    Progress.drain (scripted depth) roster (limit + 1) stream p =
      Progress.drain (scripted depth) roster limit
        (stream.swap.takeRound.2.extend (if n < d then [stepEvent (n + 1)] else []))
        (counted counts 1 p) := by
  have hcounted : counted counts 1 p = (p.addRounds 1).addEvent.ran
      (driven (Table.mapValues (· + 1) counts)) (1 + counts.length) := by
    simp only [counted, Function.iterate_one, Nat.one_mul]
    rfl
  rw [hcounted]
  exact Dispatch.drain_one hpending (deliver_step (p := p.addRounds 1) roster hd hs hp n)

theorem toInt_succ {n d : Int64} (h : n < d) : (n + 1).toInt = n.toInt + 1 := by
  have hlt := Int64.lt_iff_toInt_lt.mp h
  have hlow := n.le_toInt
  have hhigh := d.toInt_lt
  rw [Int64.toInt_add, Int64.toInt_one, Int.bmod_eq_of_le (by omega) (by omega)]

/-- From a step on there is one round for each number up to the depth. A step that has reached the
depth is the last one. -/
theorem drain_steps (hd : Number.readInteger? depth = some d) (k : Nat) {n : Int64}
    {stream : Stream Event} (hs : Table.Sorted counts) (hp : p.store = driven counts)
    (hpending : stream.pending = [stepEvent n]) (hn : 1 ≤ n.toInt)
    (hk : n.toInt + k = max d.toInt 1) (limit : Nat) :
    Progress.drain (scripted depth) roster (limit + k + 1) stream p =
      some (counted counts (k + 1) p) := by
  induction k generalizing n stream counts p with
  | zero =>
    have hlast : ¬n < d := by
      rw [Int64.lt_iff_toInt_lt]
      omega
    rw [drain_step roster hd hs hp hpending, if_neg hlast]
    exact Dispatch.drain_nil (Dispatch.pending_round _ _)
  | succ k ih =>
    have hnext : n < d := by
      rw [Int64.lt_iff_toInt_lt]
      omega
    have hsucc := toInt_succ hnext
    have hsorted := hs.congr_keys (Table.keys_mapValues (· + 1) counts)
    rw [drain_step roster hd hs hp hpending, if_pos hnext]
    have hrest := ih (p := counted counts 1 p) hsorted rfl
      (Dispatch.pending_round stream [stepEvent (n + 1)]) (by omega) (by omega)
    rw [counted_succ] at hrest
    exact hrest

/-- How many steps a tick leads to. -/
def stepCount (d : Int64) : Nat := (max d.toInt 1).toNat

/-- The report of a frame with some steps and counters. -/
def frameReport (steps counters : Nat) : Report where
  rounds := steps + 1
  events := steps + 1
  invocations := 1 + steps * (counters + 1)

/-- A tick takes a round of its own, and its steps take theirs. -/
theorem dispatch_tick (hd : Number.readInteger? depth = some d) (hs : Table.Sorted counts)
    (random : Random) (seconds : Float) {limit : Nat} (hl : stepCount d < limit) :
    dispatch (scripted depth) roster limit ⟨driven counts, random⟩ (.tick seconds) = some
      ⟨⟨driven (Table.mapValues (· + 1)^[stepCount d] counts), random⟩,
        frameReport (stepCount d) counts.length, []⟩ := by
  obtain ⟨k, hk⟩ : ∃ k, stepCount d = k + 1 := ⟨stepCount d - 1, by unfold stepCount; omega⟩
  obtain ⟨rest, rfl⟩ : ∃ rest, limit = rest + k + 1 + 1 := ⟨limit - (k + 2), by omega⟩
  let first : Progress := ⟨⟨driven counts, random⟩, {}, []⟩
  have htick := deliver_tick (p := first.addRounds 1) roster rfl seconds depth
  have hone : Int64.toInt 1 = 1 := rfl
  have hsteps := drain_steps (p := (first.addRounds 1).addEvent.ran (driven counts) 1) roster hd k
    hs rfl (Dispatch.pending_round (({} : Stream Event).send (.tick seconds)) [stepEvent 1])
    (by omega) (by unfold stepCount at hk; omega) rest
  rw [dispatch, Dispatch.drain_one rfl htick]
  refine hsteps.trans ?_
  rw [hk]
  simp only [counted, frameReport, first, Progress.ran, Progress.addEvent, Progress.addRounds,
    Nat.zero_add, Nat.add_comm 1]

example : frameReport (stepCount 4) 3 = ⟨5, 5, 17, 0⟩ := by decide

end

/-! ### Frames -/

section
variable {c : Cascade} {entities : List Entity} {counts : Table Entity Int64}

/-- The stage shows some counts. -/
structure Shows (c : Cascade) (entities : List Entity) (counts : Table Entity Int64) (s : Stage) :
    Prop where
  store : s.scene.store = driven counts
  registry : s.scene.registry = scripted (toString c.depth.toInt)
  entities : s.entities = entities
  sorted : Table.Sorted counts

theorem update?_shows {s : Stage} (h : Shows c entities counts s) (random : Random) :
    ∃ s', c.update? random s = some s' ∧
      Shows c entities (Table.mapValues (· + 1)^[stepCount c.depth] counts) s' ∧
        s'.report = frameReport (stepCount c.depth) counts.length := by
  have hlimit : stepCount c.depth < c.roundLimit := by
    unfold stepCount roundLimit
    omega
  have hdispatch := dispatch_tick s.scene.roster (Number.readInteger?_toString c.depth) h.sorted
    random (1 / 60) hlimit
  have hsorted := h.sorted.congr_keys (Table.keys_mapValues (· + 1)^[stepCount c.depth] counts)
  let next : Stage := { s with
    scene := { s.scene with store := driven (Table.mapValues (· + 1)^[stepCount c.depth] counts) }
    report := frameReport (stepCount c.depth) counts.length }
  refine ⟨next, ?_, ⟨rfl, h.registry, h.entities, hsorted⟩, rfl⟩
  simp only [update?, Stage.frame?, Scene.send?, h.registry, h.store, hdispatch, Option.map_some,
    next]

/-- The stage after some frames, each with a source of numbers. -/
def after? (c : Cascade) (random : Nat → Random) : Nat → Option Stage
  | 0 => c.setup?
  | n + 1 => (after? c random n).bind (c.update? (random n))

theorem after?_shows {s : Stage} (hs : c.setup? = some s) (h : Shows c entities counts s)
    (random : Nat → Random) (n : Nat) : ∃ s', c.after? random n = some s' ∧
      Shows c entities (Table.mapValues (· + 1)^[n * stepCount c.depth] counts) s' ∧
        (0 < n → s'.report = frameReport (stepCount c.depth) counts.length) := by
  induction n with
  | zero => exact ⟨s, hs, by simpa [Table.mapValues] using h, fun hn => absurd hn (by decide)⟩
  | succ n ih =>
    obtain ⟨s', hs', hshows, -⟩ := ih
    obtain ⟨next, hnext, hcounted, hreport⟩ := update?_shows hshows (random n)
    rw [Table.mapValues_mapValues, ← Function.iterate_add, Nat.add_comm, ← Nat.succ_mul] at hcounted
    rw [Table.length_mapValues] at hreport
    exact ⟨next, by rw [after?, hs', Option.bind_some, hnext], hcounted, fun _ => hreport⟩

/-- The counts that are read off a stage. -/
theorem Shows.counter? {s : Stage} (h : Shows c entities counts s) (n : Nat) :
    counter? s n = entities[n + 1]?.bind (Table.find? counts) := by
  rw [Cascade.counter?, Stage.value?, h.entities]
  cases entities[n + 1]? with
  | none => rfl
  | some e =>
    have hvalue : s.scene.value? e "Counter" =
        .ok (Table.find? (Table.mapValues Value.integer counts) e) := by
      simp only [Scene.value?, h.store, driven, idOf_counter, Result.ok_bind]
      rfl
    simp only [hvalue, Table.find?_mapValues, Option.bind_some]
    cases Table.find? counts e with
    | none => rfl
    | some k => rfl

theorem Shows.tag {s : Stage} (h : Shows c (driver :: entities) counts s) :
    s.value? 0 "Tag" = some driverTag := by
  have hvalue : s.scene.value? driver "Tag" = .ok (some driverTag) := by
    simp only [Scene.value?, h.store, driven, idOf_tag, Result.ok_bind]
    rfl
  simp only [Stage.value?, h.entities, List.getElem?_cons_zero, hvalue]

end

/-! ### Setting up -/

/-- A scene in which counters are put: the numbers up to the next one are in use. -/
structure Spawning (depth : String) (n : Nat) (counts : Table Entity Int64) (s : Scene) : Prop where
  store : s.store = driven counts
  registry : s.registry = scripted depth
  filled : s.roster.Filled n

section
variable {depth : String} {n : Nat} {counts : Table Entity Int64}

theorem spawnCounter_ok {s : Scene} (i : Nat) (h : Spawning depth n counts s) :
    ∃ s', spawnCounter i s = ⟨.ok ⟨UInt32.ofNat n⟩, s', []⟩ ∧
      Spawning depth (n + 1) (Table.insert counts ⟨UInt32.ofNat n⟩ 0) s' := by
  obtain ⟨title, roster, store, registry, scripts⟩ := s
  obtain ⟨rfl, rfl, hfilled⟩ := h
  obtain ⟨created, hcreate, halive, hfilled'⟩ := Scene.createEntity_filled
    (s := ⟨title, roster, driven counts, scripted depth, scripts⟩) hfilled
  let e : Entity := ⟨UInt32.ofNat n⟩
  let scene : Scene := ⟨title, created, driven counts, scripted depth, scripts⟩
  have hid : scene.store.id? "Counter" = some ⟨1⟩ := rfl
  have hadd : scene.store.add e ⟨1⟩ counter.default = .ok (driven (Table.insert counts e 0)) :=
    add_counter _ counts e 0
  obtain ⟨r, hdefault, -, hfilled''⟩ := Scene.addComponent_filled hfilled' halive hid hadd
  have hdefault' := (Scene.addDefaultComponent_eq (c := counting counts) hid rfl e).trans hdefault
  refine ⟨⟨title, r, driven (Table.insert counts e 0), scripted depth, scripts⟩, ?_, rfl, rfl,
    hfilled''⟩
  calc spawnCounter i ⟨title, roster, driven counts, scripted depth, scripts⟩
      = _ := Action.bind_silent hcreate
    _ = _ := Action.bind_silent hdefault'

theorem spawnDriver_ok {s : Scene} (hstore : s.store = store [] [])
    (hregistry : s.registry = scripted depth) (h : s.roster.Filled 0) :
    ∃ s', spawnDriver s = ⟨.ok driver, s', []⟩ ∧ Spawning depth 1 [] s' := by
  obtain ⟨title, roster, store', registry, scripts⟩ := s
  obtain rfl : store' = store [] [] := hstore
  obtain rfl : registry = scripted depth := hregistry
  obtain ⟨created, hcreate, halive, hfilled⟩ := Scene.createEntity_filled
    (s := ⟨title, roster, store [] [], scripted depth, scripts⟩) h
  let scene : Scene := ⟨title, created, store [] [], scripted depth, scripts⟩
  have hid : scene.store.id? "Tag" = some ⟨0⟩ := rfl
  have hadd : scene.store.add driver ⟨0⟩ driverTag = .ok (driven []) :=
    add_tag [] [] driver "driver"
  obtain ⟨r, htag, -, hfilled'⟩ := Scene.addComponent_filled hfilled halive hid hadd
  refine ⟨⟨title, r, driven [], scripted depth, scripts⟩, ?_, rfl, rfl, hfilled'⟩
  calc spawnDriver ⟨title, roster, store [] [], scripted depth, scripts⟩
      = _ := Action.bind_silent hcreate
    _ = _ := Action.bind_silent htag

end

/-- The counters of a scenario, which follow the driver and start at zero. -/
def zeros (counters : Nat) : List (Entity × Int64) :=
  (List.range counters).map fun n => (⟨UInt32.ofNat (n + 1)⟩, 0)

theorem zeros_zipIdx (counters : Nat) : ((List.range counters).zipIdx 1).map
    (fun entry => (Entity.mk (UInt32.ofNat entry.2), (0 : Int64))) = zeros counters := by
  refine List.ext_getElem (by simp [zeros]) fun n _ _ => ?_
  simp [zeros, Nat.add_comm 1]

theorem keys_zeros (counters : Nat) : (zeros counters).map Prod.fst =
    (List.range counters).map fun n => Entity.mk (UInt32.ofNat (n + 1)) := by
  simp [zeros, Function.comp_def]

theorem find?_zeros {counters n : Nat} (h : n < counters) :
    Table.find? (Table.ofList (zeros counters)) ⟨UInt32.ofNat (n + 1)⟩ = some 0 := by
  have hentity : Entity.mk (UInt32.ofNat (n + 1)) ∈ (zeros counters).map Prod.fst := by
    rw [keys_zeros]
    exact List.mem_map.mpr ⟨n, List.mem_range.mpr h, rfl⟩
  obtain ⟨k, hk⟩ := Option.isSome_iff_exists.mp (Table.find?_ofList_isSome.mpr hentity)
  obtain ⟨m, -, hm⟩ := List.mem_map.mp (Table.mem_of_find?_ofList hk)
  rw [hk, ← (Prod.mk.inj hm).2]

theorem ofNat_inj {m n : Nat} (h : UInt32.ofNat m = UInt32.ofNat n) :
    m % UInt32.size = n % UInt32.size := by
  have hnat := congrArg UInt32.toNat h
  rwa [UInt32.toNat_ofNat', UInt32.toNat_ofNat'] at hnat

/-- There are as many counters as asked for, as far as there are numbers for them. -/
theorem length_zeros (counters : Nat) :
    (Table.ofList (zeros counters)).length = min counters UInt32.size := by
  rcases Nat.le_total counters UInt32.size with h | h
  · have hnodup : ((zeros counters).map Prod.fst).Nodup := by
      rw [keys_zeros]
      refine List.nodup_range.map_on fun m hm n hn hmn => ?_
      have hmod := ofNat_inj (Entity.mk.inj hmn)
      rw [List.mem_range] at hm hn
      rw [UInt32.size] at h hmod
      omega
    rw [Table.length_ofList hnodup fun _ => Iff.rfl, Nat.min_eq_left h, keys_zeros, List.length_map,
      List.length_range]
  · have hnodup : ((List.range UInt32.size).map fun n => Entity.mk (UInt32.ofNat n)).Nodup := by
      refine List.nodup_range.map_on fun m hm n hn hmn => ?_
      have hmod := ofNat_inj (Entity.mk.inj hmn)
      rw [List.mem_range] at hm hn
      rwa [Nat.mod_eq_of_lt hm, Nat.mod_eq_of_lt hn] at hmod
    -- the numbers go around, so that every entity is one of the counters
    have hkeys : ∀ e, e ∈ ((List.range UInt32.size).map fun n => Entity.mk (UInt32.ofNat n)) ↔
        e ∈ (zeros counters).map Prod.fst := by
      intro e
      rw [keys_zeros, List.mem_map, List.mem_map]
      have hlt : e.id.toNat < UInt32.size := e.id.toNat_lt
      refine iff_of_true ⟨e.id.toNat, List.mem_range.mpr hlt, by rw [UInt32.ofNat_toNat]⟩ ?_
      by_cases hzero : e.id.toNat = 0
      · refine ⟨UInt32.size - 1, List.mem_range.mpr (by rw [UInt32.size] at h ⊢; omega), ?_⟩
        have hid : e.id = 0 := UInt32.toNat.inj hzero
        exact congrArg Entity.mk hid.symm
      · refine ⟨e.id.toNat - 1, List.mem_range.mpr (by omega), ?_⟩
        rw [Nat.sub_add_cancel (by omega), UInt32.ofNat_toNat]
    rw [Table.length_ofList hnodup hkeys, Nat.min_eq_right h, List.length_map, List.length_range]

theorem nodup_names (depth : String) :
    ([start, step depth, count].map System.name).Nodup := by
  change ["start", "step", "count"].Nodup
  decide

theorem register_scripted (depth : String) : ∃ records,
    registerSystems (scriptIndex depth) [start, step depth, count] bare.scene =
      ⟨.ok (), ⟨"cascade", {}, store [] [], scripted depth, []⟩, records⟩ := by
  have hcount : (Registry.ofSystems [start, step depth]).register count =
      .ok (2, scripted depth) := Registry.register_ofSystems (nodup_names depth)
  have hstep : (Registry.ofSystems [start]).register (step depth) =
      .ok (1, .ofSystems [start, step depth]) :=
    Registry.register_ofSystems
      ((nodup_names depth).sublist (List.sublist_append_left ["start", "step"] ["count"]))
  exact ⟨_, registerSystems_cons rfl rfl
    (registerSystems_cons rfl hstep (registerSystems_cons rfl hcount rfl))⟩

/-- The scene is filled in the same way for every depth. -/
theorem populate_ok (c : Cascade) (depth : String) : ∃ scene records,
    (c.populate (scriptIndex depth) [start, step depth, count]).run bare.scene =
      ⟨.ok (driver :: (zeros c.counters).map Prod.fst), scene, records⟩ ∧
    Spawning depth (1 + (List.range c.counters).length) (Table.ofList (zeros c.counters))
      scene := by
  let registered : Scene := ⟨"cascade", {}, store [] [], scripted depth, []⟩
  obtain ⟨records, hregister⟩ : ∃ records,
      registerSystems (scriptIndex depth) [start, step depth, count] bare.scene =
        ⟨.ok (), registered, records⟩ := register_scripted depth
  obtain ⟨driving, hdriver, hfirst⟩ : ∃ s', spawnDriver registered = ⟨.ok driver, s', []⟩ ∧
      Spawning depth 1 [] s' := spawnDriver_ok rfl rfl ⟨rfl, rfl⟩
  obtain ⟨scene, hcounters, hspawned⟩ := spawnAll_ok (P := Spawning depth) (g := fun _ => 0)
    spawnCounter_ok (List.range c.counters) hfirst
  rw [zeros_zipIdx] at hcounters hspawned
  have hspawn : (do
      let driver ← spawnDriver
      return driver :: (← spawnAll spawnCounter (List.range c.counters)) :
        SceneAction (List Entity)) registered =
          ⟨.ok (driver :: (zeros c.counters).map Prod.fst), scene, []⟩ := by
    rw [Action.bind_silent hdriver, Action.bind_silent hcounters]
    rfl
  refine ⟨scene, records ++ [], ?_, hspawned⟩
  rw [Action.run, populate, Action.bind_ok hregister, hspawn]

theorem setup?_of_loaded {c : Cascade} {systems : List System} {index : Index}
    {entities : List Entity} {scene : Scene} {records records' : List LogRecord}
    (hload : (loadSource {} scriptFile c.source).run .initial = ⟨.ok systems, index, records⟩)
    (hpopulate : (c.populate index systems).run bare.scene = ⟨.ok entities, scene, records'⟩) :
    c.setup? = some { scene := scene, entities := entities } := by
  rw [scriptFile] at hload
  delta setup?
  -- the load is made a variable: with the script in place the match would run the lexer
  generalize (loadSource {} "cascade.pivotscript" c.source).run .initial = loaded at hload ⊢
  subst hload
  dsimp only
  rw [hpopulate]

theorem setup?_shows (c : Cascade) : ∃ s, c.setup? = some s ∧
    Shows c (driver :: (zeros c.counters).map Prod.fst) (Table.ofList (zeros c.counters)) s := by
  obtain ⟨_, hload⟩ := source_loaded c
  obtain ⟨scene, _, hpopulate, hspawned⟩ := populate_ok c (toString c.depth.toInt)
  exact ⟨{ scene := scene, entities := driver :: (zeros c.counters).map Prod.fst },
    setup?_of_loaded hload hpopulate, hspawned.store, hspawned.registry, rfl,
    Table.sorted_ofList _⟩

/-! ### The closed form -/

theorem iterate_succ_zero (n : Nat) : (· + 1)^[n] (0 : Int64) = Int64.ofNat n := by
  induction n with
  | zero => rfl
  | succ n ih =>
    rw [Function.iterate_succ_apply', ih, Int64.ofNat_add]
    rfl

/-- For any number of counters and any depth the script can be loaded, and any number of frames can
be run. Every frame has one round for the tick and one for each step; there is one step even if the
depth is not positive. The driver runs in every round, and in the rounds of the steps the counters
run too, of which there are no more than there are numbers for entities. So after some frames each
counter is at the number of all steps so far, and nothing has failed, whatever numbers could have
been drawn. -/
theorem closed_form (c : Cascade) :
    (∃ systems index records,
      (loadSource {} "cascade.pivotscript" c.source).run .initial = ⟨.ok systems, index, records⟩) ∧
    ∀ random frames, ∃ s, c.after? random frames = some s ∧
      (∀ n, counter? s n =
        if n < c.counters then some (Int64.ofNat (frames * stepCount c.depth)) else none) ∧
      s.value? 0 "Tag" = some driverTag ∧
      (0 < frames → s.report = {
        rounds := stepCount c.depth + 1
        events := stepCount c.depth + 1
        invocations := 1 + stepCount c.depth * (min c.counters UInt32.size + 1)
        failures := 0 }) := by
  refine ⟨?_, fun random frames => ?_⟩
  · obtain ⟨records, hload⟩ := source_loaded c
    exact ⟨_, _, records, hload⟩
  · obtain ⟨s₀, hsetup, hshows⟩ := setup?_shows c
    obtain ⟨s, hs, hshown, hreport⟩ := after?_shows hsetup hshows random frames
    refine ⟨s, hs, fun n => ?_, hshown.tag, ?_⟩
    · rw [hshown.counter?, List.getElem?_cons_succ, keys_zeros, List.getElem?_map]
      by_cases hn : n < c.counters
      · rw [if_pos hn, List.getElem?_range hn, Option.map_some, Option.bind_some,
          Table.find?_mapValues, find?_zeros hn, Option.map_some, iterate_succ_zero]
      · rw [if_neg hn, List.getElem?_eq_none (by simpa using hn)]
        rfl
    · rw [length_zeros] at hreport
      exact hreport

end SceneScript.Scenario.Cascade
