import SceneScript.Proofs.Dispatch.Cascade

/-! # The thread of a dispatch

The runs of a dispatch follow each other through the world: each starts where the one before it
ended, and each is a run of a listener of a delivered event for a target of its own kind, prepared
in a store that the dispatch went through.
-/
namespace SceneScript.Dispatch

/-- A run of a registered system for something that the system is run for. -/
def Registered (registry : Registry) (c : Call) : Prop :=
  c.system ∈ registry.systems ∧ ∃ m, c.target ∈ targets c.system m

/-- A run of a listener that was prepared for its event in one of the wanted stores. -/
structure Prepared (registry : Registry) (roster : Roster) (I : Store → Prop) (c : Call) :
    Prop where
  listens : c.system ∈ registry.listeners c.context.event.name
  roster : c.context.roster = roster
  bound : ∃ store m, I store ∧
    Progress.prepare store c.system c.context.event = .ok (c.context.groups, m) ∧
      c.target ∈ targets c.system m

theorem Prepared.registered {registry : Registry} {roster : Roster} {I : Store → Prop} {c : Call}
    (h : Prepared registry roster I c) : Registered registry c := by
  obtain ⟨_, m, _, _, ht⟩ := h.bound
  exact ⟨List.mem_of_mem_filter h.listens, m, ht⟩

/-- A run among the steps starts from the given world and is one of the wanted ones. -/
def Step.From (P : Call → Prop) (world : World) : Step → Prop
  | .called call => P call ∧ call.before = world
  | _ => True

/-- Every run is one of the wanted ones and starts where the steps before it ended. -/
def Threaded (P : Call → Prop) : World → List Step → Prop
  | _, [] => True
  | world, x :: rest => x.From P world ∧ Threaded P (x.leave world) rest

section
variable {P Q : Call → Prop}

theorem threaded_append {world : World} {xs ys : List Step} :
    Threaded P world (xs ++ ys) ↔ Threaded P world xs ∧ Threaded P (leave world xs) ys := by
  induction xs generalizing world with
  | nil => simp [Threaded]
  | cons x rest ih => simp [Threaded, ih, and_assoc]

theorem Threaded.imp (h : ∀ c, P c → Q c) {world : World} {steps : List Step}
    (ht : Threaded P world steps) : Threaded Q world steps := by
  induction steps generalizing world with
  | nil => trivial
  | cons x rest ih =>
    obtain ⟨hx, hrest⟩ := ht
    refine ⟨?_, ih hrest⟩
    cases x with
    | called c => exact ⟨h c hx.1, hx.2⟩
    | _ => trivial

theorem Threaded.of_mem {world : World} {steps : List Step} (ht : Threaded P world steps)
    {c : Call} (hc : .called c ∈ steps) : P c := by
  induction steps generalizing world with
  | nil => cases hc
  | cons x rest ih =>
    obtain ⟨hx, hrest⟩ := ht
    rcases List.mem_cons.mp hc with rfl | hm
    · exact hx.1
    · exact ih hrest hm

/-- What every run keeps holds of the store behind the steps. -/
theorem Threaded.leave {I : Store → Prop}
    (hstep : ∀ c, P c → I c.before.store → I c.outcome.state.store) {world : World}
    {steps : List Step} (ht : Threaded P world steps) (hi : I world.store) :
    I (leave world steps).store := by
  induction steps generalizing world with
  | nil => exact hi
  | cons x rest ih =>
    obtain ⟨hx, hrest⟩ := ht
    refine ih hrest ?_
    cases x with
    | called c =>
      obtain ⟨hc, rfl⟩ := hx
      exact hstep c hc hi
    | _ => exact hi

/-- What the steps have changed, one of the runs has changed. -/
theorem Threaded.changed {α : Type} (part : Store → α) {world : World} {steps : List Step}
    (ht : Threaded P world steps) (h : part (Dispatch.leave world steps).store ≠ part world.store) :
    ∃ c, .called c ∈ steps ∧ P c ∧ part c.outcome.state.store ≠ part c.before.store := by
  induction steps generalizing world with
  | nil => exact absurd rfl h
  | cons x rest ih =>
    obtain ⟨hx, hrest⟩ := ht
    by_cases hp : part (Dispatch.leave (x.leave world) rest).store = part (x.leave world).store
    · cases x with
      | called c =>
        obtain ⟨hc, rfl⟩ := hx
        exact ⟨c, List.mem_cons_self .., hc, fun heq => h (hp.trans heq)⟩
      | _ => exact absurd hp h
    · obtain ⟨c, hm, hc⟩ := ih hrest hp
      exact ⟨c, List.mem_cons_of_mem _ hm, hc⟩

theorem callSteps_threaded {system : System} {context : EventContext} {ts : List Target}
    (h : ∀ t ∈ ts, ∀ world, P ⟨system, t, context, world⟩) (world : World) :
    Threaded P world (callSteps system context world ts) := by
  induction ts generalizing world with
  | nil => trivial
  | cons t rest ih =>
    exact ⟨⟨h t (List.mem_cons_self ..) world, rfl⟩,
      ih (fun u hu => h u (List.mem_cons_of_mem _ hu)) _⟩

end

section
variable {registry : Registry} {roster : Roster} {I : Store → Prop}

theorem offerSteps_threaded {system : System} {event : Event}
    (h : system ∈ registry.listeners event.name) {world : World} (hi : I world.store) :
    Threaded (Prepared registry roster I) world (offerSteps roster event world system) := by
  unfold offerSteps
  refine ⟨trivial, ?_⟩
  cases system.declaration.event.mismatch? event with
  | some reason => exact ⟨trivial, trivial⟩
  | none =>
    cases hp : Progress.prepare world.store system event with
    | error err => exact ⟨trivial, trivial⟩
    | ok bound =>
      exact callSteps_threaded (fun t ht _ => ⟨h, rfl, world.store, bound.2, hi, hp, ht⟩) world

variable (hstep : ∀ c, Prepared registry roster I c → I c.before.store → I c.outcome.state.store)
include hstep

theorem listenerSteps_threaded {systems : List System} {event : Event}
    (h : ∀ system ∈ systems, system ∈ registry.listeners event.name) {world : World}
    (hi : I world.store) :
    Threaded (Prepared registry roster I) world (listenerSteps roster event world systems) := by
  induction systems generalizing world with
  | nil => trivial
  | cons system rest ih =>
    have hfirst : Threaded (Prepared registry roster I) world
        (offerSteps roster event world system) :=
      offerSteps_threaded (h system (List.mem_cons_self ..)) hi
    exact threaded_append.mpr ⟨hfirst,
      ih (fun other ho => h other (List.mem_cons_of_mem _ ho)) (hfirst.leave hstep hi)⟩

theorem deliverySteps_threaded {world : World} (hi : I world.store) (event : Event) :
    Threaded (Prepared registry roster I) world
      (deliverySteps registry roster world event) := by
  unfold deliverySteps
  refine ⟨trivial, ?_⟩
  cases hl : registry.listeners event.name with
  | nil => exact ⟨trivial, trivial⟩
  | cons system rest => exact listenerSteps_threaded hstep (fun other ho => hl ▸ ho) hi

theorem roundSteps_threaded {world : World} (hi : I world.store) (events : List Event) :
    Threaded (Prepared registry roster I) world (roundSteps registry roster world events) := by
  induction events generalizing world with
  | nil => trivial
  | cons event rest ih =>
    have hfirst := deliverySteps_threaded hstep hi event
    exact threaded_append.mpr ⟨hfirst, ih (hfirst.leave hstep hi)⟩

theorem drainRounds_threaded (limit : Nat) (stream : Stream Event) {p : Progress}
    (hi : I p.store) :
    Threaded (Prepared registry roster I) p.toWorld
      (drainRounds registry roster limit stream p).flatten := by
  induction limit generalizing stream p with
  | zero => simp [Threaded]
  | succ limit ih =>
    by_cases he : stream.pending = []
    · simp [drainRounds_nil he, Threaded]
    · rw [drainRounds_succ he]
      have hround := roundSteps_threaded hstep hi stream.pending
      exact threaded_append.mpr
        ⟨hround, ih _ (p := (p.addRounds 1).record _) (hround.leave hstep hi)⟩

/-- When every run keeps the stores of the wanted kind, every run was prepared in one of them. -/
theorem rounds_prepared {world : World} (hi : I world.store) (limit : Nat) (event : Event) :
    Threaded (Prepared registry roster I) world
      (rounds registry roster limit world event).flatten :=
  drainRounds_threaded hstep limit _ (p := { toWorld := world }) hi

end

theorem rounds_threaded (registry : Registry) (roster : Roster) (limit : Nat) (world : World)
    (event : Event) :
    Threaded (Registered registry) world (rounds registry roster limit world event).flatten :=
  Threaded.imp (fun _ hc => hc.registered)
    (rounds_prepared (I := fun _ => True) (fun _ _ _ => trivial) trivial limit event)

/-- A dispatch that drains leaves the store that its steps leave. -/
theorem dispatch_store {registry : Registry} {roster : Roster} {limit : Nat} {world : World}
    {event : Event} {p : Progress} (h : dispatch registry roster limit world event = some p) :
    p.store = (leave world (rounds registry roster limit world event).flatten).store := by
  obtain ⟨cs, hd⟩ := drain_start h
  rw [hd.progress]
  rfl

/-! ### The events behind the runs -/

/-- Every run is one for a delivered event. -/
def Heard (steps : List Step) : Prop :=
  ∀ c, .called c ∈ steps → c.context.event ∈ delivers steps

theorem heard_append {xs ys : List Step} (hx : Heard xs) (hy : Heard ys) : Heard (xs ++ ys) := by
  intro c hc
  rw [delivers_append]
  rcases List.mem_append.mp hc with hm | hm
  · exact List.mem_append_left _ (hx c hm)
  · exact List.mem_append_right _ (hy c hm)

theorem callSteps_context {system : System} {context : EventContext} {world : World}
    {ts : List Target} {c : Call} (h : .called c ∈ callSteps system context world ts) :
    c.context = context := by
  induction ts generalizing world with
  | nil => cases h
  | cons t rest ih =>
    rcases List.mem_cons.mp h with heq | hm
    · cases heq
      rfl
    · exact ih hm

theorem offerSteps_event {roster : Roster} {event : Event} {world : World} {system : System}
    {c : Call} (h : .called c ∈ offerSteps roster event world system) :
    c.context.event = event := by
  unfold offerSteps at h
  rcases List.mem_cons.mp h with heq | hm
  · cases heq
  · cases hmis : system.declaration.event.mismatch? event with
    | some reason => simp [hmis] at hm
    | none =>
      cases hp : Progress.prepare world.store system event with
      | error err => simp [hmis, hp] at hm
      | ok bound =>
        simp only [hmis, hp] at hm
        rw [callSteps_context hm]

theorem listenerSteps_event {roster : Roster} {event : Event} {world : World}
    {systems : List System} {c : Call}
    (h : .called c ∈ listenerSteps roster event world systems) : c.context.event = event := by
  induction systems generalizing world with
  | nil => cases h
  | cons system rest ih =>
    rcases List.mem_append.mp h with hm | hm
    · exact offerSteps_event hm
    · exact ih hm

theorem deliverySteps_heard (registry : Registry) (roster : Roster) (world : World)
    (event : Event) : Heard (deliverySteps registry roster world event) := by
  intro c hc
  rw [delivers_deliverySteps, List.mem_singleton]
  unfold deliverySteps at hc
  rcases List.mem_cons.mp hc with heq | hm
  · cases heq
  · cases hl : registry.listeners event.name with
    | nil => simp [hl] at hm
    | cons system rest =>
      rw [hl] at hm
      exact listenerSteps_event hm

theorem roundSteps_heard (registry : Registry) (roster : Roster) (world : World)
    (events : List Event) : Heard (roundSteps registry roster world events) := by
  induction events generalizing world with
  | nil => exact fun _ hc => by cases hc
  | cons event rest ih =>
    exact heard_append (deliverySteps_heard registry roster world event) (ih _)

theorem drainRounds_heard (registry : Registry) (roster : Roster) (limit : Nat)
    (stream : Stream Event) (p : Progress) :
    Heard (drainRounds registry roster limit stream p).flatten := by
  have hnil : Heard [] := fun _ hc => by cases hc
  induction limit generalizing stream p with
  | zero => simpa using hnil
  | succ limit ih =>
    by_cases he : stream.pending = []
    · simpa [drainRounds_nil he] using hnil
    · rw [drainRounds_succ he]
      exact heard_append (roundSteps_heard registry roster p.toWorld stream.pending) (ih _ _)

theorem rounds_heard (registry : Registry) (roster : Roster) (limit : Nat) (world : World)
    (event : Event) : Heard (rounds registry roster limit world event).flatten :=
  drainRounds_heard registry roster limit _ { toWorld := world }

end SceneScript.Dispatch
