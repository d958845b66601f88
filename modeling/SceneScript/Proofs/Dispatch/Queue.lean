import Mathlib.Logic.Function.Iterate
import SceneScript.Proofs.Dispatch.Steps

/-! # A cascade as one queue

The reference for a dispatch is a single queue: the event in front is taken out and offered to its
listeners in the order of registration, and whatever a run emits goes to the end at once. Each
waiting event carries the events that led to it, so the queue knows the chain of emissions behind
every delivery. The round loop with its two buffers takes the same steps in the same order, and
its rounds are the levels of these chains.
-/
namespace SceneScript.Dispatch

/-- An event that waits, with the chain of events that led to it, the latest first. -/
structure Pending where
  event : Event
  causes : List Event

/-- The chain of emissions that ends in the event. -/
def Pending.chain (w : Pending) : List Event := w.event :: w.causes

structure Queue where
  waiting : List Pending
  world : World
  /-- What was done so far. -/
  steps : List Step := []
  /-- The chain of every delivered event, in the order of delivery. -/
  chains : List (List Event) := []

namespace Queue

def start (world : World) (event : Event) : Queue := { waiting := [⟨event, []⟩], world := world }

def note (q : Queue) (step : Step) : Queue := { q with steps := q.steps ++ [step] }

/-- Run a system for a target. The events of a run that did not fail go to the end. -/
def run (w : Pending) (system : System) (context : EventContext) (q : Queue) (t : Target) :
    Queue :=
  let call : Call := ⟨system, t, context, q.world⟩
  { q with
    waiting := q.waiting ++ call.emitted.map fun event => ⟨event, w.chain⟩
    world := call.outcome.state
    steps := q.steps ++ [.called call] }

def offer (roster : Roster) (w : Pending) (q : Queue) (system : System) : Queue :=
  let q := q.note (.offered w.event system)
  match system.declaration.event.mismatch? w.event with
  | some reason => q.note (.skipped w.event system reason)
  | none =>
    match Progress.prepare q.world.store system w.event with
    | .error err => q.note (.unbound w.event system err)
    | .ok (groups, matching) =>
      (targets system matching).foldl (run w system ⟨w.event, groups, roster⟩) q

def next (registry : Registry) (roster : Roster) (q : Queue) : Queue :=
  match q.waiting with
  | [] => q
  | w :: rest =>
    let q := { q with waiting := rest, chains := q.chains ++ [w.chain] }.note (.delivered w.event)
    match registry.listeners w.event.name with
    | [] => q.note (.unheard w.event)
    | listeners => listeners.foldl (offer roster w) q

/-- The queue after some steps of the delivery of an event. -/
def after (q : Queue) (w : Pending) (steps : List Step) : Queue :=
  { q with
    waiting := q.waiting ++ (emits steps).map fun event => ⟨event, w.chain⟩
    world := leave q.world steps
    steps := q.steps ++ steps }

theorem after_append (q : Queue) (w : Pending) (xs ys : List Step) :
    q.after w (xs ++ ys) = (q.after w xs).after w ys := by
  simp [after]

theorem after_cons (q : Queue) (w : Pending) (x : Step) (xs : List Step) :
    q.after w (x :: xs) = (q.after w [x]).after w xs := q.after_append w [x] xs

theorem foldl_run (w : Pending) (system : System) (context : EventContext) (q : Queue)
    (ts : List Target) :
    ts.foldl (run w system context) q = q.after w (callSteps system context q.world ts) := by
  induction ts generalizing q with
  | nil => simp [callSteps, after]
  | cons t rest ih =>
    have hr : run w system context q t = q.after w [.called ⟨system, t, context, q.world⟩] := by
      simp [run, after, Step.emits, Step.leave]
    simp only [List.foldl_cons, callSteps, ih]
    rw [hr, q.after_cons w _ (callSteps ..)]
    simp [after, Step.leave]

theorem offer_eq (roster : Roster) (w : Pending) (q : Queue) (system : System) :
    q.offer roster w system = q.after w (offerSteps roster w.event q.world system) := by
  have ho : q.note (.offered w.event system) = q.after w [.offered w.event system] := by
    simp [note, after, Step.emits, Step.leave]
  unfold offer offerSteps
  rw [after_cons, ← ho]
  cases system.declaration.event.mismatch? w.event with
  | some reason => simp [note, after, Step.emits, Step.leave]
  | none =>
    have hs : (q.note (.offered w.event system)).world = q.world := rfl
    simp only [hs]
    cases Progress.prepare q.world.store system w.event with
    | error err => simp [note, after, Step.emits, Step.leave]
    | ok bound =>
      simp only [foldl_run]
      rfl

theorem foldl_offer (roster : Roster) (w : Pending) (q : Queue) (systems : List System) :
    systems.foldl (offer roster w) q =
      q.after w (listenerSteps roster w.event q.world systems) := by
  induction systems generalizing q with
  | nil => simp [listenerSteps, after]
  | cons system rest ih =>
    simp only [List.foldl_cons, listenerSteps, offer_eq, ih, after_append]
    rfl

theorem next_eq (registry : Registry) (roster : Roster) {q : Queue} {w : Pending}
    {rest : List Pending} (hw : q.waiting = w :: rest) :
    q.next registry roster =
      { q with waiting := rest, chains := q.chains ++ [w.chain] }.after w
        (deliverySteps registry roster q.world w.event) := by
  simp only [next, hw, deliverySteps]
  cases registry.listeners w.event.name with
  | nil => simp [note, after, Step.emits, Step.leave]
  | cons system others =>
    simp only [foldl_offer]
    simp [note, after, Step.emits, Step.leave]

end Queue

theorem delivers_callSteps (system : System) (context : EventContext) (world : World)
    (ts : List Target) : delivers (callSteps system context world ts) = [] := by
  induction ts generalizing world with
  | nil => rfl
  | cons t rest ih => simp [callSteps, Step.delivers, ih]

theorem delivers_offerSteps (roster : Roster) (event : Event) (world : World) (system : System) :
    delivers (offerSteps roster event world system) = [] := by
  unfold offerSteps
  cases system.declaration.event.mismatch? event with
  | some reason => rfl
  | none =>
    cases Progress.prepare world.store system event with
    | error err => rfl
    | ok bound => simp [Step.delivers, delivers_callSteps]

theorem delivers_listenerSteps (roster : Roster) (event : Event) (world : World)
    (systems : List System) : delivers (listenerSteps roster event world systems) = [] := by
  induction systems generalizing world with
  | nil => rfl
  | cons system rest ih => simp [listenerSteps, delivers_offerSteps, ih]

/-- The delivery of an event delivers it once, and nothing else. -/
@[simp] theorem delivers_deliverySteps (registry : Registry) (roster : Roster) (world : World)
    (event : Event) : delivers (deliverySteps registry roster world event) = [event] := by
  unfold deliverySteps
  cases registry.listeners event.name with
  | nil => rfl
  | cons system rest => simp [Step.delivers, delivers_listenerSteps]

@[simp] theorem delivers_roundSteps (registry : Registry) (roster : Roster) (world : World)
    (events : List Event) : delivers (roundSteps registry roster world events) = events := by
  induction events generalizing world with
  | nil => rfl
  | cons event rest ih => simp [roundSteps, ih]

/-- The steps of each round of the loop that `Progress.drain` runs, at the stream and the progress
that the loop itself has there. -/
def drainRounds (registry : Registry) (roster : Roster) (limit : Nat) (stream : Stream Event)
    (p : Progress) : List (List Step) :=
  let stream := stream.swap
  if stream.stable.isEmpty then []
  else
    match limit with
    | 0 => []
    | limit + 1 =>
      let (round, stream) := stream.takeRound
      let p := { p with report := { p.report with rounds := p.report.rounds + 1 } }
      roundSteps registry roster p.toWorld round ::
        (let (stream, p) := p.deliverRound registry roster stream round
        drainRounds registry roster limit stream p)

def rounds (registry : Registry) (roster : Roster) (limit : Nat) (world : World)
    (event : Event) : List (List Step) :=
  drainRounds registry roster limit (({} : Stream Event).send event) { toWorld := world }

section
variable {registry : Registry} {roster : Roster} {limit : Nat} {stream : Stream Event}
  {p : Progress}

theorem drain_nil (h : stream.pending = []) :
    Progress.drain registry roster limit stream p = some p := by
  cases limit <;> simp [Progress.drain, h]

theorem drain_zero (h : stream.pending ≠ []) :
    Progress.drain registry roster 0 stream p = none := by
  simp [Progress.drain, h]

/-- One round, and the loop from the stream and the progress behind it. -/
theorem drain_succ (h : stream.pending ≠ []) :
    Progress.drain registry roster (limit + 1) stream p =
      let steps := roundSteps registry roster p.toWorld stream.pending
      Progress.drain registry roster limit (stream.swap.takeRound.2.extend (emits steps))
        ((p.addRounds 1).record steps) := by
  simp only [Progress.drain, Stream.stable_swap, List.isEmpty_iff, h, ↓reduceIte,
    Progress.deliverRound_eq, Stream.takeRound_fst]
  rfl

theorem drainRounds_nil (h : stream.pending = []) :
    drainRounds registry roster limit stream p = [] := by
  cases limit <;> simp [drainRounds, h]

@[simp] theorem drainRounds_zero : drainRounds registry roster 0 stream p = [] := by
  simp [drainRounds]

theorem drainRounds_succ (h : stream.pending ≠ []) :
    drainRounds registry roster (limit + 1) stream p =
      let steps := roundSteps registry roster p.toWorld stream.pending
      steps :: drainRounds registry roster limit (stream.swap.takeRound.2.extend (emits steps))
        ((p.addRounds 1).record steps) := by
  simp only [drainRounds, Stream.stable_swap, List.isEmpty_iff, h, ↓reduceIte,
    Progress.deliverRound_eq, Stream.takeRound_fst]
  rfl

end

/-- The queue gets through the events of a round, which stand in front of `later`, in the steps
that the round takes. What they emit waits behind `later`, one emission further away. -/
theorem iterate_next_round (registry : Registry) (roster : Roster) {k : Nat}
    (ws later : List Pending) (q : Queue) (hq : q.waiting = ws ++ later)
    (hk : ∀ w ∈ ws, w.causes.length = k) :
    ∃ new : List Pending, ∃ cs : List (List Event),
      (Queue.next registry roster)^[ws.length] q =
        { waiting := later ++ new
          world := leave q.world (roundSteps registry roster q.world (ws.map Pending.event))
          steps := q.steps ++ roundSteps registry roster q.world (ws.map Pending.event)
          chains := q.chains ++ cs } ∧
      new.map Pending.event = emits (roundSteps registry roster q.world (ws.map Pending.event)) ∧
      (∀ w ∈ new, w.causes.length = k + 1) ∧
      cs = ws.map Pending.chain := by
  induction ws generalizing q later with
  | nil =>
    obtain ⟨waiting, world, steps, chains⟩ := q
    exact ⟨[], [], by simpa [roundSteps] using hq, rfl, by simp, rfl⟩
  | cons w ws ih =>
    have hd := Queue.next_eq registry roster hq
    let steps := deliverySteps registry roster q.world w.event
    let here : List Pending := (emits steps).map fun event => ⟨event, w.chain⟩
    have hw : (q.next registry roster).waiting = ws ++ (later ++ here) := by
      rw [hd]
      simp [Queue.after, here, steps]
    obtain ⟨new, cs, hn, he, hl, hc⟩ := ih (later ++ here) _ hw
      (fun v hv => hk v (List.mem_cons_of_mem _ hv))
    have hs : (q.next registry roster).world = leave q.world steps := by
      rw [hd]
      rfl
    have ht : (q.next registry roster).steps = q.steps ++ steps := by
      rw [hd]
      rfl
    have hch : (q.next registry roster).chains = q.chains ++ [w.chain] := by
      rw [hd]
      rfl
    rw [hs, ht, hch] at hn
    rw [hs] at he
    refine ⟨here ++ new, w.chain :: cs, ?_, ?_, ?_, ?_⟩
    · rw [List.length_cons, Function.iterate_succ_apply, hn]
      simp [roundSteps, steps]
    · simp [roundSteps, he, here, steps, Function.comp_def]
    · intro v hv
      rcases List.mem_append.mp hv with hv | hv
      · obtain ⟨event, _, rfl⟩ := List.mem_map.mp hv
        simp [Pending.chain, hk w (List.mem_cons_self ..)]
      · exact hl v hv
    · simp [hc]

end SceneScript.Dispatch
