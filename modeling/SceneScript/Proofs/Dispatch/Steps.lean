import Mathlib.Data.List.Basic
import SceneScript.Proofs.System.Registry
import SceneScript.System.Dispatch

/-! # The steps of a dispatch

What a dispatch does is written down as a list of steps: every event that is delivered, every
listener it is offered to, and every run of a system together with the world it starts from. The
functions of the dispatcher answer exactly what their steps emit and leave behind exactly what
their steps record, for systems of any kind.
-/
namespace SceneScript.Dispatch
open Error (quoted)

/-- What a system is run for: one matched entity, or all of them at once. -/
inductive Target where
  | one (b : Binding)
  | all (m : Matching)

def targets (s : System) (m : Matching) : List Target :=
  match s.behaviour with
  | .perEntity _ => m.bindings.map .one
  | .batch _ => [.all m]

def invocation (s : System) (t : Target) (c : EventContext) : Invocation :=
  match s.behaviour, t with
  | .perEntity run, .one b => run s.declaration b c
  | .batch run, .all m => run s.declaration m c
  | _, _ => pure []

def failureTitle (s : System) : Target → String
  | .one b => "System " ++ quoted s.name ++ " failed for entity " ++ b.entity.text
  | .all _ => "System " ++ quoted s.name ++ " failed"

/-- One run of a system, with the world that it starts from. -/
structure Call where
  system : System
  target : Target
  context : EventContext
  before : World

namespace Call

def outcome (c : Call) : Outcome String World (List Event) :=
  invocation c.system c.target c.context c.before

def emitted (c : Call) : List Event :=
  match c.outcome.result with
  | .ok events => events
  | .error _ => []

def failed (c : Call) : Bool :=
  match c.outcome.result with
  | .ok _ => false
  | .error _ => true

def log (c : Call) : List LogRecord :=
  match c.outcome.result with
  | .ok _ => c.outcome.log
  | .error message =>
    c.outcome.log ++ [⟨.error, failureTitle c.system c.target ++ ": " ++ message⟩]

end Call

inductive Step where
  | delivered (event : Event)
  | unheard (event : Event)
  | offered (event : Event) (system : System)
  | skipped (event : Event) (system : System) (reason : String)
  | unbound (event : Event) (system : System) (err : Error)
  | called (call : Call)

namespace Step

def delivers : Step → List Event
  | .delivered event => [event]
  | _ => []

def emits : Step → List Event
  | .called call => call.emitted
  | _ => []

def leave (world : World) : Step → World
  | .called call => call.outcome.state
  | _ => world

def isCall : Step → Bool
  | .called _ => true
  | _ => false

/-- Failed runs, and listeners that could not be bound. -/
def isFailure : Step → Bool
  | .called call => call.failed
  | .unbound .. => true
  | _ => false

def log : Step → List LogRecord
  | .unheard event => [⟨.debug, "No system listens to event " ++ quoted event.name⟩]
  | .skipped event system reason =>
    [⟨.warn, "System " ++ quoted system.name ++ " skipped event " ++ quoted event.name ++ ": " ++
      reason⟩]
  | .unbound event system err =>
    [⟨.error, "System " ++ quoted system.name ++ " could not handle event " ++
      quoted event.name ++ ": " ++ err.message⟩]
  | .called call => call.log
  | _ => []

end Step

def delivers (steps : List Step) : List Event := steps.flatMap Step.delivers

def emits (steps : List Step) : List Event := steps.flatMap Step.emits

def leave (world : World) (steps : List Step) : World := steps.foldl Step.leave world

@[simp] theorem delivers_nil : delivers [] = [] := rfl
@[simp] theorem emits_nil : emits [] = [] := rfl
@[simp] theorem leave_nil (world : World) : leave world [] = world := rfl

@[simp] theorem delivers_cons (x : Step) (xs : List Step) :
    delivers (x :: xs) = x.delivers ++ delivers xs := rfl

@[simp] theorem emits_cons (x : Step) (xs : List Step) : emits (x :: xs) = x.emits ++ emits xs :=
  rfl

@[simp] theorem leave_cons (world : World) (x : Step) (xs : List Step) :
    leave world (x :: xs) = leave (x.leave world) xs := rfl

@[simp] theorem delivers_append (xs ys : List Step) :
    delivers (xs ++ ys) = delivers xs ++ delivers ys := List.flatMap_append

@[simp] theorem emits_append (xs ys : List Step) : emits (xs ++ ys) = emits xs ++ emits ys :=
  List.flatMap_append

@[simp] theorem leave_append (world : World) (xs ys : List Step) :
    leave world (xs ++ ys) = leave (leave world xs) ys := List.foldl_append

/-- The runs of a system, each from the world that the one before left. -/
def callSteps (system : System) (context : EventContext) : World → List Target → List Step
  | _, [] => []
  | world, t :: rest =>
    let call : Call := ⟨system, t, context, world⟩
    .called call :: callSteps system context call.outcome.state rest

/-- What offering an event to one listener does. -/
def offerSteps (roster : Roster) (event : Event) (world : World) (system : System) : List Step :=
  .offered event system ::
    match system.declaration.event.mismatch? event with
    | some reason => [.skipped event system reason]
    | none =>
      match Progress.prepare world.store system event with
      | .error err => [.unbound event system err]
      | .ok (groups, matching) =>
        callSteps system ⟨event, groups, roster⟩ world (targets system matching)

def listenerSteps (roster : Roster) (event : Event) : World → List System → List Step
  | _, [] => []
  | world, system :: rest =>
    offerSteps roster event world system ++
      listenerSteps roster event (leave world (offerSteps roster event world system)) rest

def deliverySteps (registry : Registry) (roster : Roster) (world : World) (event : Event) :
    List Step :=
  .delivered event ::
    match registry.listeners event.name with
    | [] => [.unheard event]
    | listeners => listenerSteps roster event world listeners

def roundSteps (registry : Registry) (roster : Roster) : World → List Event → List Step
  | _, [] => []
  | world, event :: rest =>
    deliverySteps registry roster world event ++
      roundSteps registry roster (leave world (deliverySteps registry roster world event)) rest

end SceneScript.Dispatch

namespace SceneScript.Progress
open Error (quoted)
open Dispatch

def record (p : Progress) (steps : List Step) : Progress where
  toWorld := leave p.toWorld steps
  report := { p.report with
    events := p.report.events + (delivers steps).length
    invocations := p.report.invocations + steps.countP Step.isCall
    failures := p.report.failures + steps.countP Step.isFailure }
  log := p.log ++ steps.flatMap Step.log

def addRounds (p : Progress) (n : Nat) : Progress :=
  { p with report := { p.report with rounds := p.report.rounds + n } }

@[simp] theorem addRounds_toWorld (p : Progress) (n : Nat) :
    (p.addRounds n).toWorld = p.toWorld := rfl

@[simp] theorem addRounds_zero (p : Progress) : p.addRounds 0 = p := rfl

/-- Rounds and steps are counted apart. -/
theorem record_addRounds (p : Progress) (m n : Nat) (xs ys : List Step) :
    (((p.addRounds m).record xs).record ys).addRounds n =
      (p.record (xs ++ ys)).addRounds (m + n) := by
  simp [record, addRounds, Nat.add_assoc]

@[simp] theorem record_nil (p : Progress) : p.record [] = p := by
  simp [record]

theorem record_append (p : Progress) (xs ys : List Step) :
    p.record (xs ++ ys) = (p.record xs).record ys := by
  simp [record, Nat.add_assoc]

theorem record_cons (p : Progress) (x : Step) (xs : List Step) :
    p.record (x :: xs) = (p.record [x]).record xs := p.record_append [x] xs

@[simp] theorem record_toWorld (p : Progress) (steps : List Step) :
    (p.record steps).toWorld = leave p.toWorld steps := rfl

theorem invoke_eq (p : Progress) (system : System) (t : Target) (context : EventContext) :
    p.invoke (failureTitle system t) (invocation system t context) =
      (Call.emitted ⟨system, t, context, p.toWorld⟩,
        p.record [.called ⟨system, t, context, p.toWorld⟩]) := by
  unfold invoke
  cases h : (invocation system t context p.toWorld).result <;>
    simp [record, Step.delivers, Step.isCall, Step.isFailure, Step.leave, Step.log,
      Call.emitted, Call.failed, Call.log, Call.outcome, addLog, addFailure, h]

theorem invokeEach_eq (p : Progress) {system : System} {context : EventContext}
    {run : Declaration → Binding → EventContext → Invocation}
    (hb : system.behaviour = .perEntity run) (bs : List Binding) :
    p.invokeEach system (fun b => run system.declaration b context) bs =
      (emits (callSteps system context p.toWorld (bs.map .one)),
        p.record (callSteps system context p.toWorld (bs.map .one))) := by
  induction bs generalizing p with
  | nil => simp [invokeEach, callSteps]
  | cons b rest ih =>
    have hr : run system.declaration b context = invocation system (.one b) context := by
      simp [invocation, hb]
    have hi := p.invoke_eq system (.one b) context
    simp only [failureTitle] at hi
    simp only [invokeEach, List.map_cons, callSteps]
    rw [hr, hi]
    simp only [ih]
    rw [p.record_cons _ (callSteps ..)]
    simp [Step.emits, Step.leave]

theorem offer_eq (p : Progress) (roster : Roster) (event : Event) (system : System) :
    p.offer roster event system =
      (emits (offerSteps roster event p.toWorld system),
        p.record (offerSteps roster event p.toWorld system)) := by
  unfold offer offerSteps
  cases hm : system.declaration.event.mismatch? event with
  | some reason =>
    simp [record, addLog, Step.emits, Step.leave, Step.delivers, Step.isCall, Step.isFailure,
      Step.log]
  | none =>
    cases hp : prepare p.store system event with
    | error err =>
      simp [record, addLog, addFailure, Step.emits, Step.leave, Step.delivers, Step.isCall,
        Step.isFailure, Step.log]
    | ok bound =>
      obtain ⟨groups, matching⟩ := bound
      have ho : p.record [.offered event system] = p := by
        simp [record, Step.leave, Step.delivers, Step.isCall, Step.isFailure, Step.log]
      rw [record_cons, ho]
      cases hb : system.behaviour with
      | perEntity run =>
        simp only [hb, targets, p.invokeEach_eq hb]
        simp [Step.emits]
      | batch run =>
        have hr : run system.declaration matching ⟨event, groups, roster⟩ =
            invocation system (.all matching) ⟨event, groups, roster⟩ := by
          simp [invocation, hb]
        have hi := p.invoke_eq system (.all matching) ⟨event, groups, roster⟩
        simp only [failureTitle] at hi
        simp only [hb, targets, hr, hi, callSteps]
        simp [Step.emits]

theorem offerEach_eq (p : Progress) (roster : Roster) (event : Event) (systems : List System) :
    p.offerEach roster event systems =
      (emits (listenerSteps roster event p.toWorld systems),
        p.record (listenerSteps roster event p.toWorld systems)) := by
  induction systems generalizing p with
  | nil => simp [offerEach, listenerSteps]
  | cons system rest ih =>
    simp only [offerEach, listenerSteps, offer_eq, ih, record_append]
    simp

theorem deliver_eq (p : Progress) (registry : Registry) (roster : Roster) (event : Event) :
    p.deliver registry roster event =
      (emits (deliverySteps registry roster p.toWorld event),
        p.record (deliverySteps registry roster p.toWorld event)) := by
  have hd : p.record [.delivered event] =
      { p with report := { p.report with events := p.report.events + 1 } } := by
    simp [record, Step.leave, Step.delivers, Step.isCall, Step.isFailure, Step.log]
  unfold deliver deliverySteps
  rw [record_cons, hd]
  cases hl : registry.listeners event.name with
  | nil =>
    simp [record, addLog, Step.emits, Step.leave, Step.delivers, Step.isCall, Step.isFailure,
      Step.log]
  | cons system rest => simp [offerEach_eq, Step.emits]

/-- A round leaves in the stream, behind what was queued before, all that its runs emitted. -/
theorem deliverRound_eq (p : Progress) (registry : Registry) (roster : Roster)
    (stream : Stream Event) (events : List Event) :
    p.deliverRound registry roster stream events =
      (stream.extend (emits (roundSteps registry roster p.toWorld events)),
        p.record (roundSteps registry roster p.toWorld events)) := by
  induction events generalizing p stream with
  | nil => simp [deliverRound, roundSteps]
  | cons event rest ih =>
    simp only [deliverRound, roundSteps, deliver_eq, ih, record_append]
    simp

end SceneScript.Progress
