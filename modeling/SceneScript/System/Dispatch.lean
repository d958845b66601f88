import SceneScript.Event.Stream
import SceneScript.System.Basic

/-! # Dispatch

An event is delivered to its listeners, then the events they emitted are, round by round, until
none is left. A failing run is logged and counted and stops nothing; an event that does not fit a
listener's description is skipped for that listener.
-/
namespace SceneScript
open Error (quoted)

/-- What one dispatch did. -/
structure Report where
  rounds : Nat := 0
  events : Nat := 0
  invocations : Nat := 0
  failures : Nat := 0
  deriving DecidableEq, Repr

/-- The state of a dispatch. -/
structure Progress extends World where
  report : Report := {}
  log : List LogRecord := []

namespace Progress

def addLog (p : Progress) (level : LogLevel) (message : String) : Progress :=
  { p with log := p.log ++ [⟨level, message⟩] }

def addFailure (p : Progress) : Progress :=
  { p with report := { p.report with failures := p.report.failures + 1 } }

/-- Run a system once. A failure is logged under a title and gives no events. -/
def invoke (p : Progress) (title : String) (run : Invocation) : List Event × Progress :=
  let o := run p.toWorld
  let p := { p with
    toWorld := o.state
    report := { p.report with invocations := p.report.invocations + 1 }
    log := p.log ++ o.log }
  match o.result with
  | .ok events => (events, p)
  | .error message => ([], (p.addLog .error (title ++ ": " ++ message)).addFailure)

def invokeEach (p : Progress) (system : System) (run : Binding → Invocation) :
    List Binding → List Event × Progress
  | [] => ([], p)
  | b :: rest =>
    let title := "System " ++ quoted system.name ++ " failed for entity " ++ b.entity.text
    let (events, p) := p.invoke title (run b)
    let (more, p) := p.invokeEach system run rest
    (events ++ more, p)

/-- What a listener needs to be run: the bound groups of the event and the matched entities. -/
def prepare (store : Store) (system : System) (event : Event) :
    Except Error (List (String × Binding) × Matching) := do
  let groups ← system.declaration.event.bindGroups store event
  return (groups, ← Matching.of store system.declaration.components)

def offer (p : Progress) (roster : Roster) (event : Event) (system : System) :
    List Event × Progress :=
  match system.declaration.event.mismatch? event with
  | some reason =>
    ([], p.addLog .warn ("System " ++ quoted system.name ++ " skipped event " ++
      quoted event.name ++ ": " ++ reason))
  | none =>
    match prepare p.store system event with
    | .error err =>
      ([], (p.addLog .error ("System " ++ quoted system.name ++ " could not handle event " ++
        quoted event.name ++ ": " ++ err.message)).addFailure)
    | .ok (groups, matching) =>
      let context : EventContext := ⟨event, groups, roster⟩
      match system.behaviour with
      | .perEntity run =>
        p.invokeEach system (fun b => run system.declaration b context) matching.bindings
      | .batch run =>
        p.invoke ("System " ++ quoted system.name ++ " failed")
          (run system.declaration matching context)

def offerEach (p : Progress) (roster : Roster) (event : Event) :
    List System → List Event × Progress
  | [] => ([], p)
  | system :: rest =>
    let (events, p) := p.offer roster event system
    let (more, p) := p.offerEach roster event rest
    (events ++ more, p)

def deliver (p : Progress) (registry : Registry) (roster : Roster) (event : Event) :
    List Event × Progress :=
  let p := { p with report := { p.report with events := p.report.events + 1 } }
  match registry.listeners event.name with
  | [] => ([], p.addLog .debug ("No system listens to event " ++ quoted event.name))
  | listeners => p.offerEach roster event listeners

/-- Deliver the events of a round; what they cause is queued in the stream. -/
def deliverRound (p : Progress) (registry : Registry) (roster : Roster) (stream : Stream Event) :
    List Event → Stream Event × Progress
  | [] => (stream, p)
  | event :: rest =>
    let (emitted, p) := p.deliver registry roster event
    p.deliverRound registry roster (stream.extend emitted) rest

/-- Run rounds until the stream is empty. There is no result when it still is not after `limit`
rounds. -/
def drain (registry : Registry) (roster : Roster) (limit : Nat) (stream : Stream Event)
    (p : Progress) : Option Progress :=
  let stream := stream.swap
  if stream.stable.isEmpty then some p
  else
    match limit with
    | 0 => none
    | limit + 1 =>
      let (round, stream) := stream.takeRound
      let p := { p with report := { p.report with rounds := p.report.rounds + 1 } }
      let (stream, p) := p.deliverRound registry roster stream round
      drain registry roster limit stream p

end Progress

/-- Deliver an event and everything it leads to, in at most `limit` rounds. -/
def dispatch (registry : Registry) (roster : Roster) (limit : Nat) (world : World)
    (event : Event) : Option Progress :=
  Progress.drain registry roster limit (({} : Stream Event).send event) { toWorld := world }

end SceneScript
