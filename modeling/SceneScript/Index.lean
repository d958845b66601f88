import SceneScript.System.Basic

/-! # The declaration index

Every component, event and system that was declared. A component keeps its first declaration, an
event must keep its form, and a system can be declared once.
-/
namespace SceneScript
open Error (quoted)

structure Index where
  components : List ComponentDescription
  events : List EventDescription
  systems : List System

namespace Index

def initial : Index := ⟨[.tag, .transform], [.tick], []⟩

/-- Forget every declaration but the built-in ones. -/
def reset : Action Error Index Unit := Action.set initial

def component? (i : Index) (name : String) : Option ComponentDescription :=
  i.components.find? fun d => d.name == name

def event? (i : Index) (name : String) : Option EventDescription :=
  i.events.find? fun d => d.name == name

def system? (i : Index) (name : String) : Option System :=
  i.systems.find? fun s => s.name == name

def transform? (i : Index) : Option ComponentDescription := i.component? "Transform"

/-- The description of a component, or the error for an unknown name. -/
def component (i : Index) (name : String) : Except Error ComponentDescription :=
  match i.component? name with
  | some d => .ok d
  | none => .error (.unknownComponent name)

/-- Declare a component. The answer is the description that the name has. -/
def registerComponent (d : ComponentDescription) : Action Error Index ComponentDescription := do
  let i ← Action.get
  match i.component? d.name with
  | some known => return known
  | none =>
    Action.log .debug ("Declared component " ++ quoted d.name)
    Action.set { i with components := i.components ++ [d] }
    return d

/-- Declare an event. Declaring the same form again does nothing. -/
def registerEvent (d : EventDescription) : Action Error Index Unit := do
  let i ← Action.get
  match i.event? d.name with
  | some known => if known = d then return () else Action.fail (.conflictingEvent d.name)
  | none =>
    Action.log .debug ("Declared event " ++ quoted d.name)
    Action.set { i with events := i.events ++ [d] }

/-- The first name in a list that is no component. -/
def unknownComponent? (i : Index) (names : List String) : Option String :=
  names.find? fun name => (i.component? name).isNone

def registerSystem (s : System) : Action Error Index Unit := do
  let i ← Action.get
  if (i.system? s.name).isSome then Action.fail (.duplicateSystem s.name)
  match i.unknownComponent? s.declaration.components with
  | some name => Action.fail (.unknownComponent name)
  | none =>
    registerEvent s.declaration.event
    Action.log .debug ("Declared system " ++ quoted s.name)
    Action.modify fun i => { i with systems := i.systems ++ [s] }

end Index
end SceneScript
