import SceneScript.Log.Record

/-! # Routing of log records

A logger keeps the records that pass its filter, unless a capture is set as the sink: then they go
to that capture alone. Making a capture sets the sink, and dropping any capture clears it. Records
wait in a capture until it is read, and it shows everything read so far.
-/
namespace SceneScript

/-- What a capture received. -/
structure Capture where
  /-- The records that were read before. -/
  seen : List LogMessage := []
  /-- The records that wait to be read. -/
  waiting : List LogMessage := []
  deriving Repr

namespace Capture

def receive (c : Capture) (entry : LogMessage) : Capture :=
  { c with waiting := c.waiting ++ [entry] }

/-- Everything received so far, of which nothing waits any longer. -/
def read (c : Capture) : List LogMessage × Capture :=
  let seen := c.seen ++ c.waiting
  (seen, ⟨seen, []⟩)

end Capture

/-- A logger with all the captures that were ever made. -/
structure LogRouter where
  /-- Records of a higher rank are dropped. -/
  limit : Nat
  /-- What the logger itself received. -/
  received : List LogMessage := []
  /-- The captures in the order in which they were made. -/
  captures : List Capture := []
  /-- The capture that gets the next record. -/
  sink : Option Nat := none
  deriving Repr

namespace LogRouter

/-- The limit of a filter name; without a name it is the one of `info`. -/
def limitOf? (filter : Option String) : Option Nat :=
  match filter with
  | none => some LogLevel.info.rank
  | some "off" => some 0
  | some name => (LogLevel.ofName? name.toUpper).map LogLevel.rank

/-- Route one record. -/
def log (r : LogRouter) (entry : LogMessage) : LogRouter :=
  if r.limit < entry.level.rank then r
  else
    match r.sink with
    | some k => { r with captures := r.captures.modify k (·.receive entry) }
    | none => { r with received := r.received ++ [entry] }

/-- Make a capture, which becomes the sink. Its number is the count of captures made before. -/
def capture (r : LogRouter) : Nat × LogRouter :=
  (r.captures.length,
    { r with captures := r.captures ++ [{}], sink := some r.captures.length })

/-- Drop a capture. The sink is cleared whichever capture it was. -/
def drop (r : LogRouter) : LogRouter := { r with sink := none }

/-- Read a capture. -/
def read (r : LogRouter) (k : Nat) : List LogMessage × LogRouter :=
  ((r.captures.getD k {}).read.1, { r with captures := r.captures.modify k (·.read.2) })

/-- What a capture shows when it is read. -/
def messages (r : LogRouter) (k : Nat) : List LogMessage := (r.read k).1

def hasInfix (text part : List Char) : Bool :=
  part.isPrefixOf text ||
    match text with
    | [] => false
    | _ :: rest => hasInfix rest part

/-- Whether a capture received a record of a level with a text in its message. -/
def contains (r : LogRouter) (k : Nat) (level : LogLevel) (part : String) : Bool :=
  (r.messages k).any fun entry =>
    entry.level == level && hasInfix entry.message.toList part.toList

end LogRouter
end SceneScript
