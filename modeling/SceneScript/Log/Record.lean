/-! # Log records

A record is a message with a level, and a logger is told where the record comes from as well. Levels
are ordered by how much a filter has to let through before it shows them.
-/
namespace SceneScript

inductive LogLevel where
  | error
  | warn
  | info
  | debug
  | trace
  deriving DecidableEq, Repr

namespace LogLevel

def all : List LogLevel := [error, warn, info, debug, trace]

def name : LogLevel → String
  | error => "ERROR"
  | warn => "WARN"
  | info => "INFO"
  | debug => "DEBUG"
  | trace => "TRACE"

def ofName? (name : String) : Option LogLevel := all.find? fun level => level.name == name

/-- The number of levels that are at least as severe. -/
def rank : LogLevel → Nat
  | error => 1
  | warn => 2
  | info => 3
  | debug => 4
  | trace => 5

end LogLevel

/-- What is logged. -/
structure LogRecord where
  level : LogLevel
  message : String
  deriving DecidableEq, Repr

/-- What a logger receives. -/
structure LogMessage extends LogRecord where
  /-- The part of the program that logs. -/
  target : String
  deriving DecidableEq, Repr

end SceneScript
