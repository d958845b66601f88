/-! # Free numbers

The numbers that were skipped or given back, as ascending runs. A run keeps a large gap small: one
pair stands for all numbers from its start up to below its end.
-/
namespace SceneScript

/-- Disjoint runs in ascending order, none of them empty. -/
abbrev FreeIds := List (Nat × Nat)

namespace FreeIds

def contains (free : FreeIds) (n : Nat) : Bool := free.any fun run => run.1 ≤ n && n < run.2

/-- A run as a list of runs; an empty run is none. -/
def ofRun (start stop : Nat) : FreeIds := if start < stop then [(start, stop)] else []

def takeLowest? : FreeIds → Option (Nat × FreeIds)
  | [] => none
  | (start, stop) :: rest => some (start, ofRun (start + 1) stop ++ rest)

/-- Take a given number out of the run that holds it. -/
def take (free : FreeIds) (n : Nat) : FreeIds :=
  free.flatMap fun run =>
    if run.1 ≤ n ∧ n < run.2 then ofRun run.1 n ++ ofRun (n + 1) run.2 else [run]

/-- Give a number back that is not free. -/
def give (free : FreeIds) (n : Nat) : FreeIds :=
  match free with
  | [] => [(n, n + 1)]
  | (start, stop) :: rest =>
    if n < start then (n, n + 1) :: (start, stop) :: rest
    else (start, stop) :: FreeIds.give rest n

end FreeIds
end SceneScript
