import SceneScript.Component.Transform
import SceneScript.Error

/-! # Dense storage

A vector with one place for every entity number up to the highest that was ever stored. An entity
without a value has an empty place.
-/
namespace SceneScript

/-- Places by entity number. -/
abbrev Dense (α : Type) := Array (Option α)

namespace Dense
variable {α : Type}

def get? (d : Dense α) (e : Entity) : Option α := (d[e.index]?).join

def has (d : Dense α) (e : Entity) : Bool := (Dense.get? d e).isSome

/-- The vector with at least `n` places. -/
def grow (d : Dense α) (n : Nat) : Dense α := d ++ Array.replicate (n - d.size) none

/-- Put a value into the place of an entity. -/
def insert (d : Dense α) (e : Entity) (a : α) : Dense α :=
  (Dense.grow d (e.index + 1)).setIfInBounds e.index (some a)

/-- Empty the place of an entity. The vector does not shrink. -/
def remove (d : Dense α) (e : Entity) : Dense α := d.setIfInBounds e.index none

/-- The entities with a value, beginning at a number. -/
def entitiesFrom (n : Nat) : List (Option α) → List Entity
  | [] => []
  | place :: rest =>
    if place.isSome then ⟨UInt32.ofNat n⟩ :: entitiesFrom (n + 1) rest
    else entitiesFrom (n + 1) rest

def entities (d : Dense α) : List Entity := entitiesFrom 0 d.toList

def count (d : Dense α) : Nat := d.toList.countP Option.isSome

end Dense
end SceneScript
