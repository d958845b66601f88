import SceneScript.Action
import SceneScript.Entity.FreeIds
import SceneScript.Entity.Signature
import SceneScript.Error

/-! # The roster of entities

Which entities are alive, what components each of them has, and how often each number was given up:
three stores, of which the last two are vectors with a place for every number that was ever alive. A
new entity gets the lowest free number, and a number that is given up gets the next generation. The
vectors are read and written at live numbers only. Beyond the end of a vector a read would find
nothing and a write would do nothing.
-/
namespace SceneScript

structure Roster where
  /-- The generations, by number. -/
  generations : Array Generation := #[]
  /-- The numbers that are alive. -/
  live : BitSet := []
  /-- The components, by number. They are cleared when a number is given up. -/
  signatures : Array Signature := #[]
  /-- The numbers below `nextId` that are not alive. -/
  free : FreeIds := []
  /-- The lowest number that was neither handed out nor skipped. -/
  nextId : Nat := 0
  /-- How many entities are alive. -/
  count : Nat := 0
  deriving Repr

namespace Roster

/-- Numbers from here on cannot be asked for. -/
def limit : UInt32 := 16777216

def isAlive (r : Roster) (e : Entity) : Bool := BitSet.contains r.live e.index

def alive (r : Roster) : List Entity := r.live.map fun n => ⟨UInt32.ofNat n⟩

/-- The components of a live entity. -/
def signature? (r : Roster) (e : Entity) : Option Signature :=
  if r.isAlive e then r.signatures[e.index]? else none

def hasComponent (r : Roster) (e : Entity) (id : ComponentId) : Bool :=
  match r.signature? e with
  | some signature => signature.contains id
  | none => false

/-- A vector cut off or filled up to a length. -/
def resize {α : Type} (xs : Array α) (n : Nat) (x : α) : Array α :=
  Array.ofFn fun i : Fin n => xs[i]?.getD x

/-- Make a place for a number, if it has none. -/
def grow (r : Roster) (n : Nat) : Roster :=
  if n < r.generations.size then r
  else { r with
    generations := resize r.generations (n + 1) Generation.first
    signatures := resize r.signatures (n + 1) [] }

/-- Bring a number to life, with the generation and the components that its places hold. -/
def activate (r : Roster) (e : Entity) : Roster :=
  let r := r.grow e.index
  { r with
    live := r.live.add e.index
    count := r.count + 1 }

/-- Create an entity with the lowest free number, or else the next new one. -/
def create (r : Roster) : Entity × Roster :=
  match r.free.takeLowest? with
  | some (id, free) =>
    let e : Entity := ⟨UInt32.ofNat id⟩
    (e, { r with free := free }.activate e)
  | none =>
    let e : Entity := ⟨UInt32.ofNat r.nextId⟩
    (e, { r with nextId := r.nextId + 1 }.activate e)

def createMany (r : Roster) : Nat → List Entity × Roster
  | 0 => ([], r)
  | n + 1 =>
    let (e, r) := r.create
    let (rest, r) := r.createMany n
    (e :: rest, r)

/-- Create an entity with a given number. The numbers that a high one skips become free. -/
def createAt (r : Roster) (e : Entity) : Except Error Roster :=
  if limit ≤ e.id then .error (.entityOutOfRange e limit)
  else if r.isAlive e then .error (.entityAlreadyAlive e)
  else if r.nextId ≤ e.index then
    let grown := { r with
      free := r.free ++ FreeIds.ofRun r.nextId e.index
      nextId := e.index + 1 }
    .ok (grown.activate e)
  else .ok ({ r with free := r.free.take e.index }.activate e)

/-- Give up a live entity: its components are cleared, its number becomes free and moves to the next
generation. -/
def release (r : Roster) (e : Entity) : Except Error Roster :=
  if r.isAlive e then
    .ok { r with
      live := r.live.drop e.index
      signatures := r.signatures.modify e.index fun _ => []
      generations := r.generations.modify e.index Generation.next
      free := r.free.give e.index
      count := r.count - 1 }
  else .error (.unknownEntity e)

/-- Give up an entity. A warning is logged when it is not alive. -/
def destroy (e : Entity) : Action Error Roster Unit := fun r =>
  match r.release e with
  | .ok r' => ⟨.ok (), r', []⟩
  | .error err => ⟨.error err, r, [⟨.warn, "Attempted to destroy unknown entity " ++ e.text⟩]⟩

/-- Add a component to the signature of a live entity, or take it out. -/
def setBit (r : Roster) (e : Entity) (id : ComponentId) (present : Bool) :
    Except Error Roster :=
  if r.isAlive e then
    .ok { r with signatures := r.signatures.modify e.index fun s => s.put id present }
  else .error (.unknownEntity e)

/-- The generation of a number that was ever alive. -/
def generation? (r : Roster) (e : Entity) : Option Generation := r.generations[e.index]?

/-- The reference of a live entity. -/
def ref? (r : Roster) (e : Entity) : Option EntityRef :=
  if r.isAlive e then (r.generation? e).map (⟨e, ·⟩) else none

/-- A reference to an entity, empty when it is not alive. -/
def refOrEmpty (r : Roster) (e : Entity) : EntityRef := (r.ref? e).getD .empty

/-- The live entity of a reference, unless it was given up after the reference was taken. -/
def resolve? (r : Roster) (ref : EntityRef) : Option Entity :=
  match ref.entity? with
  | none => none
  | some e =>
    if r.isAlive e ∧ r.generation? e = some ref.generation then some e else none

end Roster
end SceneScript
