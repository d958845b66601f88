/-! # Bit sets

The numbers of the bits that are set, in ascending order. A bit that was never reached is not set.
-/
namespace SceneScript

/-- Numbers in ascending order, each at most once. -/
abbrev BitSet := List Nat

namespace BitSet

def contains (s : BitSet) (n : Nat) : Bool := s.any (· == n)

def add (s : BitSet) (n : Nat) : BitSet :=
  match s with
  | [] => [n]
  | m :: rest =>
    if n < m then n :: m :: rest
    else if n = m then m :: rest
    else m :: BitSet.add rest n

def drop (s : BitSet) (n : Nat) : BitSet := s.filter (· != n)

def put (s : BitSet) (n : Nat) (present : Bool) : BitSet :=
  if present then BitSet.add s n else BitSet.drop s n

end BitSet
end SceneScript
