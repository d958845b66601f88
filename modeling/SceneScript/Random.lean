/-! # Sources of integers

Which integer of a range is drawn is not part of the language. A source tells what every draw gives,
and nothing more is known of it than that it stays within the range it is asked for.
-/
namespace SceneScript

/-- What all draws to come give. -/
structure Random where
  /-- The integer of a range that a draw gives, by the number of draws before it. -/
  draw : Nat → Int64 → Int64 → Int64
  within : ∀ n low high, low ≤ high → low ≤ draw n low high ∧ draw n low high ≤ high

namespace Random

/-- The source behind its next draw. -/
def rest (r : Random) : Random := ⟨fun n => r.draw (n + 1), fun n => r.within (n + 1)⟩

/-- Draw an integer from `low` to `high`, both included. -/
def between (r : Random) (low high : Int64) : Int64 × Random := (r.draw 0 low high, r.rest)

/-- The source of which every draw gives the lowest integer. -/
def lowest : Random := ⟨fun _ low _ => low, fun _ low _ h => ⟨Int64.le_refl low, h⟩⟩

end Random
end SceneScript
