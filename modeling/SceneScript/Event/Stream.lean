/-! # Double-buffered streams

Two buffers that change roles: one takes new events while the other one is being delivered. What is
sent during a round is therefore seen in the next one.
-/
namespace SceneScript

structure Stream (α : Type) where
  first : List α := []
  second : List α := []
  /-- Whether the first buffer takes new events. -/
  firstActive : Bool := true
  deriving Repr

namespace Stream
variable {α : Type}

/-- The buffer that takes new events. -/
def pending (s : Stream α) : List α := if s.firstActive then s.first else s.second

/-- The round that is being delivered. -/
def stable (s : Stream α) : List α := if s.firstActive then s.second else s.first

def extend (s : Stream α) (events : List α) : Stream α :=
  if s.firstActive then { s with first := s.first ++ events }
  else { s with second := s.second ++ events }

def send (s : Stream α) (event : α) : Stream α := s.extend [event]

/-- Let the buffers change roles. What was still to be delivered is dropped. -/
def swap (s : Stream α) : Stream α :=
  if s.firstActive then { s with second := [], firstActive := false }
  else { s with first := [], firstActive := true }

def takeRound (s : Stream α) : List α × Stream α :=
  (s.stable, if s.firstActive then { s with second := [] } else { s with first := [] })

@[simp] theorem extend_nil (s : Stream α) : s.extend [] = s := by
  unfold extend
  split <;> simp

@[simp] theorem extend_extend (s : Stream α) (xs ys : List α) :
    (s.extend xs).extend ys = s.extend (xs ++ ys) := by
  cases h : s.firstActive <;> simp [extend, h]

@[simp] theorem pending_extend (s : Stream α) (xs : List α) :
    (s.extend xs).pending = s.pending ++ xs := by
  cases h : s.firstActive <;> simp [extend, pending, h]

@[simp] theorem stable_extend (s : Stream α) (xs : List α) : (s.extend xs).stable = s.stable := by
  cases h : s.firstActive <;> simp [extend, stable, h]

@[simp] theorem stable_swap (s : Stream α) : s.swap.stable = s.pending := by
  cases h : s.firstActive <;> simp [swap, stable, pending, h]

@[simp] theorem pending_swap (s : Stream α) : s.swap.pending = [] := by
  cases h : s.firstActive <;> simp [swap, pending, h]

@[simp] theorem takeRound_fst (s : Stream α) : s.takeRound.1 = s.stable := rfl

@[simp] theorem stable_takeRound (s : Stream α) : s.takeRound.2.stable = [] := by
  cases h : s.firstActive <;> simp [takeRound, stable, h]

@[simp] theorem pending_takeRound (s : Stream α) : s.takeRound.2.pending = s.pending := by
  cases h : s.firstActive <;> simp [takeRound, pending, h]

end Stream
end SceneScript
