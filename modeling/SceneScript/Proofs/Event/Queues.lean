import SceneScript.Event.Stream
import SceneScript.Proofs.Calls

/-! # A double buffer is a pair of queues

The two buffers of a stream change roles with every swap. Told apart by their roles they are two
queues, one of waiting events and one of events that are being delivered, and nothing that a stream
answers shows more than these. Every event that was sent either waits, or is being delivered, or
has left with a round. A round leaves when it is taken, and a swap drops the round that nobody took.
-/
namespace SceneScript

variable {α : Type}

/-- What is asked of a stream. -/
inductive StreamCall (α : Type) where
  | send (event : α)
  | extend (events : List α)
  | swap
  | takeRound
  | iter
  | count
  | isEmpty
  | pendingCount
  deriving DecidableEq

inductive StreamAnswer (α : Type) where
  | done
  | round (events : List α)
  | listing (events : List α)
  | number (n : Nat)
  | truth (b : Bool)

namespace StreamCall

/-- The events that come with a call. -/
def sent : StreamCall α → List α
  | send event => [event]
  | extend events => events
  | _ => []

end StreamCall

/-- The events of an answer that were taken out of the stream. -/
def StreamAnswer.taken : StreamAnswer α → List α
  | round events => events
  | _ => []

/-- One call to a stream. -/
def Stream.perform (s : Stream α) : StreamCall α → StreamAnswer α × Stream α
  | .send event => (.done, s.send event)
  | .extend events => (.done, s.extend events)
  | .swap => (.done, s.swap)
  | .takeRound => (.round s.takeRound.1, s.takeRound.2)
  | .iter => (.listing s.stable, s)
  | .count => (.number s.stable.length, s)
  | .isEmpty => (.truth s.stable.isEmpty, s)
  | .pendingCount => (.number s.pending.length, s)

/-- The events that are being delivered, and those that wait for the next round. -/
structure Queues (α : Type) where
  stable : List α := []
  pending : List α := []

namespace Queues

/-- One call to a pair of queues. -/
def perform (q : Queues α) : StreamCall α → StreamAnswer α × Queues α
  | .send event => (.done, { q with pending := q.pending ++ [event] })
  | .extend events => (.done, { q with pending := q.pending ++ events })
  | .swap => (.done, { stable := q.pending, pending := [] })
  | .takeRound => (.round q.stable, { q with stable := [] })
  | .iter => (.listing q.stable, q)
  | .count => (.number q.stable.length, q)
  | .isEmpty => (.truth q.stable.isEmpty, q)
  | .pendingCount => (.number q.pending.length, q)

/-! ### Where the events are -/

/-- The events that leave with a call: those of a round that is taken or dropped. -/
def leaving (q : Queues α) : StreamCall α → List α
  | .swap | .takeRound => q.stable
  | _ => []

/-- The events that leave during a sequence of calls, in order. -/
def departed (q : Queues α) : List (StreamCall α) → List α
  | [] => []
  | call :: calls => q.leaving call ++ departed (q.perform call).2 calls

/-- What leaves with a call, followed by what it leaves behind, is what was there, followed by what
came with it. -/
theorem perform_conserves (q : Queues α) (call : StreamCall α) :
    q.leaving call ++ (q.perform call).2.stable ++ (q.perform call).2.pending =
      q.stable ++ q.pending ++ call.sent := by
  cases call <;> simp [leaving, perform, StreamCall.sent]

/-- What has left, what is being delivered and what waits is what was sent, in the order of
sending. -/
theorem after_conserves (q : Queues α) (calls : List (StreamCall α)) :
    q.departed calls ++ (after perform q calls).stable ++ (after perform q calls).pending =
      q.stable ++ q.pending ++ calls.flatMap StreamCall.sent := by
  induction calls generalizing q with
  | nil => simp [departed, after]
  | cons call calls ih =>
    calc q.departed (call :: calls) ++ (after perform q (call :: calls)).stable ++
          (after perform q (call :: calls)).pending
        = q.leaving call ++ ((q.perform call).2.departed calls ++
            (after perform (q.perform call).2 calls).stable ++
              (after perform (q.perform call).2 calls).pending) := by
          simp only [departed, after, List.foldl_cons, List.append_assoc]
      _ = q.leaving call ++ (q.perform call).2.stable ++ (q.perform call).2.pending ++
            calls.flatMap StreamCall.sent := by
          rw [ih]
          simp only [List.append_assoc]
      _ = q.stable ++ q.pending ++ (call :: calls).flatMap StreamCall.sent := by
          rw [perform_conserves, List.flatMap_cons, List.append_assoc]

end Queues

/-! ### Rounds that are taken -/

namespace StreamCall

/-- A round is taken before the next swap. -/
def TakenFirst (calls : List (StreamCall α)) : Prop :=
  ∀ between after, calls = between ++ swap :: after → takeRound ∈ between

/-- Between any two swaps a round is taken. -/
def Separated (calls : List (StreamCall α)) : Prop :=
  ∀ before between after, calls = before ++ swap :: between ++ swap :: after →
    takeRound ∈ between

theorem takenFirst_nil : TakenFirst ([] : List (StreamCall α)) := by
  intro between after h
  simp at h

theorem takenFirst_cons {call : StreamCall α} {calls : List (StreamCall α)} :
    TakenFirst (call :: calls) ↔ call = takeRound ∨ call ≠ swap ∧ TakenFirst calls := by
  constructor
  · intro h
    by_cases ht : call = takeRound
    · exact .inl ht
    · refine .inr ⟨?_, fun between after hcalls => ?_⟩
      · rintro rfl
        exact absurd (h [] calls rfl) List.not_mem_nil
      · have hmem := h (call :: between) after (by rw [hcalls, List.cons_append])
        exact (List.mem_cons.mp hmem).resolve_left (Ne.symm ht)
  · intro h between after hcalls
    cases between with
    | nil =>
      obtain ⟨rfl, -⟩ := List.cons.inj hcalls
      rcases h with h | h
      · cases h
      · exact absurd rfl h.1
    | cons first between =>
      obtain ⟨rfl, rfl⟩ := List.cons.inj hcalls
      rcases h with rfl | ⟨-, h⟩
      · exact List.mem_cons_self ..
      · exact List.mem_cons_of_mem _ (h between after rfl)

theorem separated_nil : Separated ([] : List (StreamCall α)) := by
  intro before between after h
  simp at h

theorem separated_cons {call : StreamCall α} {calls : List (StreamCall α)} :
    Separated (call :: calls) ↔ (call = swap → TakenFirst calls) ∧ Separated calls := by
  constructor
  · intro h
    constructor
    · rintro rfl between after rfl
      exact h [] between after rfl
    · rintro before between after rfl
      exact h (call :: before) between after rfl
  · rintro ⟨hswap, h⟩ before between after hcalls
    cases before with
    | nil =>
      obtain ⟨rfl, rfl⟩ := List.cons.inj hcalls
      exact hswap rfl between after rfl
    | cons first before =>
      obtain ⟨rfl, rfl⟩ := List.cons.inj hcalls
      exact h before between after rfl

end StreamCall

namespace Queues
open StreamCall

/-- As long as no swap meets a round that nobody took, events leave only where they are taken. -/
theorem departed_eq_taken {q : Queues α} {calls : List (StreamCall α)} (hs : Separated calls)
    (hq : q.stable = [] ∨ TakenFirst calls) :
    q.departed calls = (answers perform q calls).flatMap StreamAnswer.taken := by
  induction calls generalizing q with
  | nil => rfl
  | cons call calls ih =>
    obtain ⟨hswap, hs⟩ := separated_cons.mp hs
    rw [takenFirst_cons] at hq
    -- the call takes what leaves with it, and the rest can go on in the same way
    have hstep : q.leaving call = (q.perform call).1.taken ∧
        ((q.perform call).2.stable = [] ∨ TakenFirst calls) := by
      cases call with
      | swap =>
        have hempty : q.stable = [] := by simpa using hq
        exact ⟨hempty, .inr (hswap rfl)⟩
      | takeRound => exact ⟨rfl, .inl rfl⟩
      | send | extend | iter | count | isEmpty | pendingCount =>
        exact ⟨rfl, by simpa [perform] using hq⟩
    rw [departed, answers, List.flatMap_cons, hstep.1, ih hs hstep.2]

end Queues

namespace Stream

/-- The stream told by the roles of its buffers. -/
def queues (s : Stream α) : Queues α := { stable := s.stable, pending := s.pending }

theorem perform_queues (s : Stream α) (call : StreamCall α) :
    s.queues.perform call = ((s.perform call).1, (s.perform call).2.queues) := by
  cases call <;> simp [Queues.perform, perform, queues, send]

/-- A new stream answers every sequence of calls as a pair of empty queues does. When a round is
taken between any two swaps nothing is lost: the rounds that were taken, the one that is being
delivered and the events that wait are the events that were sent, in the order of sending. -/
theorem answers_queues (calls : List (StreamCall α)) :
    let s := after perform ({} : Stream α) calls
    answers perform ({} : Stream α) calls = answers Queues.perform {} calls ∧
      (StreamCall.Separated calls →
        (answers perform ({} : Stream α) calls).flatMap StreamAnswer.taken ++ s.stable ++
          s.pending = calls.flatMap StreamCall.sent) := by
  intro s
  obtain ⟨hanswers, hafter⟩ := answers_of_view queues perform_queues ({} : Stream α) calls
  have hstart : ({} : Stream α).queues = {} := rfl
  rw [hstart] at hanswers hafter
  refine ⟨hanswers.symm, fun hs => ?_⟩
  have hconserved := Queues.after_conserves {} calls
  rw [Queues.departed_eq_taken hs (.inl rfl), hanswers, hafter] at hconserved
  exact hconserved

/-- Two rounds are taken, the second one while an event waits already, and a third one stays. -/
def relay : List (StreamCall Nat) :=
  [.extend [1, 2], .swap, .takeRound, .send 10, .swap, .send 20, .iter, .takeRound, .swap, .send 30,
    .pendingCount]

theorem relay_conserved : StreamCall.Separated relay ∧
    (answers perform ({} : Stream Nat) relay).flatMap StreamAnswer.taken = [1, 2, 10] ∧
      (after perform ({} : Stream Nat) relay).stable = [20] ∧
        [1, 2, 10] ++ [20] ++ [30] = relay.flatMap StreamCall.sent := by
  have hs : StreamCall.Separated relay := by
    simp [relay, StreamCall.separated_cons, StreamCall.separated_nil, StreamCall.takenFirst_cons,
      StreamCall.takenFirst_nil]
  exact ⟨hs, rfl, rfl, (answers_queues relay).2 hs⟩

end Stream
end SceneScript
