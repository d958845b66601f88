import SceneScript.Proofs.Dispatch.Queue

/-! # Rounds against the queue

The loop over two buffers drains an event exactly as the queue does: same steps, same world, same
log. A round delivers what the round before emitted, each event once and in the order of emission,
and the number of rounds is the number of events on the longest chain of emissions.
-/
namespace SceneScript.Dispatch

theorem delivers_flatten (rs : List (List Step)) :
    delivers rs.flatten = (rs.map delivers).flatten := by
  induction rs with
  | nil => rfl
  | cons r rest ih => simp [ih]

theorem emits_flatten (rs : List (List Step)) : emits rs.flatten = (rs.map emits).flatten := by
  induction rs with
  | nil => rfl
  | cons r rest ih => simp [ih]

/-- What the loop is at the start of a round: the queued events of the stream wait in the queue,
all of them `k` emissions away from the first event. -/
structure AtRound (stream : Stream Event) (p : Progress) (q : Queue) (k : Nat) : Prop where
  pending : stream.pending = q.waiting.map Pending.event
  world : p.toWorld = q.world
  level : ∀ w ∈ q.waiting, w.causes.length = k

/-- What the loop has done from the start of a round to the end, and the queue with it. -/
structure Drained (registry : Registry) (roster : Roster) (q : Queue) (k : Nat)
    (rs : List (List Step)) (cs : List (List Event)) (p p' : Progress) : Prop where
  queue : (Queue.next registry roster)^[(delivers rs.flatten).length] q =
    { waiting := [], world := p'.toWorld, steps := q.steps ++ rs.flatten, chains := q.chains ++ cs }
  progress : p' = (p.record rs.flatten).addRounds rs.length
  shift : rs.map delivers ++ [[]] = q.waiting.map Pending.event :: rs.map emits
  heads : cs.map List.head? = (delivers rs.flatten).map some
  level_le : ∀ c ∈ cs, c.length ≤ k + rs.length
  level_eq : rs ≠ [] → ∃ c ∈ cs, c.length = k + rs.length

/-- Without queued events the loop is at its end, and so is the queue. -/
theorem drained_nil {registry : Registry} {roster : Roster} {limit : Nat} {stream : Stream Event}
    {p p' : Progress} {q : Queue} {k : Nat}
    (h : Progress.drain registry roster limit stream p = some p') (ha : AtRound stream p q k)
    (he : stream.pending = []) :
    Drained registry roster q k (drainRounds registry roster limit stream p) [] p p' := by
  rw [drain_nil he, Option.some.injEq] at h
  rw [drainRounds_nil he, ← h]
  have hw : q.waiting = [] := by simpa [ha.pending] using he
  obtain ⟨waiting, world, steps, chains⟩ := q
  simp only at hw
  subst hw
  exact ⟨by simp [ha.world], by simp, rfl, rfl, by simp, by simp⟩

theorem drained_cons {registry : Registry} {roster : Roster} {q : Queue} {k : Nat}
    {new : List Pending} {steps : List Step} {rest : List (List Step)} {cs : List (List Event)}
    {p p' : Progress} (hw : q.waiting ≠ []) (hk : ∀ w ∈ q.waiting, w.causes.length = k)
    (hs : delivers steps = q.waiting.map Pending.event)
    (hn : new.map Pending.event = emits steps)
    (hq : (Queue.next registry roster)^[q.waiting.length] q =
      { waiting := new, world := leave p.toWorld steps, steps := q.steps ++ steps,
        chains := q.chains ++ q.waiting.map Pending.chain })
    (hd : Drained registry roster ((Queue.next registry roster)^[q.waiting.length] q) (k + 1) rest
      cs ((p.addRounds 1).record steps) p') :
    Drained registry roster q k (steps :: rest) (q.waiting.map Pending.chain ++ cs) p p' := by
  obtain ⟨hqueue, hprogress, hshift, hheads, hle, heq⟩ := hd
  refine ⟨?_, ?_, ?_, ?_, ?_, ?_⟩
  · rw [hq] at hqueue
    have hlen : (delivers (steps :: rest).flatten).length =
        (delivers rest.flatten).length + q.waiting.length := by
      simp [hs, Nat.add_comm]
    rw [hlen, Function.iterate_add_apply, hq, hqueue]
    simp
  · rw [hprogress, Progress.record_addRounds, List.length_cons, Nat.add_comm]
    rfl
  · rw [hq] at hshift
    simp only [hn] at hshift
    simp [hs, hshift]
  · simp [hs, hheads, Pending.chain, Function.comp_def]
  · intro c hc
    rcases List.mem_append.mp hc with hc | hc
    · obtain ⟨w, hw, rfl⟩ := List.mem_map.mp hc
      simp [Pending.chain, hk w hw]
    · have := hle c hc
      simp only [List.length_cons]
      omega
  · intro _
    by_cases hr : rest = []
    · subst hr
      obtain ⟨w, hmem⟩ := List.exists_mem_of_ne_nil _ hw
      exact ⟨w.chain, List.mem_append_left _ (List.mem_map_of_mem hmem),
        by simp [Pending.chain, hk w hmem]⟩
    · obtain ⟨c, hc, hlen⟩ := heq hr
      exact ⟨c, List.mem_append_right _ hc, by simp only [List.length_cons]; omega⟩

/-- From the start of a round on, the loop and the queue drain together. -/
theorem drain_queue {registry : Registry} {roster : Roster} {limit : Nat}
    {stream : Stream Event} {p p' : Progress} {q : Queue} {k : Nat}
    (h : Progress.drain registry roster limit stream p = some p') (ha : AtRound stream p q k) :
    ∃ cs, Drained registry roster q k (drainRounds registry roster limit stream p) cs p p' := by
  induction limit generalizing stream p q k with
  | zero =>
    by_cases he : stream.pending = []
    · exact ⟨[], drained_nil h ha he⟩
    · simp [drain_zero he] at h
  | succ limit ih =>
    by_cases he : stream.pending = []
    · exact ⟨[], drained_nil h ha he⟩
    · have hne : q.waiting ≠ [] := by
        intro hw
        exact he (by simp [ha.pending, hw])
      obtain ⟨new, cs, hq, hn, hl, rfl⟩ := iterate_next_round registry roster q.waiting [] q
        (by simp) ha.level
      rw [← ha.world] at hq hn
      simp only [List.nil_append] at hq
      rw [drain_succ he] at h
      rw [drainRounds_succ he]
      simp only [ha.pending] at h ⊢
      have hnext : AtRound (stream.swap.takeRound.2.extend
          (emits (roundSteps registry roster p.toWorld (q.waiting.map Pending.event))))
          ((p.addRounds 1).record
            (roundSteps registry roster p.toWorld (q.waiting.map Pending.event)))
          ((Queue.next registry roster)^[q.waiting.length] q) (k + 1) := by
        rw [hq]
        exact ⟨by simp [hn], by simp, hl⟩
      obtain ⟨cs, hd⟩ := ih h hnext
      exact ⟨_, drained_cons hne ha.level (delivers_roundSteps ..) hn hq hd⟩

/-- A dispatch is the loop started with one event, next to a queue with that event in it. -/
theorem drain_start {registry : Registry} {roster : Roster} {limit : Nat} {world : World}
    {event : Event} {p : Progress} (h : dispatch registry roster limit world event = some p) :
    ∃ cs, Drained registry roster (Queue.start world event) 0
      (rounds registry roster limit world event) cs { toWorld := world } p :=
  drain_queue h ⟨by simp [Stream.send, Stream.extend, Stream.pending, Queue.start], rfl,
    by simp [Queue.start]⟩

/-- A dispatch that drains does what a single queue does that starts with the event: it offers the
same events to the same listeners, with the same runs from the same worlds, in the same order. Its
rounds are the levels of the cascade, and its report counts the steps. -/
theorem dispatch_breadthFirst {registry : Registry} {roster : Roster} {limit : Nat}
    {world : World} {event : Event} {p : Progress}
    (h : dispatch registry roster limit world event = some p) :
    let rs := rounds registry roster limit world event
    let q := (Queue.next registry roster)^[p.report.events] (Queue.start world event)
    (q.waiting = [] ∧ q.steps = rs.flatten ∧ q.world = p.toWorld ∧
      q.steps.flatMap Step.log = p.log) ∧
    rs.map delivers ++ [[]] = [event] :: rs.map emits ∧
    p.report.events = 1 + (emits q.steps).length ∧
    p.report.invocations = q.steps.countP Step.isCall ∧
    p.report.failures = q.steps.countP Step.isFailure ∧
    p.report.rounds = rs.length ∧
    q.chains.map List.head? = (delivers q.steps).map some ∧
    (∀ c ∈ q.chains, c.length ≤ p.report.rounds) ∧
    ∃ c ∈ q.chains, c.length = p.report.rounds := by
  intro rs q
  obtain ⟨cs, hd⟩ := drain_start h
  change Drained registry roster (Queue.start world event) 0 rs cs { toWorld := world } p at hd
  obtain ⟨hqueue, hprogress, hshift, hheads, hle, heq⟩ := hd
  have hreport : p.report = ⟨rs.length, (delivers rs.flatten).length,
      rs.flatten.countP Step.isCall, rs.flatten.countP Step.isFailure⟩ := by
    rw [hprogress]
    simp [Progress.record, Progress.addRounds]
  have hevents : p.report.events = (delivers rs.flatten).length := by rw [hreport]
  have hq : q = { waiting := [], world := p.toWorld, steps := rs.flatten, chains := cs } := by
    simp only [q, hevents, hqueue]
    simp [Queue.start]
  have hflat : delivers rs.flatten = event :: emits rs.flatten := by
    have := congrArg List.flatten hshift
    simpa [delivers_flatten, emits_flatten, Queue.start] using this
  have hne : rs ≠ [] := by
    intro hr
    simp [hr, Queue.start] at hshift
  have hrounds : p.report.rounds = rs.length := by rw [hreport]
  rw [hq]
  refine ⟨⟨rfl, rfl, rfl, ?_⟩, hshift, ?_, by rw [hreport], by rw [hreport], hrounds, hheads,
    ?_, ?_⟩
  · rw [hprogress]
    simp [Progress.record, Progress.addRounds]
  · rw [hevents, hflat, List.length_cons, Nat.add_comm]
  · intro c hc
    simpa [hrounds] using hle c hc
  · obtain ⟨c, hc, hlen⟩ := heq hne
    exact ⟨c, hc, by simpa [hrounds] using hlen⟩

/-- A system that answers `Ping` with two events `Pong`. -/
def pingSystem : System :=
  ⟨⟨"ping", "e", [], ⟨"Ping", [], none⟩⟩, .batch fun _ _ _ => pure [⟨"Pong", .void, []⟩,
    ⟨"Pong", .void, []⟩]⟩

def pongSystem : System :=
  ⟨⟨"pong", "e", [], ⟨"Pong", [], none⟩⟩, .batch fun _ _ _ => Action.fail "no"⟩

def pingPong : Registry := .ofSystems [pongSystem, pingSystem]

theorem ping_breadthFirst :
    ∃ p, dispatch pingPong {} 2 ⟨{}, .lowest⟩ ⟨"Ping", .void, []⟩ = some p ∧
      p.report = ⟨2, 3, 3, 2⟩ ∧
      ((Queue.next pingPong {})^[p.report.events]
        (Queue.start ⟨{}, .lowest⟩ ⟨"Ping", .void, []⟩)).waiting = [] := by
  have h : (dispatch pingPong {} 2 ⟨{}, .lowest⟩ ⟨"Ping", .void, []⟩).isSome := by decide
  obtain ⟨p, hp⟩ := Option.isSome_iff_exists.mp h
  have hr : (dispatch pingPong {} 2 ⟨{}, .lowest⟩ ⟨"Ping", .void, []⟩).map Progress.report =
      some ⟨2, 3, 3, 2⟩ := by decide
  refine ⟨p, hp, ?_, (dispatch_breadthFirst hp).1.1⟩
  simpa [hp] using hr

end SceneScript.Dispatch
