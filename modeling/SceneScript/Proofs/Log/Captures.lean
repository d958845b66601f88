import Mathlib.Data.List.TakeWhile
import SceneScript.Log.Router

/-! # Captures of one thread

A thread makes, drops and reads captures, and logs records. What a capture receives is settled by
the steps behind the one that made it: the records up to the next capture that is made or dropped.
So the newest capture misses nothing as long as none is dropped, while after a drop of any capture
no capture receives anything until another is made.
-/
namespace SceneScript

/-! ### Routing -/

namespace Capture

theorem read_receive (c : Capture) (entry : LogMessage) :
    (c.receive entry).read.1 = c.read.1 ++ [entry] := by
  simp [receive, read]

/-- Reading a capture does not change what it shows. -/
theorem read_read (c : Capture) : c.read.2.read.1 = c.read.1 := by
  simp [read]

end Capture

namespace LogRouter
variable (r : LogRouter)

theorem messages_eq (k : Nat) : r.messages k = (r.captures[k]?.getD {}).read.1 := by
  simp [messages, read]

/-- A new capture has nothing to show. -/
theorem messages_capture (k : Nat) : r.capture.2.messages k = r.messages k := by
  simp only [messages_eq, capture]
  rcases Nat.lt_trichotomy k r.captures.length with h | rfl | h
  · rw [List.getElem?_append_left h]
  · simp
  · rw [List.getElem?_eq_none (by simpa using Nat.succ_le_of_lt h),
      List.getElem?_eq_none (Nat.le_of_lt h)]

theorem messages_drop (k : Nat) : r.drop.messages k = r.messages k := rfl

theorem messages_read (j k : Nat) : (r.read j).2.messages k = r.messages k := by
  simp only [messages_eq, read, List.getElem?_modify]
  cases r.captures[k]? with
  | none => rfl
  | some c =>
    by_cases h : j = k
    · simp [h, Capture.read_read]
    · simp [h]

/-- What the log step adds to a capture: the record, if it passes the filter and the capture is the
sink. -/
theorem messages_log_of_sink {k : Nat} (hs : r.sink = some k) (hk : k < r.captures.length)
    (entry : LogMessage) : (r.log entry).messages k =
      r.messages k ++ if r.limit < entry.level.rank then [] else [entry] := by
  unfold log
  split
  · simp
  · simp [messages_eq, hs, hk, Capture.read_receive]

theorem messages_log_of_ne {k : Nat} (hs : r.sink ≠ some k) (entry : LogMessage) :
    (r.log entry).messages k = r.messages k := by
  unfold log
  split
  · rfl
  · split
    · rename_i j hj
      have hne : j ≠ k := fun h => hs (h ▸ hj)
      simp [messages_eq, hne]
    · rfl

theorem log_keeps (entry : LogMessage) : (r.log entry).sink = r.sink ∧
    (r.log entry).captures.length = r.captures.length ∧ (r.log entry).limit = r.limit := by
  unfold log
  split
  · exact ⟨rfl, rfl, rfl⟩
  · split <;> simp

end LogRouter

/-! ### Steps of a thread -/

/-- What a thread does. Captures are numbered as they are made. -/
inductive LogStep where
  | capture
  | drop (k : Nat)
  | read (k : Nat)
  | log (entry : LogMessage)
  deriving DecidableEq

namespace LogStep

/-- Whether the step neither makes nor drops a capture. -/
def keepsSink : LogStep → Bool
  | capture | drop _ => false
  | read _ | log _ => true

/-- The record of the step that passes a filter. -/
def logged? (limit : Nat) : LogStep → Option LogMessage
  | log entry => if limit < entry.level.rank then none else some entry
  | capture | drop _ | read _ => none

/-- The records of the steps that pass a filter, in order. -/
def logged (limit : Nat) (steps : List LogStep) : List LogMessage := steps.filterMap (logged? limit)

theorem logged_cons (limit : Nat) (s : LogStep) (steps : List LogStep) :
    logged limit (s :: steps) = logged limit [s] ++ logged limit steps :=
  List.filterMap_append (l := [s])

theorem logged_of_keepsSink {s : LogStep} (h : s.keepsSink = false) (limit : Nat) :
    logged limit [s] = [] := by
  cases s with
  | capture | drop => rfl
  | read | log => cases h

end LogStep

/-- A logger, and the captures that the thread holds, from the oldest to the newest. -/
structure LogThread where
  router : LogRouter
  alive : List Nat := []

namespace LogThread

def newest? (t : LogThread) : Option Nat := t.alive.getLast?

/-- Only a capture that is held can be dropped or read. -/
inductive Step : LogThread → LogStep → LogThread → Prop
  | capture (t : LogThread) :
      Step t .capture ⟨t.router.capture.2, t.alive ++ [t.router.capture.1]⟩
  | drop (t : LogThread) {k : Nat} (h : k ∈ t.alive) :
      Step t (.drop k) ⟨t.router.drop, t.alive.erase k⟩
  | read (t : LogThread) {k : Nat} (h : k ∈ t.alive) :
      Step t (.read k) ⟨(t.router.read k).2, t.alive⟩
  | log (t : LogThread) (entry : LogMessage) : Step t (.log entry) ⟨t.router.log entry, t.alive⟩

inductive Run : LogThread → List LogStep → LogThread → Prop
  | nil (t : LogThread) : Run t [] t
  | cons {t t' t'' : LogThread} {s : LogStep} {steps : List LogStep} (h : Step t s t')
      (rest : Run t' steps t'') : Run t (s :: steps) t''

variable {t t' : LogThread} {s : LogStep} {steps : List LogStep} {k : Nat}

theorem Step.limit_eq (h : Step t s t') : t'.router.limit = t.router.limit := by
  cases h with
  | capture | drop | read => rfl
  | log entry => exact (t.router.log_keeps entry).2.2

theorem Step.length_le (h : Step t s t') :
    t.router.captures.length ≤ t'.router.captures.length := by
  cases h with
  | capture => simp [LogRouter.capture]
  | drop => exact Nat.le_refl _
  | read => simp [LogRouter.read]
  | log entry => exact Nat.le_of_eq (t.router.log_keeps entry).2.1.symm

theorem Step.sink_eq (h : Step t s t') (hs : s.keepsSink = true) :
    t'.router.sink = t.router.sink := by
  cases h with
  | capture | drop => cases hs
  | read => rfl
  | log entry => exact (t.router.log_keeps entry).1

/-- A capture that is not the sink does not become it, since only a new capture does. -/
theorem Step.sink_ne (h : Step t s t') (hk : k < t.router.captures.length)
    (hn : t.router.sink ≠ some k ∨ s.keepsSink = false) : t'.router.sink ≠ some k := by
  cases h with
  | capture =>
    intro he
    exact Nat.ne_of_gt hk (Option.some.inj he)
  | drop => exact fun he => nomatch he
  | read => exact hn.resolve_right (by simp [LogStep.keepsSink])
  | log entry =>
    rw [(t.router.log_keeps entry).1]
    exact hn.resolve_right (by simp [LogStep.keepsSink])

/-- One step adds to a capture at most the record that it logs, and only to the sink. -/
theorem Step.messages_eq (h : Step t s t') (hk : k < t.router.captures.length) :
    t'.router.messages k = t.router.messages k ++
      if t.router.sink = some k then LogStep.logged t.router.limit [s] else [] := by
  cases h with
  | capture => simp [LogRouter.messages_capture, LogStep.logged, LogStep.logged?]
  | drop => simp [LogRouter.messages_drop, LogStep.logged, LogStep.logged?]
  | read => simp [LogRouter.messages_read, LogStep.logged, LogStep.logged?]
  | log entry =>
    split
    · rw [LogRouter.messages_log_of_sink _ ‹_› hk]
      split <;> simp [LogStep.logged, LogStep.logged?, *]
    · rw [LogRouter.messages_log_of_ne _ ‹_›, List.append_nil]

theorem Run.limit_eq (h : Run t steps t') : t'.router.limit = t.router.limit := by
  induction h with
  | nil => rfl
  | cons h _ ih => exact ih.trans h.limit_eq

/-- A capture that is not the sink receives nothing any more. -/
theorem Run.messages_of_ne (h : Run t steps t') (hk : k < t.router.captures.length)
    (hs : t.router.sink ≠ some k) : t'.router.messages k = t.router.messages k := by
  induction h with
  | nil => rfl
  | cons h _ ih =>
    rw [ih (Nat.lt_of_lt_of_le hk h.length_le) (h.sink_ne hk (.inl hs)), h.messages_eq hk,
      if_neg hs, List.append_nil]

/-- The sink receives what is logged until a capture is made or dropped. -/
theorem Run.messages_of_sink (h : Run t steps t') (hk : k < t.router.captures.length)
    (hs : t.router.sink = some k) : t'.router.messages k = t.router.messages k ++
      LogStep.logged t.router.limit (steps.takeWhile LogStep.keepsSink) := by
  induction h with
  | nil => simp [LogStep.logged]
  | @cons t t₁ t₂ s steps h rest ih =>
    have hk₁ := Nat.lt_of_lt_of_le hk h.length_le
    cases hkeeps : s.keepsSink with
    | true =>
      rw [ih hk₁ ((h.sink_eq hkeeps).trans hs), h.messages_eq hk, if_pos hs, h.limit_eq,
        List.append_assoc, List.takeWhile_cons_of_pos hkeeps, ← LogStep.logged_cons]
    | false =>
      rw [rest.messages_of_ne hk₁ (h.sink_ne hk (.inr hkeeps)), h.messages_eq hk, if_pos hs,
        LogStep.logged_of_keepsSink hkeeps, List.takeWhile_cons_of_neg (by simp [hkeeps])]
      rfl

/-! ### The newest capture -/

theorem Step.newest_eq (h : Step t s t') (hs : s.keepsSink = true) : t'.newest? = t.newest? := by
  cases h with
  | capture | drop => cases hs
  | read | log => rfl

theorem Step.newest_capture (h : Step t .capture t') :
    t'.newest? = some t.router.captures.length := by
  cases h
  simp [newest?, LogRouter.capture]

theorem keepsSink_or {s : LogStep} (h : ∀ k, s ≠ .drop k) : s.keepsSink = true ∨ s = .capture := by
  cases s with
  | capture => exact .inr rfl
  | drop k => exact absurd rfl (h k)
  | read | log => exact .inl rfl

/-- Without a drop the number of the newest capture does not fall. -/
theorem Run.le_newest (h : Run t steps t') {least n : Nat} (hn : t.newest? = some n)
    (hle : least ≤ n) (hl : least ≤ t.router.captures.length) (hdrop : ∀ k, .drop k ∉ steps) :
    ∃ m ≥ least, t'.newest? = some m := by
  induction h generalizing n with
  | nil => exact ⟨n, hle, hn⟩
  | @cons t t₁ t₂ s steps h rest ih =>
    have hl₁ := Nat.le_trans hl h.length_le
    have hrest : ∀ k, .drop k ∉ steps := fun k hk => hdrop k (List.mem_cons_of_mem _ hk)
    rcases keepsSink_or fun k hk => hdrop k (hk ▸ List.mem_cons_self ..) with hs | rfl
    · exact ih ((h.newest_eq hs).trans hn) hle hl₁ hrest
    · exact ih h.newest_capture hl hl₁ hrest

/-- Without a drop a capture is the newest until a newer one is made. -/
theorem Run.keepsSink_of_newest (h : Run t steps t') {n : Nat} (hn : t.newest? = some n)
    (hl : n < t.router.captures.length) (hdrop : ∀ k, .drop k ∉ steps)
    (hnewest : t'.newest? = some n) : ∀ s ∈ steps, s.keepsSink = true := by
  induction h with
  | nil => exact fun s hs => nomatch hs
  | @cons t t₁ t₂ s steps h rest ih =>
    have hl₁ := Nat.lt_of_lt_of_le hl h.length_le
    have hrest : ∀ k, .drop k ∉ steps := fun k hk => hdrop k (List.mem_cons_of_mem _ hk)
    rcases keepsSink_or fun k hk => hdrop k (hk ▸ List.mem_cons_self ..) with hs | rfl
    · exact List.forall_mem_cons.mpr ⟨hs, ih ((h.newest_eq hs).trans hn) hl₁ hrest hnewest⟩
    · obtain ⟨m, hm, hnewer⟩ := rest.le_newest h.newest_capture (Nat.le_refl _) h.length_le hrest
      obtain rfl : n = m := Option.some.inj (hnewest.symm.trans hnewer)
      exact absurd hm (Nat.not_le_of_lt hl)

/-- What a capture shows, for every run of a thread. It shows the records that were logged behind
the step that made it, up to the next one that makes or drops a capture, and nothing goes to an
older capture any more. So the newest capture shows everything that was logged since it was made, if
no capture was dropped since. -/
theorem messages_of_capture {limit : Nat} {before after : List LogStep} {t₀ t : LogThread}
    (hbefore : Run ⟨{ limit := limit }, []⟩ before t₀) (hafter : Run t₀ (.capture :: after) t) :
    (t.router.read t₀.router.captures.length).1 =
        LogStep.logged limit (after.takeWhile LogStep.keepsSink) ∧
      (∀ k < t₀.router.captures.length, (t.router.read k).1 = (t₀.router.read k).1) ∧
      (t.newest? = some t₀.router.captures.length → (∀ k, .drop k ∉ after) →
        (t.router.read t₀.router.captures.length).1 = LogStep.logged limit after) := by
  obtain _ | ⟨_ | _, hrest⟩ := hafter
  have hlimit : t₀.router.limit = limit := hbefore.limit_eq
  have hmade : t₀.router.captures.length < t₀.router.capture.2.captures.length := by
    simp [LogRouter.capture]
  have hempty : t₀.router.capture.2.messages t₀.router.captures.length = [] := by
    rw [LogRouter.messages_capture, LogRouter.messages_eq, List.getElem?_eq_none (Nat.le_refl _)]
    rfl
  have hshown : t.router.messages t₀.router.captures.length =
      LogStep.logged limit (after.takeWhile LogStep.keepsSink) := by
    rw [hrest.messages_of_sink hmade rfl, hempty, ← hlimit]
    rfl
  refine ⟨hshown, fun k hk => ?_, fun hnewest hdrop => ?_⟩
  · have hne : t₀.router.capture.2.sink ≠ some k :=
      fun he => Nat.ne_of_gt hk (Option.some.inj he)
    exact (hrest.messages_of_ne (Nat.lt_trans hk hmade) hne).trans
      (t₀.router.messages_capture k)
  · have hquiet := hrest.keepsSink_of_newest (Step.capture t₀).newest_capture hmade hdrop hnewest
    rw [List.takeWhile_eq_self_iff.mpr hquiet] at hshown
    exact hshown

def said (level : LogLevel) (message : String) : LogMessage := ⟨⟨level, message⟩, "pivot"⟩

/-- A thread that dropped its only capture, which received one record. -/
def released : LogThread :=
  ⟨(LogRouter.capture { limit := LogLevel.trace.rank }).2.log (said .warn "before") |>.drop, []⟩

/-- It makes another capture and reads it between two records. -/
theorem released_messages :
    Run ⟨{ limit := LogLevel.trace.rank }, []⟩ [.capture, .log (said .warn "before"), .drop 0]
        released ∧
      ∃ t, Run released [.capture, .log (said .info "hello"), .read 1,
          .log (said .trace "again")] t ∧
        t.newest? = some 1 ∧
          (t.router.read 1).1 = [said .info "hello", said .trace "again"] := by
  have hbefore : Run ⟨{ limit := LogLevel.trace.rank }, []⟩
      [.capture, .log (said .warn "before"), .drop 0] released :=
    .cons (.capture _) (.cons (.log _ _) (.cons (.drop _ (by decide)) (.nil _)))
  have hafter := Run.cons (.capture released) (.cons (.log _ (said .info "hello"))
    (.cons (.read _ (show 1 ∈ [1] by decide)) (.cons (.log _ (said .trace "again")) (.nil _))))
  obtain ⟨-, -, hshown⟩ := messages_of_capture hbefore hafter
  exact ⟨hbefore, _, hafter, rfl, hshown rfl (by simp)⟩

/-- Two captures overlap, and the older one is dropped before a record is logged. -/
def overlapping : List LogStep := [.capture, .capture, .drop 0, .log (said .info "hello")]

/-- The newer of the two captures is alive and misses the record. -/
theorem overlapping_missed : ∃ t, Run ⟨{ limit := LogLevel.trace.rank }, []⟩ overlapping t ∧
    t.newest? = some 1 ∧ LogStep.logged LogLevel.trace.rank overlapping = [said .info "hello"] ∧
      (t.router.read 1).1 = [] :=
  ⟨_, .cons (.capture _) (.cons (.capture _) (.cons (.drop _ (by decide))
    (.cons (.log _ _) (.nil _)))), rfl, rfl, rfl⟩

end LogThread
end SceneScript
