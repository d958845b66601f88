import SceneScript.Proofs.Script.Loops

/-! # Bodies come to an end

The course of a body is told step by step by rules that know no bound on their own: a loop counts
its bodies up and compares the count with the bound in every turn. Every body comes to an end by
these rules, in a number of steps that its text and the bound tell beforehand, and in one way only.
-/
namespace SceneScript.Script

/-- Statements that run no other statement. -/
def Node.Simple : Node → Prop
  | .mk .conditional _ _ _ (_ :: _ :: _) => False
  | .mk .loop _ _ _ [_, _] => False
  | _ => True

/-- The statements of the first block among some nodes. -/
def blockAmong : List Node → List Node
  | [] => []
  | node :: rest => if node.kind == .block then node.children else blockAmong rest

/-- The statements that run when a conditional does not hold, from what is behind its block. -/
def otherwise : List Node → List Node
  | node :: _ => blockAmong node.children
  | [] => []

/-- What can be under way: a statement, statements in order, and a loop that has run its body a
number of times. -/
inductive Task where
  | statement (node : Node)
  | statements (nodes : List Node)
  | loop (condition : Node) (body : List Node) (count : Nat)

/-- The outcome of what comes behind some records. -/
def after (log : List LogRecord) (o : Outcome RuntimeError Frame Unit) :
    Outcome RuntimeError Frame Unit := ⟨o.result, o.state, log ++ o.log⟩

/-- A task that is begun in a frame comes to an end after a number of steps, with an outcome. A
step is a simple statement or the evaluation of a condition. -/
inductive Ends (s : Setting) : Task → Frame → Nat → Outcome RuntimeError Frame Unit → Prop
  | simple {node : Node} {f : Frame} :
    node.Simple → Ends s (.statement node) f 1 (statement s node f)
  | chosen {value : String} {line column : Nat} {condition body : Node} {rest : List Node}
    {f f' : Frame} {log : List LogRecord} {n : Nat} {o : Outcome RuntimeError Frame Unit} :
    holds s condition f = ⟨.ok true, f', log⟩ → Ends s (.statements body.children) f' n o →
      Ends s (.statement (.mk .conditional value line column (condition :: body :: rest))) f (n + 1)
        (after log o)
  | refused {value : String} {line column : Nat} {condition body : Node} {rest : List Node}
    {f f' : Frame} {log : List LogRecord} {n : Nat} {o : Outcome RuntimeError Frame Unit} :
    holds s condition f = ⟨.ok false, f', log⟩ → Ends s (.statements (otherwise rest)) f' n o →
      Ends s (.statement (.mk .conditional value line column (condition :: body :: rest))) f (n + 1)
        (after log o)
  | undecided {value : String} {line column : Nat} {condition body : Node} {rest : List Node}
    {f f' : Frame} {log : List LogRecord} {e : RuntimeError} :
    holds s condition f = ⟨.error e, f', log⟩ →
      Ends s (.statement (.mk .conditional value line column (condition :: body :: rest))) f 1
        ⟨.error e, f', log⟩
  | entered {value : String} {line column : Nat} {condition body : Node} {f : Frame} {n : Nat}
    {o : Outcome RuntimeError Frame Unit} :
    Ends s (.loop condition body.children 0) f n o →
      Ends s (.statement (.mk .loop value line column [condition, body])) f n o
  | nil {f : Frame} : Ends s (.statements []) f 0 ⟨.ok (), f, []⟩
  | cons {node : Node} {rest : List Node} {f f' : Frame} {log : List LogRecord} {m n : Nat}
    {o : Outcome RuntimeError Frame Unit} :
    Ends s (.statement node) f m ⟨.ok (), f', log⟩ → Ends s (.statements rest) f' n o →
      Ends s (.statements (node :: rest)) f (m + n) (after log o)
  | failed {node : Node} {rest : List Node} {f f' : Frame} {log : List LogRecord} {n : Nat}
    {e : RuntimeError} :
    Ends s (.statement node) f n ⟨.error e, f', log⟩ →
      Ends s (.statements (node :: rest)) f n ⟨.error (e.locate node.line node.column), f', log⟩
  | left {condition : Node} {body : List Node} {count : Nat} {f f' : Frame}
    {log : List LogRecord} :
    holds s condition f = ⟨.ok false, f', log⟩ →
      Ends s (.loop condition body count) f 1 ⟨.ok (), f', log⟩
  | unsettled {condition : Node} {body : List Node} {count : Nat} {f f' : Frame}
    {log : List LogRecord} {e : RuntimeError} :
    holds s condition f = ⟨.error e, f', log⟩ →
      Ends s (.loop condition body count) f 1 ⟨.error e, f', log⟩
  | capped {condition : Node} {body : List Node} {count : Nat} {f f' : Frame}
    {log : List LogRecord} :
    holds s condition f = ⟨.ok true, f', log⟩ → count = s.config.maxLoopIterations →
      Ends s (.loop condition body count) f 1 ⟨.ok (), f', log ++ [Run.stopped s]⟩
  | broken {condition : Node} {body : List Node} {count : Nat} {f f₁ f₂ : Frame}
    {log₁ log₂ : List LogRecord} {n : Nat} {e : RuntimeError} :
    holds s condition f = ⟨.ok true, f₁, log₁⟩ → count ≠ s.config.maxLoopIterations →
      Ends s (.statements body) f₁ n ⟨.error e, f₂, log₂⟩ →
        Ends s (.loop condition body count) f (n + 1) ⟨.error e, f₂, log₁ ++ log₂⟩
  | again {condition : Node} {body : List Node} {count : Nat} {f f₁ f₂ : Frame}
    {log₁ log₂ : List LogRecord} {m n : Nat} {o : Outcome RuntimeError Frame Unit} :
    holds s condition f = ⟨.ok true, f₁, log₁⟩ → count ≠ s.config.maxLoopIterations →
      Ends s (.statements body) f₁ m ⟨.ok (), f₂, log₂⟩ →
        Ends s (.loop condition body (count + 1)) f₂ n o →
          Ends s (.loop condition body count) f (m + 1 + n) (after (log₁ ++ log₂) o)

/-! ### The interpreter follows the rules -/

theorem block_eq (s : Setting) (node : Node) : block s node = statements s node.children := by
  cases node
  unfold block
  rfl

theorem firstBlock_eq (s : Setting) (nodes : List Node) :
    firstBlock s nodes = statements s (blockAmong nodes) := by
  induction nodes with
  | nil =>
    unfold firstBlock blockAmong statements
    rfl
  | cons node rest ih =>
    unfold firstBlock blockAmong
    split
    · exact block_eq s node
    · exact ih

theorem alternative_eq (s : Setting) (rest : List Node) :
    alternative s rest = statements s (otherwise rest) := by
  cases rest with
  | nil =>
    unfold alternative otherwise statements
    rfl
  | cons node rest =>
    cases node
    unfold alternative
    exact firstBlock_eq s _

namespace Task

/-- What the interpreter does about a task. -/
def run (s : Setting) : Task → Run Unit
  | .statement node => Script.statement s node
  | .statements nodes => Script.statements s nodes
  | .loop condition body count =>
    Run.loop s (holds s condition) (Script.statements s body) (s.config.maxLoopIterations - count)

/-- A loop has not run its body more often than the bound allows. -/
def Within (s : Setting) : Task → Prop
  | .loop _ _ count => count ≤ s.config.maxLoopIterations
  | _ => True

end Task

section
variable {s : Setting} {f f₁ f₂ : Frame} {log log₁ : List LogRecord} {e : RuntimeError}
  {node : Node} {rest : List Node}

theorem statements_ok (h : statement s node f = ⟨.ok (), f₁, log⟩) :
    statements s (node :: rest) f = after log (statements s rest f₁) := by
  have hl : Run.located node.line node.column (statement s node) f = ⟨.ok (), f₁, log⟩ :=
    Action.mapError_of_ok h _
  rw [statements, Action.bind_ok hl]
  rfl

theorem statements_error (h : statement s node f = ⟨.error e, f₁, log⟩) :
    statements s (node :: rest) f = ⟨.error (e.locate node.line node.column), f₁, log⟩ := by
  rw [statements]
  refine Action.bind_error ?_
  simp only [Run.located, Action.mapError, h]
  rfl

variable {value : String} {line column : Nat} {condition body : Node}

theorem conditional_chosen (h : holds s condition f = ⟨.ok true, f₁, log⟩) :
    statement s (.mk .conditional value line column (condition :: body :: rest)) f =
      after log (statements s body.children f₁) := by
  rw [statement, Action.bind_ok h, ← block_eq]
  rfl

theorem conditional_refused (h : holds s condition f = ⟨.ok false, f₁, log⟩) :
    statement s (.mk .conditional value line column (condition :: body :: rest)) f =
      after log (statements s (otherwise rest) f₁) := by
  rw [statement, Action.bind_ok h, ← alternative_eq]
  rfl

theorem conditional_undecided (h : holds s condition f = ⟨.error e, f₁, log⟩) :
    statement s (.mk .conditional value line column (condition :: body :: rest)) f =
      ⟨.error e, f₁, log⟩ := by
  rw [statement, Action.bind_error h]

theorem statement_loop (s : Setting) (value : String) (line column : Nat) (condition body : Node) :
    statement s (.mk .loop value line column [condition, body]) =
      (Task.loop condition body.children 0).run s := by
  rw [statement, block_eq]
  rfl

end

/-- Whatever ends by the rules ends as the interpreter does. -/
theorem Ends.eq_run {s : Setting} {t : Task} {f : Frame} {n : Nat}
    {o : Outcome RuntimeError Frame Unit} (h : Ends s t f n o) (ht : t.Within s) :
    o = t.run s f := by
  induction h with
  | simple _ => rfl
  | chosen hc _ ih => rw [ih trivial, Task.run, Task.run, conditional_chosen hc]
  | refused hc _ ih => rw [ih trivial, Task.run, Task.run, conditional_refused hc]
  | undecided hc => rw [Task.run, conditional_undecided hc]
  | entered _ ih => rw [ih (Nat.zero_le _), Task.run, statement_loop]
  | nil =>
    unfold Task.run statements
    rfl
  | cons _ _ ih ih' =>
    rw [ih' trivial]
    symm
    exact statements_ok (ih trivial).symm
  | failed _ ih =>
    symm
    exact statements_error (ih trivial).symm
  | left hc => exact (Run.loop_done hc).symm
  | unsettled hc => exact (Run.loop_undecided hc).symm
  | capped hc hn =>
    subst hn
    rw [Task.run, Nat.sub_self, Run.loop_capped hc]
  | broken hc hn _ ih =>
    have hlt := Nat.lt_of_le_of_ne ht hn
    rw [Task.run, ← Nat.sub_add_cancel (Nat.sub_pos_of_lt hlt)]
    exact (Run.loop_failed hc (ih trivial).symm).symm
  | again hc hn _ _ ih ih' =>
    have hlt := Nat.lt_of_le_of_ne ht hn
    rw [ih' hlt, Task.run, Task.run, ← Nat.sub_add_cancel (Nat.sub_pos_of_lt hlt), Nat.sub_sub]
    exact (Run.loop_turn hc (ih trivial).symm).symm

/-! ### The number of steps -/

mutual

/-- Steps that suffice for a node, where `bound` is that of the loops. -/
def Node.budget (bound : Nat) : Node → Nat
  | .mk _ _ _ _ children => (bound + 1) * (1 + Node.budgets bound children)

def Node.budgets (bound : Nat) : List Node → Nat
  | [] => 0
  | node :: rest => node.budget bound + Node.budgets bound rest

end

theorem Node.budgets_lt_budget (bound : Nat) (node : Node) :
    Node.budgets bound node.children < node.budget bound := by
  cases node
  rw [Node.budget, Node.children, Nat.lt_iff_add_one_le, Nat.add_comm]
  exact Nat.le_mul_of_pos_left _ (Nat.succ_pos bound)

/-- The budget of a body suffices for a loop over it. -/
theorem Node.loop_le_budget (bound : Nat) (body : Node) :
    bound + 1 + bound * Node.budgets bound body.children ≤ body.budget bound := by
  cases body
  rw [Node.budget, Node.children, Nat.mul_add, Nat.mul_one, Nat.succ_mul]
  omega

/-- The task comes to an end within a number of steps. -/
def Finishes (s : Setting) (t : Task) (f : Frame) (limit : Nat) : Prop :=
  ∃ n ≤ limit, ∃ o, Ends s t f n o

section
variable {s : Setting} {f : Frame} {t : Task}

theorem Finishes.mono {m n : Nat} (h : Finishes s t f m) (hmn : m ≤ n) : Finishes s t f n := by
  obtain ⟨k, hk, o, ho⟩ := h
  exact ⟨k, Nat.le_trans hk hmn, o, ho⟩

/-- A loop asks once more than it runs its body. -/
theorem loop_finishes (condition : Node) {body : List Node} {limit : Nat}
    (hb : ∀ f, Finishes s (.statements body) f limit) {left count : Nat}
    (hcount : count + left = s.config.maxLoopIterations) (f : Frame) :
    Finishes s (.loop condition body count) f (left + 1 + left * limit) := by
  induction left generalizing count f with
  | zero =>
    rcases hc : holds s condition f with ⟨e | b, f', log⟩
    · exact ⟨1, by omega, _, .unsettled hc⟩
    · cases b with
      | false => exact ⟨1, by omega, _, .left hc⟩
      | true => exact ⟨1, by omega, _, .capped hc hcount⟩
  | succ left ih =>
    rcases hc : holds s condition f with ⟨e | b, f', log⟩
    · exact ⟨1, by omega, _, .unsettled hc⟩
    · cases b with
      | false => exact ⟨1, by omega, _, .left hc⟩
      | true =>
        have hn : count ≠ s.config.maxLoopIterations := by omega
        obtain ⟨m, hm, ⟨result, f'', log'⟩, hbody⟩ := hb f'
        rw [Nat.succ_mul]
        cases result with
        | error e => exact ⟨m + 1, by omega, _, .broken hc hn hbody⟩
        | ok _ =>
          have hnext : count + 1 + left = s.config.maxLoopIterations := by omega
          obtain ⟨n, hle, o, hrest⟩ := ih hnext f''
          exact ⟨m + 1 + n, by omega, _, .again hc hn hbody hrest⟩

end

mutual

theorem statement_finishes (s : Setting) : (node : Node) → (f : Frame) →
    Finishes s (.statement node) f (node.budget s.config.maxLoopIterations)
  | .mk kind value line column children, f => by
    have hpos := Node.budgets_lt_budget s.config.maxLoopIterations
      (.mk kind value line column children)
    by_cases hs : (Node.mk kind value line column children).Simple
    · exact ⟨1, by omega, _, .simple hs⟩
    · unfold Node.Simple at hs
      split at hs
      · rename_i condition body rest h
        cases h
        have hbody := Node.budgets_lt_budget s.config.maxLoopIterations body
        rw [Node.children, Node.budgets, Node.budgets] at hpos
        rcases hc : holds s condition f with ⟨e | b, f', log⟩
        · exact ⟨1, by omega, _, .undecided hc⟩
        · cases b with
          | true =>
            obtain ⟨n, hn, o, ho⟩ := block_finishes s body f'
            exact ⟨n + 1, by omega, _, .chosen hc ho⟩
          | false =>
            obtain ⟨n, hn, o, ho⟩ := alternative_finishes s rest f'
            exact ⟨n + 1, by omega, _, .refused hc ho⟩
      · rename_i condition body h
        cases h
        obtain ⟨n, hn, o, ho⟩ := loop_finishes condition (block_finishes s body) (Nat.zero_add _) f
        have hbody := Node.loop_le_budget s.config.maxLoopIterations body
        rw [Node.children, Node.budgets, Node.budgets] at hpos
        exact ⟨n, by omega, o, .entered ho⟩
      · exact absurd trivial hs

theorem block_finishes (s : Setting) : (node : Node) → (f : Frame) →
    Finishes s (.statements node.children) f
      (Node.budgets s.config.maxLoopIterations node.children)
  | .mk _ _ _ _ children, f => statements_finish s children f

theorem statements_finish (s : Setting) : (nodes : List Node) → (f : Frame) →
    Finishes s (.statements nodes) f (Node.budgets s.config.maxLoopIterations nodes)
  | [], f => ⟨0, Nat.le_refl 0, _, .nil⟩
  | node :: rest, f => by
    obtain ⟨m, hm, ⟨result, f', log⟩, hnode⟩ := statement_finishes s node f
    rw [Node.budgets]
    cases result with
    | error e => exact ⟨m, by omega, _, .failed hnode⟩
    | ok _ =>
      obtain ⟨n, hn, o, hrest⟩ := statements_finish s rest f'
      exact ⟨m + n, by omega, _, .cons hnode hrest⟩

theorem alternative_finishes (s : Setting) : (rest : List Node) → (f : Frame) →
    Finishes s (.statements (otherwise rest)) f
      (Node.budgets s.config.maxLoopIterations rest)
  | [], f => ⟨0, Nat.le_refl 0, _, .nil⟩
  | .mk kind value line column children :: rest, f => by
    have hlt := Node.budgets_lt_budget s.config.maxLoopIterations
      (.mk kind value line column children)
    rw [Node.budgets]
    exact (firstBlock_finishes s children f).mono (Nat.le_add_right_of_le (Nat.le_of_lt hlt))

theorem firstBlock_finishes (s : Setting) : (nodes : List Node) → (f : Frame) →
    Finishes s (.statements (blockAmong nodes)) f
      (Node.budgets s.config.maxLoopIterations nodes)
  | [], f => ⟨0, Nat.le_refl 0, _, .nil⟩
  | node :: rest, f => by
    have hlt := Node.budgets_lt_budget s.config.maxLoopIterations node
    rw [Node.budgets, blockAmong]
    split
    · exact (block_finishes s node f).mono (Nat.le_add_right_of_le (Nat.le_of_lt hlt))
    · exact (firstBlock_finishes s rest f).mono (Nat.le_add_left _ _)

end

/-- A loop with a bound does what the loop without a bound does, and logs nothing of its own, when
that stops within the bound. Otherwise it runs its body as often as the bound allows, evaluates its
condition once more, logs one warning and succeeds. A body comes to an end from every frame, in the
one way in which the interpreter runs it. -/
theorem loops_bounded (s : Setting) (value : String) (line column : Nat) (condition body : Node)
    (f : Frame) :
    let bound := s.config.maxLoopIterations
    let loop := Node.mk .loop value line column [condition, body]
    let stops := Run.Stops (holds s condition) (block s body) f
    let turns := Run.Turns (holds s condition) (block s body) f
    (∀ k o k' o', stops k o → stops k' o' → k = k' ∧ o = o') ∧
      (∀ k ≤ bound, ∀ o, stops k o → statement s loop f = o) ∧
      ((¬∃ k ≤ bound, ∃ o, stops k o) ↔
        ∃ f₁ log₁ f₂ log₂, turns bound f₁ log₁ ∧ holds s condition f₁ = ⟨.ok true, f₂, log₂⟩) ∧
      (∀ f₁ log₁ f₂ log₂, turns bound f₁ log₁ → holds s condition f₁ = ⟨.ok true, f₂, log₂⟩ →
        statement s loop f = ⟨.ok (), f₂, log₁ ++ log₂ ++ [⟨.warn, "Loop in system " ++
          SceneScript.Error.quoted s.system ++ " stopped after " ++ toString bound ++
            " iterations"⟩]⟩) ∧
      ∀ (config : Config) (text : Node) (d : Declaration) (matched : Binding) (c : EventContext)
        (w : World),
        let start := Frame.entry d matched c w
        ∃ n ≤ text.budget config.maxLoopIterations, ∃ o,
          Ends ⟨d.name, c, config⟩ (.statements text.children) start n o ∧
            (∀ n' o', Ends ⟨d.name, c, config⟩ (.statements text.children) start n' o' → o' = o) ∧
            execute config text d matched c w =
              ⟨o.result.map fun _ => o.state.effects.emitted, o.state.world, o.log⟩ := by
  intro bound loop stops turns
  refine ⟨fun _ _ _ _ h h' => h.unique h', fun k hk o h => ?_, ⟨fun h => ?_, ?_⟩, ?_, ?_⟩
  · exact Run.loop_of_stops h hk
  · exact (Run.stops_or_turns (holds s condition) (block s body) bound f).resolve_left h
  · rintro ⟨f₁, log₁, f₂, log₂, hturns, hc⟩ ⟨k, hk, o, h⟩
    exact hturns.not_stops hc hk h
  · intro f₁ log₁ f₂ log₂ hturns hc
    exact Run.loop_of_turns hturns hc
  · intro config text d matched c w start
    obtain ⟨n, hn, o, ho⟩ := block_finishes ⟨d.name, c, config⟩ text start
    have heq := ho.eq_run trivial
    refine ⟨n, Nat.le_trans hn (Nat.le_of_lt (Node.budgets_lt_budget _ text)), o, ho, ?_, ?_⟩
    · intro n' o' ho'
      rw [heq]
      exact ho'.eq_run trivial
    · rw [heq, execute, block_eq]
      rfl

namespace Once

def setting (bound : Nat) : Setting := ⟨"once", ⟨⟨"Tick", .void, []⟩, [], {}⟩, ⟨bound⟩⟩

def frame (go : Bool) : Frame where
  stack := [("go", .value (.boolean go))]
  store := {}
  effects := { random := .lowest }

def go : Node := .mk .path "" 1 7 [.mk .identifier "go" 1 7 []]

/-- `while go:` -/
def condition : Node := .mk .expression "" 1 7 [go]

/-- `go = false` -/
def body : Node :=
  .mk .block "" 2 5
    [.mk .assignment "" 2 5 [go, .mk .expression "" 2 10 [.mk .boolean "false" 2 10 []]]]

theorem condition_holds (bound : Nat) (b : Bool) :
    holds (setting bound) condition (frame b) = ⟨.ok b, frame b, []⟩ := by
  rfl

theorem body_runs (bound : Nat) (b : Bool) :
    block (setting bound) body (frame b) = ⟨.ok (), frame false, []⟩ := by
  rfl

/-- A single turn is not too many for a bound of one, and too many for a bound of zero. -/
theorem once_bounded :
    let loop := Node.mk .loop "" 1 1 [condition, body]
    statement (setting 1) loop (frame true) = ⟨.ok (), frame false, []⟩ ∧
      statement (setting 0) loop (frame true) = ⟨.ok (), frame true,
        [⟨.warn, "Loop in system `once` stopped after 0 iterations"⟩]⟩ := by
  have hone := (loops_bounded (setting 1) "" 1 1 condition body (frame true)).2.1
  have hzero := (loops_bounded (setting 0) "" 1 1 condition body (frame true)).2.2.2.1
  constructor
  · have hstops := Run.Stops.turn (condition_holds 1 true) (body_runs 1 true)
      (.done (condition_holds 1 false))
    exact hone 1 (Nat.le_refl 1) _ hstops
  · exact hzero (frame true) [] (frame true) [] (.nil _) (condition_holds 0 true)

end Once
end SceneScript.Script
