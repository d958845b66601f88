import SceneScript.Proofs.Script.Grammar.File
import SceneScript.Proofs.Script.Halting
import SceneScript.System.Dispatch

/-! # Where a body fails

The statements of a body are worked off one by one: each does its own work, and a conditional or a
loop puts the statements of a block in front of what is left. A body fails where the own work of a
statement does. All that was worked off before stays done, nothing of what is left is begun, and the
error is marked with the place of that statement, however deep it is nested.
-/
namespace SceneScript.Script

/-- The own work of a statement: to settle the condition of a conditional or a loop, and all that
any other statement does. -/
def Node.work (s : Setting) : Node → Run Unit
  | .mk .conditional _ _ _ (condition :: _ :: _) => do let _ ← holds s condition
  | .mk .loop _ _ _ [condition, _] => do let _ ← holds s condition
  | node => statement s node

theorem Node.Simple.work_eq {node : Node} (h : node.Simple) (s : Setting) :
    node.work s = statement s node := by
  unfold Node.work
  split
  · exact h.elim
  · exact h.elim
  · rfl

/-- Statements that are left, each with the number of times that it has run its body. -/
abbrev Agenda := List (Node × Nat)

def Agenda.of (nodes : List Node) : Agenda := nodes.map fun node => (node, 0)

/-- The first statement that is left succeeds with its own work, which changes what is left and the
frame, and logs some records. -/
inductive Advances (s : Setting) :
    Agenda → Frame → Agenda → Frame → List LogRecord → Prop
  | done {node : Node} {n : Nat} {rest : Agenda} {f f' : Frame} {log : List LogRecord} :
    node.Simple → statement s node f = ⟨.ok (), f', log⟩ →
      Advances s ((node, n) :: rest) f rest f' log
  | chosen {value : String} {line column n : Nat} {condition body : Node} {more : List Node}
    {rest : Agenda} {f f' : Frame} {log : List LogRecord} :
    holds s condition f = ⟨.ok true, f', log⟩ →
      Advances s ((.mk .conditional value line column (condition :: body :: more), n) :: rest) f
        (.of body.children ++ rest) f' log
  | refused {value : String} {line column n : Nat} {condition body : Node} {more : List Node}
    {rest : Agenda} {f f' : Frame} {log : List LogRecord} :
    holds s condition f = ⟨.ok false, f', log⟩ →
      Advances s ((.mk .conditional value line column (condition :: body :: more), n) :: rest) f
        (.of (otherwise more) ++ rest) f' log
  | turn {value : String} {line column n : Nat} {condition body : Node} {rest : Agenda}
    {f f' : Frame} {log : List LogRecord} :
    holds s condition f = ⟨.ok true, f', log⟩ → n ≠ s.config.maxLoopIterations →
      Advances s ((.mk .loop value line column [condition, body], n) :: rest) f
        (.of body.children ++ (.mk .loop value line column [condition, body], n + 1) :: rest) f' log
  | left {value : String} {line column n : Nat} {condition body : Node} {rest : Agenda}
    {f f' : Frame} {log : List LogRecord} :
    holds s condition f = ⟨.ok false, f', log⟩ →
      Advances s ((.mk .loop value line column [condition, body], n) :: rest) f rest f' log
  | capped {value : String} {line column n : Nat} {condition body : Node} {rest : Agenda}
    {f f' : Frame} {log : List LogRecord} :
    holds s condition f = ⟨.ok true, f', log⟩ → n = s.config.maxLoopIterations →
      Advances s ((.mk .loop value line column [condition, body], n) :: rest) f rest f'
        (log ++ [Run.stopped s])

/-- Some statements have done their own work in this order, each with success, and these others are
left. -/
inductive Arrives (s : Setting) :
    Agenda → Frame → List Node → Agenda → Frame → List LogRecord → Prop
  | nil {a : Agenda} {f : Frame} : Arrives s a f [] a f []
  | cons {node : Node} {n : Nat} {rest a₁ a₂ : Agenda} {f f₁ f₂ : Frame} {order : List Node}
    {log₁ log₂ : List LogRecord} :
    Advances s ((node, n) :: rest) f a₁ f₁ log₁ → Arrives s a₁ f₁ order a₂ f₂ log₂ →
      Arrives s ((node, n) :: rest) f (node :: order) a₂ f₂ (log₁ ++ log₂)

section
variable {s : Setting} {a a₁ a₂ : Agenda} {f f₁ f₂ : Frame} {order order₁ order₂ : List Node}
  {log log₁ log₂ : List LogRecord}

theorem Advances.arrives {node : Node} {n : Nat} {rest : Agenda}
    (h : Advances s ((node, n) :: rest) f a₁ f₁ log) :
    Arrives s ((node, n) :: rest) f [node] a₁ f₁ log := by
  have hone := Arrives.cons h .nil
  rwa [List.append_nil] at hone

theorem Arrives.append (h₁ : Arrives s a f order₁ a₁ f₁ log₁)
    (h₂ : Arrives s a₁ f₁ order₂ a₂ f₂ log₂) :
    Arrives s a f (order₁ ++ order₂) a₂ f₂ (log₁ ++ log₂) := by
  induction h₁ with
  | nil => exact h₂
  | cons hstep _ ih =>
    rw [List.append_assoc]
    exact .cons hstep (ih h₂)

/-- Both ways to go on from the same statements in the same frame are one. -/
theorem Advances.unique (h₁ : Advances s a f a₁ f₁ log₁) (h₂ : Advances s a f a₂ f₂ log₂) :
    a₁ = a₂ ∧ f₁ = f₂ ∧ log₁ = log₂ := by
  cases h₁ with
  | done hs h =>
    cases h₂ with
    | done _ h' => cases h.symm.trans h'; exact ⟨rfl, rfl, rfl⟩
    | chosen _ | refused _ | turn _ _ | left _ | capped _ _ => exact hs.elim
  | chosen h =>
    cases h₂ with
    | done hs _ => exact hs.elim
    | chosen h' => cases h.symm.trans h'; exact ⟨rfl, rfl, rfl⟩
    | refused h' => cases h.symm.trans h'
  | refused h =>
    cases h₂ with
    | done hs _ => exact hs.elim
    | chosen h' => cases h.symm.trans h'
    | refused h' => cases h.symm.trans h'; exact ⟨rfl, rfl, rfl⟩
  | turn h hn =>
    cases h₂ with
    | done hs _ => exact hs.elim
    | turn h' _ => cases h.symm.trans h'; exact ⟨rfl, rfl, rfl⟩
    | left h' => cases h.symm.trans h'
    | capped _ hn' => exact (hn hn').elim
  | left h =>
    cases h₂ with
    | done hs _ => exact hs.elim
    | left h' => cases h.symm.trans h'; exact ⟨rfl, rfl, rfl⟩
    | turn h' _ | capped h' _ => cases h.symm.trans h'
  | capped h hn =>
    cases h₂ with
    | done hs _ => exact hs.elim
    | capped h' _ => cases h.symm.trans h'; exact ⟨rfl, rfl, rfl⟩
    | left h' => cases h.symm.trans h'
    | turn _ hn' => exact (hn' hn).elim

/-- There is no way to go on. -/
def Stuck (s : Setting) (a : Agenda) (f : Frame) : Prop := ∀ a' f' log, ¬Advances s a f a' f' log

/-- From the same statements in the same frame there is one place only to get stuck. -/
theorem Arrives.unique (h₁ : Arrives s a f order₁ a₁ f₁ log₁) (hs₁ : Stuck s a₁ f₁)
    (h₂ : Arrives s a f order₂ a₂ f₂ log₂) (hs₂ : Stuck s a₂ f₂) :
    order₁ = order₂ ∧ a₁ = a₂ ∧ f₁ = f₂ ∧ log₁ = log₂ := by
  induction h₁ generalizing order₂ log₂ with
  | nil =>
    cases h₂ with
    | nil => exact ⟨rfl, rfl, rfl, rfl⟩
    | cons hstep _ => exact (hs₁ _ _ _ hstep).elim
  | cons hstep _ ih =>
    cases h₂ with
    | nil => exact (hs₂ _ _ _ hstep).elim
    | cons hstep' hrest =>
      obtain ⟨rfl, rfl, rfl⟩ := hstep.unique hstep'
      obtain ⟨rfl, ha, hf, rfl⟩ := ih hs₁ hrest
      exact ⟨rfl, ha, hf, rfl⟩

theorem stuck_nil : Stuck s [] f := by
  intro a' f' log h
  cases h

/-- A statement that fails with its own work cannot be worked off. -/
theorem stuck_of_work {node : Node} {n : Nat} {rest : Agenda} {e : RuntimeError}
    (h : node.work s f = ⟨.error e, f₁, log⟩) : Stuck s ((node, n) :: rest) f := by
  have hcondition : ∀ {condition : Node} {b : Bool} {f' : Frame} {log' : List LogRecord},
      holds s condition f = ⟨.ok b, f', log'⟩ →
        (do let _ ← holds s condition : Run Unit) f ≠ ⟨.error e, f₁, log⟩ := by
    intro condition b f' log' hc hw
    rw [Action.bind_ok hc] at hw
    cases hw
  intro a' f' log' hstep
  cases hstep with
  | done hs hok =>
    rw [hs.work_eq, hok] at h
    cases h
  | chosen hc | refused hc | turn hc _ | left hc | capped hc _ => exact hcondition hc h

end

/-! ### Errors of own work have no place -/

/-- The error says what went wrong and not where. -/
def Bare (e : RuntimeError) : Prop := ∃ fault, e = .fault fault

/-- The action leaves it to others to say where it fails. -/
abbrev Unplaced {α : Type} (a : Run α) : Prop := a.Meets (fun _ => True) Bare

namespace Run

theorem ofExcept_unplaced {α : Type} (x : Except RuntimeFault α) : Unplaced (ofExcept x) := by
  refine Action.meets_ofExcept ?_
  cases x with
  | ok v => trivial
  | error fault => exact ⟨fault, rfl⟩

theorem fail_unplaced {α : Type} (fault : RuntimeFault) : Unplaced (fail fault : Run α) :=
  Action.meets_fail ⟨fault, rfl⟩

theorem read_unplaced (path : List String) : Unplaced (read path) :=
  Action.meets_get.bind fun _ _ => ofExcept_unplaced _

theorem write_unplaced (path : List String) (new : Value) : Unplaced (write path new) :=
  Action.meets_get.bind fun _ _ => (ofExcept_unplaced _).bind fun _ _ => Action.meets_set _

theorem call_unplaced (s : Setting) (name : String) (args : List Value) :
    Unplaced (call s name args) := by
  have hf : (Builtin.call name s.context args).Meets (fun _ => True) fun f => Bare (.fault f) :=
    (Action.meets_any _).mono (fun _ _ => trivial) fun fault _ => ⟨fault, rfl⟩
  exact hf.mapError.onPart _ _

theorem truth_unplaced (v : Value) : Unplaced (truth v) := by
  unfold truth
  split
  · exact Action.meets_pure trivial
  · exact fail_unplaced _

end Run

mutual

theorem evaluate_unplaced (s : Setting) : (n : Node) → Unplaced (evaluate s n)
  | .mk _ _ _ _ children => by
    unfold evaluate
    exact (items_unplaced s children).bind fun _ _ => Run.ofExcept_unplaced _

theorem items_unplaced (s : Setting) : (ns : List Node) → Unplaced (items s ns)
  | [] => by
    unfold items
    exact Action.meets_pure trivial
  | n :: rest => by
    unfold items
    exact (item_unplaced s n).bind fun _ _ =>
      (items_unplaced s rest).bind fun _ _ => Action.meets_pure trivial

theorem item_unplaced (s : Setting) : (n : Node) → Unplaced (item s n)
  | .mk kind value line column children => by
    unfold item
    split
    · split
      · exact Action.meets_pure trivial
      · exact Run.fail_unplaced _
    · split
      · exact Action.meets_pure trivial
      · exact Run.fail_unplaced _
    · split
      · exact Action.meets_pure trivial
      · exact Run.fail_unplaced _
    · exact Action.meets_pure trivial
    · exact Action.meets_pure trivial
    · exact (Run.read_unplaced _).bind fun _ _ => Action.meets_pure trivial
    · rename_i heq
      cases heq
      exact (arguments_unplaced s children).bind fun _ _ =>
        (Run.call_unplaced s _ _).bind fun _ _ => Action.meets_pure trivial
    · exact Run.fail_unplaced _

theorem arguments_unplaced (s : Setting) : (ns : List Node) → Unplaced (arguments s ns)
  | [] => by
    unfold arguments
    exact Action.meets_pure trivial
  | n :: rest => by
    unfold arguments
    exact (evaluate_unplaced s n).bind fun _ _ =>
      (arguments_unplaced s rest).bind fun _ _ => Action.meets_pure trivial

end

theorem holds_unplaced (s : Setting) (condition : Node) : Unplaced (holds s condition) :=
  (evaluate_unplaced s condition).bind fun v _ => Run.truth_unplaced v

theorem work_unplaced (s : Setting) (node : Node) : Unplaced (node.work s) := by
  unfold Node.work
  split
  · exact (holds_unplaced s _).bind fun _ _ => Action.meets_pure trivial
  · exact (holds_unplaced s _).bind fun _ _ => Action.meets_pure trivial
  · rename_i node hconditional hloop
    unfold statement
    split
    · exact Action.meets_pure trivial
    · exact (evaluate_unplaced s _).bind fun v _ => Run.write_unplaced _ v
    · exact (arguments_unplaced s _).bind fun _ _ =>
        (Run.call_unplaced s _ _).bind fun _ _ => Action.meets_pure trivial
    · exact (hconditional _ _ _ _ _ _ rfl).elim
    · exact (hloop _ _ _ _ _ rfl).elim
    · exact Run.fail_unplaced _

/-! ### The interpreter works the statements off -/

/-- Some statements are worked off from a frame until one of them fails with its own work. The
outcome has the error of that work, marked with the place of the statement, the frame that the work
leaves behind, and the records up to there. -/
def Fails (s : Setting) (a : Agenda) (f : Frame) (e : RuntimeError) (f' : Frame)
    (log : List LogRecord) : Prop :=
  ∃ order node n rest f₁ log₁ fault log₂, Arrives s a f order ((node, n) :: rest) f₁ log₁ ∧
    node.work s f₁ = ⟨.error (.fault fault), f', log₂⟩ ∧
      e = .located node.line node.column (.fault fault) ∧ log = log₁ ++ log₂

section
variable {s : Setting} {a a₁ rest : Agenda} {f f₁ f₂ : Frame} {log log₁ : List LogRecord}
  {e : RuntimeError} {place : RuntimeError → RuntimeError}
  {o : Outcome RuntimeError Frame Unit}

theorem Fails.behind {order : List Node} (h : Arrives s a f order a₁ f₁ log₁)
    (hf : Fails s a₁ f₁ e f₂ log) : Fails s a f e f₂ (log₁ ++ log) := by
  obtain ⟨more, node, n, rest, f', log', fault, log₂, harrives, hw, he, rfl⟩ := hf
  exact ⟨order ++ more, node, n, rest, f', log₁ ++ log', fault, log₂, h.append harrives, hw, he,
    (List.append_assoc ..).symm⟩

theorem Fails.locate (h : Fails s a f e f₁ log) (line column : Nat) : e.locate line column = e := by
  obtain ⟨_, _, _, _, _, _, _, _, _, _, rfl, _⟩ := h
  rfl

theorem fails_of_work {node : Node} {n : Nat} (h : node.work s f = ⟨.error e, f₁, log⟩) :
    Fails s ((node, n) :: rest) f (e.locate node.line node.column) f₁ log := by
  obtain ⟨fault, rfl⟩ : Bare e := by
    have hm := work_unplaced s node f
    rw [h] at hm
    exact hm
  exact ⟨[], node, n, rest, f, [], fault, log, .nil, h, rfl, rfl⟩

/-- The outcome is what working off the statements comes to: either these others are left, or one
fails. A step of the interpreter may leave it to the steps around it to say where. -/
def Comes (s : Setting) (a rest : Agenda) (f : Frame) (place : RuntimeError → RuntimeError)
    (o : Outcome RuntimeError Frame Unit) : Prop :=
  match o.result with
  | .ok _ => ∃ order, Arrives s a f order rest o.state o.log
  | .error e => Fails s a f (place e) o.state o.log

theorem Comes.behind {order : List Node} (h : Arrives s a f order a₁ f₁ log₁)
    (hc : Comes s a₁ rest f₁ place o) : Comes s a rest f place (after log₁ o) := by
  obtain ⟨result, f', log'⟩ := o
  cases result with
  | ok _ =>
    obtain ⟨more, hmore⟩ := hc
    exact ⟨order ++ more, h.append hmore⟩
  | error e => exact Fails.behind h hc

theorem Comes.placed (h : Comes s a rest f id o) (line column : Nat) :
    Comes s a rest f (·.locate line column) o := by
  obtain ⟨result, f', log'⟩ := o
  cases result with
  | ok _ => exact h
  | error e =>
    have hf : Fails s a f e f' log' := h
    change Fails s a f (e.locate line column) f' log'
    rwa [hf.locate]

end

/-- The outcome of a task is what working off its statements comes to, whatever is left behind. -/
def Task.Leads (s : Setting) (f : Frame) (o : Outcome RuntimeError Frame Unit) : Task → Prop
  | .statement node =>
    ∀ rest, Comes s ((node, 0) :: rest) rest f (·.locate node.line node.column) o
  | .statements nodes => ∀ rest, Comes s (.of nodes ++ rest) rest f id o
  | .loop condition body n => ∀ value line column block rest, block.children = body →
    Comes s ((.mk .loop value line column [condition, block], n) :: rest) rest f
      (·.locate line column) o

theorem Ends.leads {s : Setting} {t : Task} {f : Frame} {k : Nat}
    {o : Outcome RuntimeError Frame Unit} (h : Ends s t f k o) : t.Leads s f o := by
  induction h with
  | @simple node f hs =>
    intro rest
    rcases hstatement : statement s node f with ⟨e | ⟨⟩, f', log⟩
    · exact fails_of_work (by rw [hs.work_eq, hstatement])
    · exact ⟨_, (Advances.done hs hstatement).arrives⟩
  | chosen hc _ ih =>
    intro rest
    exact ((ih rest).behind (Advances.chosen hc).arrives).placed _ _
  | refused hc _ ih =>
    intro rest
    exact ((ih rest).behind (Advances.refused hc).arrives).placed _ _
  | undecided hc =>
    intro rest
    exact fails_of_work (Action.bind_error hc)
  | entered _ ih =>
    intro rest
    exact ih _ _ _ _ rest rfl
  | nil =>
    intro rest
    exact ⟨[], .nil⟩
  | @cons node more f f' log m n o _ _ ih ih' =>
    intro rest
    obtain ⟨order, hfirst⟩ := ih (Agenda.of more ++ rest)
    exact (ih' rest).behind hfirst
  | @failed node more f f' log n e _ ih =>
    intro rest
    exact ih (Agenda.of more ++ rest)
  | left hc =>
    rintro value line column block rest rfl
    exact ⟨_, (Advances.left hc).arrives⟩
  | unsettled hc =>
    rintro value line column block rest rfl
    exact fails_of_work (Action.bind_error hc)
  | capped hc hn =>
    rintro value line column block rest rfl
    exact ⟨_, (Advances.capped hc hn).arrives⟩
  | @broken condition body n f f₁ f₂ log₁ log₂ k e hc hn _ ih =>
    rintro value line column block rest rfl
    have hbody := ih ((.mk .loop value line column [condition, block], n + 1) :: rest)
    exact (hbody.behind (Advances.turn hc hn).arrives).placed _ _
  | @again condition body n f f₁ f₂ log₁ log₂ m k o hc hn _ _ ih ih' =>
    rintro value line column block rest rfl
    obtain ⟨order, hbody⟩ := ih ((.mk .loop value line column [condition, block], n + 1) :: rest)
    exact (ih' value line column block rest rfl).behind
      ((Advances.turn hc hn).arrives.append hbody)

/-- A body fails exactly as working off its statements does. -/
theorem block_error_iff (s : Setting) (body : Node) (f f' : Frame) (e : RuntimeError)
    (log : List LogRecord) :
    block s body f = ⟨.error e, f', log⟩ ↔ Fails s (.of body.children) f e f' log := by
  obtain ⟨k, -, o, ho⟩ := block_finishes s body f
  have hblock : block s body f = o := by
    rw [block_eq]
    exact (ho.eq_run trivial).symm
  have hcomes := ho.leads []
  rw [List.append_nil] at hcomes
  rw [hblock]
  obtain ⟨result, f'', log'⟩ := o
  constructor
  · rintro h
    cases h
    exact hcomes
  · rintro ⟨order, node, n, rest, f₁, log₁, fault, log₂, harrives, hw, rfl, rfl⟩
    have hstuck : Stuck s ((node, n) :: rest) f₁ := stuck_of_work hw
    cases result with
    | ok _ =>
      obtain ⟨order', hall⟩ := hcomes
      obtain ⟨-, hnil, -⟩ := harrives.unique hstuck hall stuck_nil
      cases hnil
    | error e' =>
      obtain ⟨order', node', n', rest', f₁', log₁', fault', log₂', harrives', hw', he', rfl⟩ :=
        hcomes
      obtain ⟨-, hsame, rfl, rfl⟩ := harrives.unique hstuck harrives' (stuck_of_work hw')
      cases hsame
      cases hw.symm.trans hw'
      obtain rfl : e' = .located node.line node.column (.fault fault) := he'
      rfl

/-! ### Bodies of a file -/

/-- The node is the tree of a derivation of a statement. -/
def Written (node : Node) : Prop := ∃ x : Grammar.Statement, x.node = node

namespace Grammar

theorem Statements.written : (list : Statements) → ∀ node ∈ list.nodes, Written node
  | .done => by simp [Statements.nodes]
  | .next first others => by
    rw [Statements.nodes, List.forall_mem_cons]
    exact ⟨⟨first, rfl⟩, others.written⟩

theorem Block.written (b : Block) : ∀ node ∈ b.node.children, Written node := by
  obtain ⟨indent, list, dedent⟩ := b
  exact list.written

theorem Block.kind_node (b : Block) : b.node.kind = .block := by
  obtain ⟨indent, list, dedent⟩ := b
  rfl

theorem Alternative.written (a : Alternative) : ∀ node ∈ a.node.children, Written node := by
  cases a with
  | chained word nested =>
    intro node hn
    obtain rfl := List.mem_singleton.mp hn
    exact ⟨.conditional word nested, rfl⟩
  | block opening body => exact body.written

theorem Alternative.kind_node (a : Alternative) : a.node.kind = .block := by
  cases a with
  | chained word nested => rfl
  | block opening body => exact body.kind_node

end Grammar

section
variable {value : String} {line column : Nat} {condition body : Node} {more : List Node}

/-- Both ways through a conditional are ways through statements. -/
theorem Written.conditional
    (h : Written (.mk .conditional value line column (condition :: body :: more))) :
    (∀ node ∈ body.children, Written node) ∧ ∀ node ∈ otherwise more, Written node := by
  obtain ⟨x, hx⟩ := h
  cases x with
  | conditional word c =>
    cases c with
    | plain _ _ block =>
      cases hx
      exact ⟨block.written, by simp [otherwise]⟩
    | split _ _ block _ alternative =>
      cases hx
      refine ⟨block.written, ?_⟩
      simpa [otherwise, Node.ofToken, blockAmong, Node.children, alternative.kind_node] using
        alternative.written
  | call c newline => cases c <;> cases hx
  | _ => cases hx

theorem Written.loop (h : Written (.mk .loop value line column [condition, body])) :
    ∀ node ∈ body.children, Written node := by
  obtain ⟨x, hx⟩ := h
  cases x with
  | loop _ _ _ block =>
    cases hx
    exact block.written
  | conditional word c => cases c <;> cases hx
  | call c newline => cases c <;> cases hx
  | _ => cases hx

end

section
variable {s : Setting} {a a' : Agenda} {f f' : Frame} {log : List LogRecord}

/-- Only statements are ever left. -/
theorem Advances.written (h : Advances s a f a' f' log) (ha : ∀ p ∈ a, Written p.1) :
    ∀ p ∈ a', Written p.1 := by
  have hof : ∀ {nodes : List Node} {rest : Agenda}, (∀ node ∈ nodes, Written node) →
      (∀ p ∈ rest, Written p.1) → ∀ p ∈ Agenda.of nodes ++ rest, Written p.1 := by
    intro nodes rest hn hr p hp
    rcases List.mem_append.mp hp with hp | hp
    · obtain ⟨node, hm, rfl⟩ := List.mem_map.mp hp
      exact hn node hm
    · exact hr p hp
  cases h with
  | done _ _ | left _ | capped _ _ => exact (List.forall_mem_cons.mp ha).2
  | chosen _ =>
    obtain ⟨hnode, hrest⟩ := List.forall_mem_cons.mp ha
    exact hof hnode.conditional.1 hrest
  | refused _ =>
    obtain ⟨hnode, hrest⟩ := List.forall_mem_cons.mp ha
    exact hof hnode.conditional.2 hrest
  | turn _ _ =>
    obtain ⟨hnode, hrest⟩ := List.forall_mem_cons.mp ha
    exact hof hnode.loop (List.forall_mem_cons.mpr ⟨hnode, hrest⟩)

theorem Arrives.written {order : List Node} (h : Arrives s a f order a' f' log)
    (ha : ∀ p ∈ a, Written p.1) : ∀ p ∈ a', Written p.1 := by
  induction h with
  | nil => exact ha
  | cons hstep _ ih => exact ih (hstep.written ha)

/-- The statements that can fail with their own work. -/
theorem Written.kind_of_work {node : Node} {e : RuntimeError} (h : Written node)
    (hw : node.work s f = ⟨.error e, f', log⟩) :
    node.kind ∈ [.assignment, .call, .conditional, .loop] := by
  obtain ⟨x, rfl⟩ := h
  cases x with
  | pass word newline => cases hw
  | conditional word c => cases c <;> simp [Grammar.Statement.node, Grammar.Conditional.node,
      Node.ofToken, Node.kind]
  | loop word condition opening body => simp [Grammar.Statement.node, Node.ofToken, Node.kind]
  | call c newline => cases c <;> simp [Grammar.Statement.node, Grammar.Call.node, Node.ofToken,
      Node.kind]
  | assignment target sign value newline => simp [Grammar.Statement.node, Node.kind]

end

namespace Grammar

/-- The block of a declaration is the body of a system. -/
theorem Declaration.block_of_child {d : Declaration} {body : Node}
    (h : d.node.child? .block = some body) : ∃ b : Block, b.node = body := by
  have hk : body.kind = .block := by simpa using List.find?_some h
  have hm : body ∈ d.node.children := List.mem_of_find?_eq_some h
  cases d with
  | component word c =>
    obtain ⟨name, content⟩ := c
    cases content with
    | value type newline =>
      obtain rfl := List.mem_singleton.mp hm
      cases hk
    | properties opening indent list distinct dedent =>
      obtain ⟨p, -, rfl⟩ := List.mem_map.mp hm
      cases hk
  | system word d =>
    have hchild : body = d.parameter.node ∨ body ∈ System.eventNodes d.event ∨
        body = d.body.node := by
      simpa [Declaration.node, System.node, Node.children] using hm
    rcases hchild with rfl | he | rfl
    · cases hk
    · cases hevent : d.event with
      | none => simp [hevent, System.eventNodes] at he
      | some event =>
        obtain rfl : body = event.node := by simpa [hevent, System.eventNodes] using he
        cases hk
    · exact ⟨d.body, rfl⟩

end Grammar

/-- The blocks of a parsed file hold statements. -/
theorem Node.ofTokens_written {file : String} {tokens : List Token} {tree n body : Node}
    (ht : ofTokens file tokens = .ok tree) (hn : n ∈ tree.children)
    (hb : n.child? .block = some body) : ∀ node ∈ body.children, Written node := by
  obtain ⟨list, hd, htree⟩ := Result.bind_eq_ok.mp ht
  cases htree
  obtain ⟨ds, rest, rfl, rfl, -⟩ := Source.declarations_sound (kind_endOf tokens) hd
  obtain ⟨d, -, rfl⟩ := List.mem_map.mp hn
  obtain ⟨b, rfl⟩ := Grammar.Declaration.block_of_child hb
  exact b.written

/-- An invocation fails with its body, and leaves the world and the log of the body. -/
theorem execute_error {config : Config} {body : Node} {d : Declaration} {matched : Binding}
    {c : EventContext} {w : World} {e : RuntimeError}
    (h : (execute config body d matched c w).result = .error e) :
    ∃ f', block ⟨d.name, c, config⟩ body (Frame.entry d matched c w) =
        ⟨.error e, f', (execute config body d matched c w).log⟩ ∧
      (execute config body d matched c w).state = f'.world := by
  rcases ho : block ⟨d.name, c, config⟩ body (Frame.entry d matched c w) with ⟨result, f', log⟩
  have hexecute : execute config body d matched c w =
      ⟨result.map fun _ => f'.effects.emitted, f'.world, log⟩ := by
    simp only [execute, ho]
  rw [hexecute] at h ⊢
  cases result with
  | ok _ => cases h
  | error e' =>
    cases h
    exact ⟨f', rfl, rfl⟩

theorem invoke_error {run : Invocation} {p : Progress} {message : String} (title : String)
    (h : (run p.toWorld).result = .error message) : (p.invoke title run).1 = [] := by
  simp only [Progress.invoke, h]

/-- A parsed body fails exactly where the own work of one of its statements does, from
every frame. The statements that come before it in the order of execution have done their own work
with success, those that are left are not begun, and nothing is changed or logged behind the failed
work. The statement is an assignment, a call, or a conditional or a loop with its condition, and the
error is the one of its work, which has no place, marked with the place of this statement. When an
invocation fails so, its error, world and log are those of the body, and the dispatcher gets none of
the events that were emitted. -/
theorem failure_located {file : String} {tokens : List Token} {tree n body : Node}
    (ht : Node.ofTokens file tokens = .ok tree) (hn : n ∈ tree.children)
    (hb : n.child? .block = some body) (config : Config) (d : Declaration) (c : EventContext) :
    let s : Setting := ⟨d.name, c, config⟩
    (∀ f e f' log, block s body f = ⟨.error e, f', log⟩ ↔
      ∃ order node turns rest f₁ log₁ fault log₂,
        Arrives s (.of body.children) f order ((node, turns) :: rest) f₁ log₁ ∧
          node.kind ∈ [.assignment, .call, .conditional, .loop] ∧
            node.work s f₁ = ⟨.error (.fault fault), f', log₂⟩ ∧
              e = .located node.line node.column (.fault fault) ∧ log = log₁ ++ log₂) ∧
      ∀ matched w e, (execute config body d matched c w).result = .error e →
        ∃ f', block s body (Frame.entry d matched c w) =
            ⟨.error e, f', (execute config body d matched c w).log⟩ ∧
          (execute config body d matched c w).state = f'.world ∧
            ∀ (p : Progress) (title : String), p.toWorld = w →
              (p.invoke title ((execute config body d matched c).mapError
                RuntimeError.message)).1 = [] := by
  intro s
  have hbody := Node.ofTokens_written ht hn hb
  constructor
  · intro f e f' log
    rw [block_error_iff]
    constructor
    · rintro ⟨order, node, turns, rest, f₁, log₁, fault, log₂, harrives, hw, he, hlog⟩
      have hall := harrives.written fun p hp => by
        obtain ⟨node, hm, rfl⟩ := List.mem_map.mp hp
        exact hbody node hm
      have hnode : Written node := hall _ (List.mem_cons_self ..)
      exact ⟨order, node, turns, rest, f₁, log₁, fault, log₂, harrives, hnode.kind_of_work hw, hw,
        he, hlog⟩
    · rintro ⟨order, node, turns, rest, f₁, log₁, fault, log₂, harrives, -, hw, he, hlog⟩
      exact ⟨order, node, turns, rest, f₁, log₁, fault, log₂, harrives, hw, he, hlog⟩
  · intro matched w e he
    obtain ⟨f', hblock, hstate⟩ := execute_error he
    refine ⟨f', hblock, hstate, ?_⟩
    rintro p title rfl
    exact invoke_error title (congrArg (Except.mapError RuntimeError.message) he)

/-- A system with a condition behind `else` that is no truth value. -/
def undecided : String :=
  "system s(e<Tag>)\n while true\n  if false\n   pass\n  else if 1\n   pass\n"

/-- How one invocation of a body fails. -/
def errorOf? (body : Node) : Option RuntimeError :=
  match (execute {} body ⟨"s", "e", ["Tag"], .tick⟩ ⟨⟨0⟩, []⟩ ⟨.tick 0, [], {}⟩
    ⟨{}, .lowest⟩).result with
  | .error e => some e
  | .ok _ => none

/-- The tree of a text, its first declaration and the body of that. -/
def firstBody (file source : String) : Except LoadError (Node × Node × Node) := do
  let tree ← Node.ofSource file source
  let n := tree.children.headD default
  return (tree, n, (n.child? .block).getD default)

/-- The error is at the condition, and neither at the block nor at the loop around it. -/
theorem undecided_located : ∃ tokens tree n body, Node.ofTokens "undecided" tokens = .ok tree ∧
    n ∈ tree.children ∧ n.child? .block = some body ∧
      ∃ s f order node turns rest f₁ log₁ f₂ fault log₂,
        Arrives s (.of body.children) f order ((node, turns) :: rest) f₁ log₁ ∧
          node.work s f₁ = ⟨.error (.fault fault), f₂, log₂⟩ ∧
            node.kind ∈ [.assignment, .call, .conditional, .loop] ∧
              node.line = 5 ∧ node.column = 8 ∧ fault = .conditionNotBoolean .integer := by
  have hrun : (firstBody "undecided" undecided).toOption.any (fun (tree, n, body) =>
      n ∈ tree.children ∧ n.child? .block = some body ∧
        errorOf? body = some (.located 5 8 (.fault (.conditionNotBoolean .integer)))) := by
    decide +kernel
  generalize undecided = source at hrun
  cases hfirst : firstBody "undecided" source with
  | error e => simp [hfirst, Except.toOption] at hrun
  | ok parts =>
    obtain ⟨tree, n, body⟩ := parts
    obtain ⟨hn, hb, he⟩ : n ∈ tree.children ∧ n.child? .block = some body ∧
        errorOf? body = some (.located 5 8 (.fault (.conditionNotBoolean .integer))) := by
      simpa [hfirst, Except.toOption] using hrun
    obtain ⟨tree', hsource, hparts⟩ := Result.bind_eq_ok.mp hfirst
    obtain ⟨tokens, -, ht⟩ := Result.bind_eq_ok.mp hsource
    cases hparts
    obtain ⟨hfails, hexecute⟩ := failure_located ht hn hb {} ⟨"s", "e", ["Tag"], .tick⟩
      ⟨.tick 0, [], {}⟩
    unfold errorOf? at he
    split at he
    · rename_i e hresult
      cases he
      obtain ⟨f', hbody, -⟩ := hexecute ⟨⟨0⟩, []⟩ ⟨{}, .lowest⟩ _ hresult
      obtain ⟨order, node, turns, rest, f₁, log₁, fault, log₂, ha, hk, hw, hplace, -⟩ :=
        (hfails _ _ _ _).mp hbody
      obtain ⟨hline, hcolumn, hfault⟩ := RuntimeError.located.inj hplace
      exact ⟨tokens, tree, _, _, ht, hn, hb, _, _, order, node, turns, rest, f₁, log₁, f', fault,
        log₂, ha, hw, hk, hline.symm, hcolumn.symm, (RuntimeError.fault.inj hfault).symm⟩
    · cases he

end SceneScript.Script
