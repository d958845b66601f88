import SceneScript.Proofs.Action
import SceneScript.Script.Execute

/-! # What holds around a run

A body changes its frame by calls and by assignments and in no other way. A relation of frames that
can be chained therefore holds between the frame in front of a body and the frame behind it,
wherever the body stops, if it holds around one call and around one assignment.
-/
namespace SceneScript.Script

theorem Run.read_ok {f : Frame} {path : List String} {v : Value}
    (h : f.stack.read f.store path = .ok v) : Run.read path f = ⟨.ok v, f, []⟩ := by
  simp [Run.read, Run.ofExcept, h]
  rfl

theorem Run.write_ok {f : Frame} {path : List String} {v : Value} {stack : Stack} {store : Store}
    (h : f.stack.write f.store path v = .ok (stack, store)) :
    Run.write path v f = ⟨.ok (), { f with stack := stack, store := store }, []⟩ := by
  simp [Run.write, Run.ofExcept, h]
  rfl

theorem Run.write_error {f : Frame} {path : List String} {v : Value} {fault : RuntimeFault}
    (h : f.stack.write f.store path v = .error fault) :
    Run.write path v f = ⟨.error (.fault fault), f, []⟩ := by
  simp [Run.write, Run.ofExcept, h]

/-- The relation can be chained and holds around every call. -/
structure Passes (s : Setting) (R : Frame → Frame → Prop) : Prop where
  refl : ∀ f, R f f
  trans : ∀ {f₁ f₂ f₃}, R f₁ f₂ → R f₂ f₃ → R f₁ f₃
  call : ∀ name args (f : Frame),
    R f { f with effects := (Builtin.call name s.context args f.effects).state }

/-- The relation holds around every assignment as well. -/
structure Follows (s : Setting) (R : Frame → Frame → Prop) : Prop extends Passes s R where
  write : ∀ {f : Frame} {path : List String} {v : Value} {stack : Stack} {store : Store},
    f.stack.write f.store path v = .ok (stack, store) →
      R f { f with stack := stack, store := store }

/-- The relation holds around the action, from every frame on. -/
def Around {α : Type} (R : Frame → Frame → Prop) (a : Run α) : Prop := ∀ f, R f (a f).state

variable {s : Setting} {R : Frame → Frame → Prop} {α β : Type}

namespace Passes

theorem pure (h : Passes s R) (x : α) : Around R (pure x : Run α) := h.refl

theorem fail (h : Passes s R) (fault : RuntimeFault) : Around R (Run.fail fault : Run α) := h.refl

theorem ofExcept (h : Passes s R) (x : Except RuntimeFault α) : Around R (Run.ofExcept x) := h.refl

theorem bind (h : Passes s R) {a : Run α} {f : α → Run β} (ha : Around R a)
    (hf : ∀ x, Around R (f x)) : Around R (a >>= f) :=
  fun frame => Action.bind_relates (R := R) h.trans ha hf frame

theorem read (h : Passes s R) (path : List String) : Around R (Run.read path) := h.refl

theorem runCall (h : Passes s R) (name : String) (args : List Value) :
    Around R (Run.call s name args) := h.call name args

theorem truth (h : Passes s R) (v : Value) : Around R (Run.truth v) := by
  unfold Run.truth
  split
  · exact h.pure _
  · exact h.fail _

end Passes

mutual

theorem evaluate_follows (h : Passes s R) : (n : Node) → Around R (evaluate s n)
  | .mk _ _ _ _ children => by
    unfold evaluate
    exact h.bind (items_follow h children) fun _ => h.ofExcept _

theorem items_follow (h : Passes s R) : (ns : List Node) → Around R (items s ns)
  | [] => by
    unfold items
    exact h.pure _
  | n :: rest => by
    unfold items
    exact h.bind (item_follows h n) fun _ => h.bind (items_follow h rest) fun _ => h.pure _

theorem item_follows (h : Passes s R) : (n : Node) → Around R (item s n)
  | .mk kind value line column children => by
    unfold item
    split
    · split
      · exact h.pure _
      · exact h.fail _
    · split
      · exact h.pure _
      · exact h.fail _
    · split
      · exact h.pure _
      · exact h.fail _
    · exact h.pure _
    · exact h.pure _
    · exact h.bind (h.read _) fun _ => h.pure _
    · rename_i heq
      cases heq
      exact h.bind (arguments_follow h children) fun _ => h.bind (h.runCall _ _) fun _ => h.pure _
    · exact h.fail _

theorem arguments_follow (h : Passes s R) : (ns : List Node) → Around R (arguments s ns)
  | [] => by
    unfold arguments
    exact h.pure _
  | n :: rest => by
    unfold arguments
    exact h.bind (evaluate_follows h n) fun _ => h.bind (arguments_follow h rest) fun _ => h.pure _

end

theorem holds_follows (h : Passes s R) (condition : Node) : Around R (holds s condition) :=
  h.bind (evaluate_follows h condition) h.truth

namespace Follows

theorem runWrite (h : Follows s R) (path : List String) (v : Value) :
    Around R (Run.write path v) := by
  intro f
  cases hw : f.stack.write f.store path v with
  | error fault =>
    rw [Run.write_error hw]
    exact h.refl f
  | ok after =>
    rw [Run.write_ok hw]
    exact h.write hw

theorem loop (h : Follows s R) {condition : Run Bool} {body : Run Unit}
    (hc : Around R condition) (hb : Around R body) (left : Nat) :
    Around R (Run.loop s condition body left) := by
  induction left with
  | zero =>
    refine h.bind hc fun b => ?_
    cases b
    · exact h.refl
    · exact h.refl
  | succ left ih =>
    refine h.bind hc fun b => ?_
    cases b
    · exact h.refl
    · exact h.bind hb fun _ => ih

end Follows

mutual

theorem statement_follows (h : Follows s R) : (n : Node) → Around R (statement s n)
  | .mk kind value line column children => by
    unfold statement
    split
    · exact h.pure _
    · rename_i target value heq
      cases heq
      exact h.bind (evaluate_follows h.toPasses value) fun v => h.runWrite _ v
    · rename_i name _ _ children heq
      cases heq
      exact h.bind (arguments_follow h.toPasses children) fun _ =>
        h.bind (h.runCall _ _) fun _ => h.pure _
    · rename_i condition body rest heq
      cases heq
      refine h.bind (holds_follows h.toPasses condition) fun b => ?_
      cases b
      · exact alternative_follows h rest
      · exact block_follows h body
    · rename_i condition body heq
      cases heq
      exact h.loop (holds_follows h.toPasses condition) (block_follows h body) _
    · exact h.fail _

/-- What holds around calls and assignments holds around a body, whether it ends or fails. -/
theorem block_follows (h : Follows s R) : (n : Node) → Around R (block s n)
  | .mk _ _ _ _ children => by
    unfold block
    exact statements_follow h children

theorem statements_follow (h : Follows s R) : (ns : List Node) → Around R (statements s ns)
  | [] => by
    unfold statements
    exact h.pure _
  | n :: rest => by
    unfold statements
    exact h.bind (statement_follows h n) fun _ => statements_follow h rest

theorem alternative_follows (h : Follows s R) :
    (ns : List Node) → Around R (alternative s ns)
  | [] => by
    unfold alternative
    exact h.pure _
  | .mk _ _ _ _ children :: _ => by
    unfold alternative
    exact firstBlock_follows h children

theorem firstBlock_follows (h : Follows s R) :
    (ns : List Node) → Around R (firstBlock s ns)
  | [] => by
    unfold firstBlock
    exact h.pure _
  | n :: rest => by
    unfold firstBlock
    split
    · exact block_follows h n
    · exact firstBlock_follows h rest

end

/-- A relation that holds around a body holds from the frame that an invocation starts with. -/
theorem execute_follows (config : Config) (body : Node) (d : Declaration) (matched : Binding)
    (c : EventContext) (h : Follows ⟨d.name, c, config⟩ R) (w : World) :
    ∃ f, R (Frame.entry d matched c w) f ∧ (execute config body d matched c w).state = f.world ∧
      ∀ events, (execute config body d matched c w).result = .ok events →
        events = f.effects.emitted := by
  refine ⟨_, block_follows h body _, rfl, fun events he => ?_⟩
  simp only [execute, Except.map] at he
  split at he
  · cases he
  · exact (Except.ok.inj he).symm

end SceneScript.Script
