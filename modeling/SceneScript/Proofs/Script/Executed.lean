import SceneScript.Proofs.Action
import SceneScript.Proofs.Script.Calls
import SceneScript.Proofs.Script.Postfix
import SceneScript.Proofs.Script.WellFormed
import SceneScript.Script.Execute

/-! # What running a well-formed body promises

A body can fail for what its values are, but never for how its tree is built: the interpreter finds
the children it looks for, and every expression can be reduced.
-/
namespace SceneScript.Script

/-- The error says nothing about the tree. -/
def Sane (e : RuntimeError) : Prop := e.root ≠ .malformedExpression

/-- The action never finds its tree malformed. -/
abbrev Robust {α : Type} (a : Run α) : Prop := a.Meets (fun _ => True) Sane

theorem ofCore_meets {α : Type} (x : Except SceneScript.Error α) :
    Result.Meets (ofCore x) (fun _ => True) (· ≠ .malformedExpression) := by
  cases x <;> simp [Result.Meets, ofCore]

theorem Stack.read_meets (s : Stack) (store : Store) {path : List String} (h : path ≠ []) :
    Result.Meets (s.read store path) (fun _ => True) (· ≠ .malformedExpression) := by
  cases path with
  | nil => exact (h rfl).elim
  | cons first rest =>
    unfold read
    dsimp only
    split
    · simp [Result.Meets]
    · exact ofCore_meets _
    · split
      · exact ofCore_meets _
      · exact ofCore_meets _

theorem Stack.write_meets (s : Stack) (store : Store) {path : List String} (h : path ≠ [])
    (new : Value) :
    Result.Meets (s.write store path new) (fun _ => True) (· ≠ .malformedExpression) := by
  cases path with
  | nil => exact (h rfl).elim
  | cons first rest =>
    unfold write
    dsimp only
    split
    · split
      · trivial
      · simp [Result.Meets]
    · exact ofCore_meets _
    · split
      · simp [Result.Meets]
      · exact ofCore_meets _

theorem Builtin.check_meets (b : Builtin) (args : List Value) :
    Result.Meets (b.check args) (fun _ => True) (· ≠ .malformedExpression) := by
  unfold check
  split
  · simp [Result.Meets]
  · split
    · simp [Result.Meets]
    · trivial

theorem Builtin.randint_meets (c : EventContext) (args : List Value) :
    (randint c args).Meets (fun _ => True) (· ≠ .malformedExpression) := by
  unfold randint
  dsimp only
  split
  · exact Action.meets_fail (by simp)
  · exact Action.meets_get.bind fun _ _ => (Action.meets_set _).bind fun _ _ =>
      Action.meets_pure trivial

theorem Builtin.queue_meets (event : Event) :
    (queue event).Meets (fun _ => True) (· ≠ .malformedExpression) :=
  (Action.meets_modify _).bind fun _ _ => Action.meets_pure trivial

theorem Builtin.emitTo_meets (c : EventContext) (args : List Value) :
    (emitTo c args).Meets (fun _ => True) (· ≠ .malformedExpression) := by
  unfold emitTo
  dsimp only
  split
  · exact queue_meets _
  · exact Action.meets_fail (by simp)

theorem Builtin.native_meets {b : Builtin} (hb : b ∈ all) (c : EventContext) (args : List Value) :
    (b.native c args).Meets (fun _ => True) (· ≠ .malformedExpression) := by
  rcases row_cases hb with ⟨f, type, hf⟩ | rfl | rfl | rfl | rfl
  · rw [hf.native]
    exact Action.meets_pure trivial
  · exact (Action.meets_log _ _).bind fun _ _ => Action.meets_pure trivial
  · exact randint_meets c args
  · exact queue_meets _
  · exact emitTo_meets c args

theorem Builtin.call_meets (name : String) (c : EventContext) (args : List Value) :
    (call name c args).Meets (fun _ => True) (· ≠ .malformedExpression) := by
  unfold call
  split
  · rename_i b hb
    exact (Action.meets_ofExcept (b.check_meets args)).bind fun _ _ =>
      native_meets (List.mem_of_find?_eq_some hb) c args
  · exact Action.meets_fail (by simp)

namespace Run

theorem ofExcept_meets {α : Type} {x : Except RuntimeFault α} {answers : α → Prop}
    (h : Result.Meets x answers (· ≠ .malformedExpression)) : (ofExcept x).Meets answers Sane := by
  have hf : Result.Meets x answers fun f => Sane (.fault f) := h
  exact Action.meets_ofExcept hf.mapError

theorem read_robust {path : List String} (h : path ≠ []) : Robust (read path) :=
  Action.meets_get.bind fun f _ => ofExcept_meets (f.stack.read_meets f.store h)

theorem write_robust {path : List String} (h : path ≠ []) (new : Value) :
    Robust (write path new) :=
  Action.meets_get.bind fun f _ =>
    (ofExcept_meets (f.stack.write_meets f.store h new)).bind fun _ _ => Action.meets_set _

theorem call_robust (s : Setting) (name : String) (args : List Value) :
    Robust (call s name args) := by
  have hf : (Builtin.call name s.context args).Meets (fun _ => True) fun f => Sane (.fault f) :=
    Builtin.call_meets name s.context args
  exact hf.mapError.onPart _ _

theorem truth_robust (v : Value) : Robust (truth v) := by
  unfold truth
  split
  · exact Action.meets_pure trivial
  · exact Action.meets_fail (by simp [Sane, RuntimeError.root])

theorem loop_robust (s : Setting) {condition : Run Bool} {body : Run Unit}
    (hc : Robust condition) (hb : Robust body) (left : Nat) :
    Robust (loop s condition body left) := by
  induction left with
  | zero =>
    refine hc.bind fun b _ => ?_
    cases b
    · exact Action.meets_pure trivial
    · exact Action.meets_log _ _
  | succ left ih =>
    refine hc.bind fun b _ => ?_
    cases b
    · exact Action.meets_pure trivial
    · exact hb.bind fun _ _ => ih

theorem located_robust {α : Type} {a : Run α} (h : Robust a) (line column : Nat) :
    Robust (located line column a) := by
  refine Action.Meets.mapError (h.mono (fun _ _ => trivial) fun e he => ?_)
  cases e with
  | fault f => exact he
  | located line column source => exact he

end Run

mutual

theorem evaluate_robust (s : Setting) : (n : Node) → IsExpression n → Robust (evaluate s n)
  | .mk kind value line column list, h => by
    unfold evaluate
    cases kind <;> first | exact h.elim | skip
    exact (items_meet s list 0 h).bind fun its hi => Run.ofExcept_meets (Item.reduce_meets hi)

theorem items_meet (s : Setting) : (list : List Node) → (n : Nat) → IsPostfix list n →
    (items s list).Meets (fun its => Item.height? n its = some 1) Sane
  | [], n, h => by
    unfold items
    have hn : n = 1 := h
    exact Action.meets_pure (by rw [hn]; rfl)
  | node :: rest, n, h => by
    unfold items
    rcases h with ⟨ho, hn, hr⟩ | ⟨ho, hr⟩
    · refine (operator_meets s node ho).bind fun i hi => ?_
      refine (items_meet s rest (n - 1) hr).bind fun its hits => Action.meets_pure ?_
      obtain ⟨op, rfl⟩ := hi
      obtain ⟨m, rfl⟩ := Nat.exists_eq_add_of_le' hn
      exact hits
    · refine (operand_meets s node ho).bind fun i hi => ?_
      refine (items_meet s rest (n + 1) hr).bind fun its hits => Action.meets_pure ?_
      obtain ⟨v, rfl⟩ := hi
      exact hits

theorem operator_meets (s : Setting) : (n : Node) → IsOperator n →
    (item s n).Meets (fun i => ∃ op, i = .operator op) Sane
  | .mk kind value line column children, ⟨hk, op, ho⟩ => by
    obtain rfl : kind = .operator := hk
    have hv : Operator.ofSymbol? value = some op := ho
    simp only [item, hv]
    exact Action.meets_pure ⟨op, rfl⟩

theorem operand_meets (s : Setting) : (n : Node) → IsOperand n →
    (item s n).Meets (fun i => ∃ v, i = .operand v) Sane
  | .mk kind value line column children, h => by
    cases kind with
    | number =>
      obtain ⟨x, hx, -⟩ := h
      simp only [item, hx]
      exact Action.meets_pure ⟨_, rfl⟩
    | integer =>
      obtain ⟨n, hn⟩ := h
      simp only [item, hn]
      exact Action.meets_pure ⟨_, rfl⟩
    | string =>
      simp only [item]
      exact Action.meets_pure ⟨_, rfl⟩
    | boolean =>
      simp only [item]
      exact Action.meets_pure ⟨_, rfl⟩
    | path =>
      have hp : children.map Node.value ≠ [] := fun hn => h (List.map_eq_nil_iff.mp hn)
      simp only [item]
      exact (Run.read_robust hp).bind fun v _ => Action.meets_pure ⟨v, rfl⟩
    | call =>
      simp only [item]
      exact (arguments_robust s children h).bind fun _ _ =>
        (Run.call_robust s _ _).bind fun v _ => Action.meets_pure ⟨v, rfl⟩
    | _ => exact h.elim

theorem arguments_robust (s : Setting) : (ns : List Node) → AreExpressions ns →
    Robust (arguments s ns)
  | [], _ => by
    unfold arguments
    exact Action.meets_pure trivial
  | n :: rest, h => by
    unfold arguments
    exact (evaluate_robust s n h.1).bind fun _ _ =>
      (arguments_robust s rest h.2).bind fun _ _ => Action.meets_pure trivial

end

theorem holds_robust (s : Setting) {condition : Node} (h : IsExpression condition) :
    Robust (holds s condition) :=
  (evaluate_robust s condition h).bind fun v _ => Run.truth_robust v

theorem IsPath.segments {n : Node} (h : IsPath n) : n.segments ≠ [] := by
  obtain ⟨kind, value, line, column, names⟩ := n
  cases kind with
  | path => exact fun hn => h (List.map_eq_nil_iff.mp hn)
  | _ => exact h.elim

mutual

theorem statement_robust (s : Setting) : (n : Node) → IsStatement n → Robust (statement s n)
  | .mk kind value line column children, h => by
    unfold statement
    split
    · exact Action.meets_pure trivial
    · rename_i target value heq
      cases heq
      exact (evaluate_robust s value h.2).bind fun v _ => Run.write_robust h.1.segments v
    · rename_i heq
      cases heq
      exact (arguments_robust s children h).bind fun _ _ =>
        (Run.call_robust s _ _).bind fun _ _ => Action.meets_pure trivial
    · rename_i condition body rest heq
      cases heq
      refine (holds_robust s h.1).bind fun b _ => ?_
      cases b
      · exact alternative_robust s rest h.2.2
      · exact block_robust s body h.2.1
    · rename_i condition body heq
      cases heq
      exact Run.loop_robust s (holds_robust s h.1) (block_robust s body h.2) _
    · rename_i hpass hassign hcall hif hloop
      unfold IsStatement at h
      split at h
      · rename_i heq
        exact (hpass _ _ _ _ heq).elim
      · rename_i heq
        exact (hassign _ _ _ _ _ heq).elim
      · rename_i heq
        exact (hcall _ _ _ _ heq).elim
      · rename_i heq
        exact (hif _ _ _ _ _ _ heq).elim
      · rename_i heq
        exact (hloop _ _ _ _ _ heq).elim
      · exact h.elim

theorem block_robust (s : Setting) : (n : Node) → IsBlock n → Robust (block s n)
  | .mk kind _ _ _ children, h => by
    unfold block
    cases kind with
    | block => exact statements_robust s children h
    | _ => exact h.elim

theorem statements_robust (s : Setting) : (ns : List Node) → AreStatements ns →
    Robust (statements s ns)
  | [], _ => by
    unfold statements
    exact Action.meets_pure trivial
  | n :: rest, h => by
    unfold statements
    exact (Run.located_robust (statement_robust s n h.1) _ _).bind fun _ _ =>
      statements_robust s rest h.2

theorem alternative_robust (s : Setting) : (ns : List Node) → IsAlternative ns →
    Robust (alternative s ns)
  | [], _ => by
    unfold alternative
    exact Action.meets_pure trivial
  | [.mk kind _ _ _ children], h => by
    unfold alternative
    cases kind with
    | alternative => exact firstBlock_robust s children h
    | _ => exact h.elim
  | .mk kind _ _ _ _ :: _ :: _, h => by
    cases kind <;> exact h.elim

theorem firstBlock_robust (s : Setting) : (ns : List Node) → IsOnlyBlock ns →
    Robust (firstBlock s ns)
  | [], h => h.elim
  | [body], h => by
    unfold firstBlock
    split
    · exact block_robust s body h
    · unfold firstBlock
      exact Action.meets_pure trivial
  | _ :: _ :: _, h => h.elim

end

/-- A well-formed body is never found malformed, under any settings, for any entity and event, from
any store, and whatever numbers are drawn. -/
theorem execute_sane {body : Node} (h : IsBlock body) (config : Config) (d : Declaration)
    (matched : Binding) (c : EventContext) (w : World) {err : RuntimeError}
    (he : (execute config body d matched c w).result = .error err) : Sane err := by
  have hb := block_robust ⟨d.name, c, config⟩ body h (Frame.entry d matched c w)
  cases hr : (block ⟨d.name, c, config⟩ body (Frame.entry d matched c w)).result with
  | ok _ => simp [execute, hr, Except.map] at he
  | error e =>
    simp only [execute, hr, Except.map, Except.error.injEq] at he
    subst he
    rw [hr] at hb
    exact hb

end SceneScript.Script
