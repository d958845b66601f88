import SceneScript.Proofs.Script.Postfix

/-! # Reduction on every list

A list of items need not be an expression. Applying the first operator behind two operands never
changes the height that the machine reaches, so a list that does not run to a single value is not
reduced to one either, however far it shrinks on the way. On the lists that are expressions the
first application to fail is the first one of the machine.
-/
namespace SceneScript.Script

namespace Item

/-- What is found stands in the list. -/
theorem firstTriple?_eq_some {items front behind : List Item} {a b : Value} {op : Operator}
    (h : firstTriple? items = some (front, a, b, op, behind)) :
    items = front ++ .operand a :: .operand b :: .operator op :: behind := by
  fun_induction firstTriple? items generalizing front a b op behind with
  | case1 a b op rest =>
    cases h
    rfl
  | case2 item rest hne ih =>
    obtain ⟨⟨front', a', b', op', behind'⟩, hrest, heq⟩ := Option.map_eq_some_iff.mp h
    cases heq
    rw [ih hrest]
    rfl
  | case3 => cases h

/-! ### The loop without a bound -/

/-- Where the loop ends, however long it takes: at a single operand, at a list in which nothing can
be applied, or at an application that fails. -/
inductive Reduces : List Item → Except RuntimeFault Value → Prop
  | value (v : Value) : Reduces [.operand v] (.ok v)
  | short {items : List Item} (hl : items.length ≤ 1) (hv : ∀ v, items ≠ [.operand v]) :
      Reduces items (.error .malformedExpression)
  | stuck {items : List Item} (hl : 1 < items.length) (hf : firstTriple? items = none) :
      Reduces items (.error .malformedExpression)
  | failed {items front behind : List Item} {a b : Value} {op : Operator} {err : SceneScript.Error}
      (hl : 1 < items.length) (hf : firstTriple? items = some (front, a, b, op, behind))
      (ha : op.apply a b = .error err) : Reduces items (.error (.core err))
  | applied {items front behind : List Item} {a b v : Value} {op : Operator}
      {result : Except RuntimeFault Value} (hl : 1 < items.length)
      (hf : firstTriple? items = some (front, a, b, op, behind)) (ha : op.apply a b = .ok v)
      (h : Reduces (front ++ .operand v :: behind) result) : Reduces items result

theorem reduceWith_short {items : List Item} (hl : items.length ≤ 1)
    (hv : ∀ v, items ≠ [.operand v]) (fuel : Nat) :
    reduceWith fuel items = .error .malformedExpression := by
  unfold reduceWith
  split
  · exact absurd rfl (hv _)
  · rfl
  · rw [if_pos hl]

theorem reduceWith_stuck {items : List Item} (hl : 1 < items.length)
    (hf : firstTriple? items = none) (fuel : Nat) :
    reduceWith fuel items = .error .malformedExpression := by
  unfold reduceWith
  split
  · simp at hl
  · rfl
  · rw [if_neg (by omega), hf]

/-- Every application shortens the list. -/
theorem length_applied {items front behind : List Item} {a b : Value} {op : Operator} {fuel : Nat}
    (hf : firstTriple? items = some (front, a, b, op, behind)) (hl : items.length ≤ fuel + 1)
    (v : Value) : (front ++ .operand v :: behind).length ≤ fuel := by
  rw [firstTriple?_eq_some hf] at hl
  simp only [List.length_append, List.length_cons] at hl ⊢
  omega

theorem Reduces.reduceWith_eq {items : List Item} {result : Except RuntimeFault Value}
    (h : Reduces items result) {fuel : Nat} (hl : items.length ≤ fuel) :
    reduceWith fuel items = result := by
  induction h generalizing fuel with
  | value v => cases fuel <;> rfl
  | short hs hv => exact reduceWith_short hs hv fuel
  | stuck hs hf => exact reduceWith_stuck hs hf fuel
  | failed hs hf ha =>
    obtain ⟨fuel, rfl⟩ : ∃ n, fuel = n + 1 := ⟨fuel - 1, by omega⟩
    rw [reduceWith_firstTriple fuel hs hf, ha]
    rfl
  | @applied items front behind a b v op result hs hf ha _ ih =>
    obtain ⟨fuel, rfl⟩ : ∃ n, fuel = n + 1 := ⟨fuel - 1, by omega⟩
    rw [reduceWith_firstTriple fuel hs hf, ha]
    exact ih (length_applied hf hl v)

theorem reduces_reduceWith {items : List Item} {fuel : Nat} (hl : items.length ≤ fuel) :
    Reduces items (reduceWith fuel items) := by
  induction fuel generalizing items with
  | zero =>
    obtain rfl := List.length_eq_zero_iff.mp (Nat.le_zero.mp hl)
    exact .short (Nat.zero_le 1) nofun
  | succ fuel ih =>
    by_cases hs : items.length ≤ 1
    · by_cases hv : ∀ v, items ≠ [.operand v]
      · rw [reduceWith_short hs hv]
        exact .short hs hv
      · obtain ⟨v, hv⟩ := Classical.not_forall.mp hv
        obtain rfl := Classical.not_not.mp hv
        exact .value v
    · have hlong : 1 < items.length := by omega
      cases hf : firstTriple? items with
      | none =>
        rw [reduceWith_stuck hlong hf]
        exact .stuck hlong hf
      | some found =>
        obtain ⟨front, a, b, op, behind⟩ := found
        rw [reduceWith_firstTriple fuel hlong hf]
        cases ha : op.apply a b with
        | error err => exact .failed hlong hf ha
        | ok v => exact .applied hlong hf ha (ih (length_applied hf hl v))

/-- The loop ends on every list, with the answer that the bound allows for. -/
theorem reduces_iff {items : List Item} {result : Except RuntimeFault Value} :
    Reduces items result ↔ result = reduce items := by
  constructor
  · intro h
    exact (h.reduceWith_eq (Nat.le_refl _)).symm
  · rintro rfl
    exact reduces_reduceWith (Nat.le_refl _)

/-! ### Heights -/

theorem height?_append (n : Nat) (xs ys : List Item) :
    height? n (xs ++ ys) = (height? n xs).bind fun m => height? m ys := by
  fun_induction height? n xs with
  | case1 n => rfl
  | case2 n v rest ih => exact ih
  | case3 n op rest ih => exact ih
  | case4 n op rest hn =>
    obtain _ | _ | n := n
    · rfl
    · rfl
    · exact absurd rfl (hn n)

/-- An application leaves the height behind the list as it is. -/
theorem height?_applied (n : Nat) (front behind : List Item) (a b v : Value) (op : Operator) :
    height? n (front ++ .operand a :: .operand b :: .operator op :: behind) =
      height? n (front ++ .operand v :: behind) := by
  rw [height?_append, height?_append]
  rfl

/-- What is reduced to a value was well-formed from the start. -/
theorem Reduces.wellFormed {items : List Item} {result : Except RuntimeFault Value}
    (h : Reduces items result) {v : Value} (hv : result = .ok v) : WellFormed items := by
  induction h with
  | value w => rfl
  | short | stuck | failed => cases hv
  | @applied items front behind a b w op result _ hf _ _ ih =>
    have hw : height? 0 (front ++ .operand w :: behind) = some 1 := ih hv
    rw [WellFormed, firstTriple?_eq_some hf, height?_applied 0 front behind a b w op]
    exact hw

theorem height?_of_run {stack stack' : List Value} {items : List Item}
    (h : run stack items = .ok stack') : height? stack.length items = some stack'.length := by
  induction items generalizing stack with
  | nil =>
    cases h
    rfl
  | cons item rest ih =>
    cases item with
    | operand v => exact ih h
    | operator op =>
      rcases stack with _ | ⟨b, _ | ⟨a, stack⟩⟩
      · cases h
      · cases h
      · obtain ⟨v, _, hrest⟩ := Result.bind_eq_ok.mp h
        exact ih hrest

theorem reduce_eq_ok_iff {items : List Item} {v : Value} :
    reduce items = .ok v ↔ run [] items = .ok [v] := by
  constructor
  · intro h
    have hw : WellFormed items := (reduces_iff.mpr h.symm).wellFormed rfl
    rw [reduce_eq_run hw] at h
    obtain ⟨stack, hrun, hs⟩ := Result.bind_eq_ok.mp h
    have hone := height?_of_run hrun
    rw [List.length_nil, show height? 0 items = some 1 from hw] at hone
    obtain ⟨w, rfl⟩ := List.length_eq_one_iff.mp (Option.some.inj hone).symm
    cases hs
    exact hrun
  · intro h
    have hw : WellFormed items := height?_of_run h
    rw [reduce_eq_run hw, h]
    rfl

/-! ### The first application that fails -/

/-- An operator that finds two values it cannot be applied to, and all in front of it has run. -/
def Fails (stack : List Value) (items : List Item) (err : RuntimeFault) : Prop :=
  ∃ front op behind a b below e, items = front ++ .operator op :: behind ∧
    run stack front = .ok (b :: a :: below) ∧ op.apply a b = .error e ∧ err = .core e

theorem Fails.run_eq {stack : List Value} {items : List Item} {err : RuntimeFault}
    (h : Fails stack items err) : run stack items = .error err := by
  obtain ⟨front, op, behind, a, b, below, e, rfl, hrun, ha, rfl⟩ := h
  rw [run_append, hrun, Result.ok_bind]
  simp only [run, ha, Result.mapError_error, Result.error_bind]

theorem Fails.behind {stack : List Value} {first rest : List Item} {err : RuntimeFault}
    {stack' : List Value} (h : run stack first = .ok stack') (hf : Fails stack' rest err) :
    Fails stack (first ++ rest) err := by
  obtain ⟨front, op, behind, a, b, below, e, rfl, hrun, ha, rfl⟩ := hf
  refine ⟨first ++ front, op, behind, a, b, below, e, (List.append_assoc ..).symm, ?_, ha, rfl⟩
  rw [run_append, h, Result.ok_bind, hrun]

/-- Where no operator finds too few values, the machine fails at an application. -/
theorem fails_of_run (stack : List Value) {items : List Item} {n : Nat} {err : RuntimeFault}
    (hw : height? stack.length items = some n) (h : run stack items = .error err) :
    Fails stack items err := by
  induction items generalizing stack with
  | nil => cases h
  | cons item rest ih =>
    cases item with
    | operand v =>
      have hone : run stack [.operand v] = .ok (v :: stack) := rfl
      have hrest : Fails (v :: stack) rest err := ih _ hw h
      exact hrest.behind hone
    | operator op =>
      rcases stack with _ | ⟨b, _ | ⟨a, stack⟩⟩
      · cases hw
      · cases hw
      · cases ha : op.apply a b with
        | error e =>
          simp only [run, ha, Result.mapError_error, Result.error_bind] at h
          cases h
          exact ⟨[], op, rest, a, b, stack, e, rfl, rfl, ha, rfl⟩
        | ok v =>
          have hone : run (b :: a :: stack) [.operator op] = .ok (v :: stack) := by
            simp only [run, ha, Result.mapError_ok, Result.ok_bind]
          simp only [run, ha, Result.mapError_ok, Result.ok_bind] at h
          have hrest : Fails (v :: stack) rest err := ih _ hw h
          exact hrest.behind hone

theorem reduce_eq_error_iff {items : List Item} (hw : WellFormed items) {err : RuntimeFault} :
    reduce items = .error err ↔ Fails [] items err := by
  rw [reduce_eq_run hw]
  constructor
  · intro h
    rcases Result.bind_eq_error.mp h with h | ⟨stack, hrun, hs⟩
    · exact fails_of_run [] hw h
    · have hone := height?_of_run hrun
      rw [List.length_nil, show height? 0 items = some 1 from hw] at hone
      obtain ⟨w, rfl⟩ := List.length_eq_one_iff.mp (Option.some.inj hone).symm
      cases hs
  · intro h
    rw [h.run_eq]
    rfl

end Item

namespace Term

/-- The machine with expressions in place of values: what stands on the stack spells all that was
read. -/
theorem exists_stack (stack : List Term) {list : List Item} {n : Nat}
    (h : Item.height? stack.length list = some n) : ∃ stack' : List Term, stack'.length = n ∧
      stack'.reverse.flatMap items = stack.reverse.flatMap items ++ list := by
  induction list generalizing stack with
  | nil => exact ⟨stack, Option.some.inj h, by simp⟩
  | cons item rest ih =>
    cases item with
    | operand v =>
      obtain ⟨stack', hn, hs⟩ := ih (.value v :: stack) h
      exact ⟨stack', hn, by simp [hs, items]⟩
    | operator op =>
      rcases stack with _ | ⟨right, _ | ⟨left, stack⟩⟩
      · cases h
      · cases h
      · obtain ⟨stack', hn, hs⟩ := ih (.apply op left right :: stack) h
        exact ⟨stack', hn, by simp [hs, items]⟩

/-- The well-formed lists are those that spell an expression. -/
theorem wellFormed_iff {list : List Item} : Item.WellFormed list ↔ ∃ t : Term, t.items = list := by
  constructor
  · intro h
    obtain ⟨stack, hn, hs⟩ := exists_stack [] h
    obtain ⟨t, rfl⟩ := List.length_eq_one_iff.mp hn
    exact ⟨t, by simpa using hs⟩
  · rintro ⟨t, rfl⟩
    exact t.wellFormed_items

end Term

/-- The loop that applies first operators ends on every list, well-formed or not. It ends with a
value exactly where the machine runs through the list and leaves this value alone on its stack. On a
list that spells an expression it ends with an error exactly where an application fails, and the
error is the one of the first application that fails on the machine; a list that spells none has no
value. -/
theorem Item.reduce_machine (items : List Item) :
    (∀ result, Reduces items result ↔ result = reduce items) ∧
    (∀ v, reduce items = .ok v ↔ run [] items = .ok [v]) ∧
    ((∃ t : Term, t.items = items) → ∀ err, reduce items = .error err ↔ Fails [] items err) ∧
    ((∀ t : Term, t.items ≠ items) → ∀ v, reduce items ≠ .ok v) := by
  refine ⟨fun _ => reduces_iff, fun _ => reduce_eq_ok_iff, fun ht err => ?_, fun ht v hv => ?_⟩
  · exact reduce_eq_error_iff (Term.wellFormed_iff.mpr ht)
  · have hw : WellFormed items := (reduces_iff.mpr hv.symm).wellFormed rfl
    obtain ⟨t, hspelled⟩ := Term.wellFormed_iff.mp hw
    exact ht t hspelled

end SceneScript.Script
