import SceneScript.Proofs.Component.Combination
import SceneScript.Proofs.Scenario.Chain
import SceneScript.Proofs.Scenario.Stage

/-! # What the events of the cascade do

The store of the cascade is a table of counts next to the driver. A tick is answered with the first
step. A step is answered with the next one, up to the depth, and it is counted by every counter.
-/
namespace SceneScript.Scenario.Cascade
open Script

/-! ### The store -/

def driver : Entity := ⟨0⟩

def driverTag : Value := .record [("name", .string "driver")]

def tagged (tags : Table Entity Value) : Component :=
  ⟨.tag, ⟨ComponentDescription.tag.shape, .table tags⟩⟩

def counting (counts : Table Entity Int64) : Component :=
  ⟨counter, ⟨counter.shape, .table (Table.mapValues Value.integer counts)⟩⟩

/-- The store with some counts. -/
def store (tags : Table Entity Value) (counts : Table Entity Int64) : Store :=
  ⟨[("Counter", ⟨1⟩), ("Tag", ⟨0⟩)], [tagged tags, counting counts]⟩

def driven (counts : Table Entity Int64) : Store := store [(driver, driverTag)] counts

section
variable (tags : Table Entity Value) (counts : Table Entity Int64)

theorem idOf_tag : (store tags counts).idOf "Tag" = .ok ⟨0⟩ := by
  rfl

theorem idOf_counter : (store tags counts).idOf "Counter" = .ok ⟨1⟩ := by
  rfl

theorem add_tag (e : Entity) (name : String) :
    (store tags counts).add e ⟨0⟩ (.record [("name", .string name)]) =
      .ok (store (Table.insert tags e (.record [("name", .string name)])) counts) := by
  rfl

theorem add_counter (e : Entity) (n : Int64) :
    (store tags counts).add e ⟨1⟩ (.integer n) =
      .ok (store tags (Table.insert counts e n)) := by
  have hinsert := Table.insert_mapValues Value.integer counts e n
  rw [store, store, counting, counting, ← hinsert]
  rfl

end

def tagRef (e : Entity) : ComponentRef := ⟨e, ⟨0⟩, "Tag"⟩

def countRef (e : Entity) : ComponentRef := ⟨e, ⟨1⟩, "Counter"⟩

section
variable {tags : Table Entity Value} {counts : Table Entity Int64} {e : Entity} {n : Int64}

theorem get?_countRef : (countRef e).get? (store tags counts) =
    (Table.find? counts e).map Value.integer :=
  Table.find?_mapValues Value.integer counts e

theorem value_countRef (h : Table.find? counts e = some n) :
    (countRef e).value (store tags counts) = .ok (.integer n) := by
  simp only [ComponentRef.value, get?_countRef, h, Option.map_some]

/-- Putting a count into the place of a counter changes the count of this counter. -/
theorem set_countRef (hs : Table.Sorted counts) (h : Table.find? counts e = some n)
    (f : Int64 → Int64) :
    (countRef e).set (store tags counts) (.integer (f n)) =
      .ok (store tags (Table.modify counts e f)) := by
  have hadd := add_counter tags counts e (f n)
  rw [hs.insert_eq_modify h] at hadd
  simp only [ComponentRef.set, get?_countRef, h, Option.map_some]
  exact hadd

theorem matching_tag (counts : Table Entity Int64) : Matching.of (driven counts) ["Tag"] =
    .ok ⟨[(⟨0⟩, "Tag")], [driver]⟩ := by
  refine Matching.of_one (idOf_tag _ counts) fun e he => ?_
  obtain rfl := List.mem_singleton.mp he
  rfl

/-- Every counter is matched, in ascending order. -/
theorem matching_counter (tags : Table Entity Value) (counts : Table Entity Int64) :
    Matching.of (store tags counts) ["Counter"] =
      .ok ⟨[(⟨1⟩, "Counter")], Table.keys counts⟩ := by
  have hentities : Matching.entitiesWith (store tags counts) ⟨1⟩ = Table.keys counts :=
    Table.keys_mapValues Value.integer counts
  rw [← hentities]
  refine Matching.of_one (idOf_counter tags counts) fun e he => ?_
  rw [hentities] at he
  have hhas : (store tags counts).has e ⟨1⟩ =
      ((countRef e).get? (store tags counts)).isSome := rfl
  obtain ⟨n, hn⟩ := Option.isSome_iff_exists.mp (Table.find?_isSome.mpr he)
  rw [hhas, get?_countRef, hn]
  rfl

end

/-! ### The bodies -/

/-- The event of a step. -/
def stepEvent (n : Int64) : Event := ⟨"Step", .integer n, []⟩

/-- The frame when a step has been emitted. -/
def emitting (f : Frame) (n : Int64) : Frame :=
  { f with effects := { f.effects with emitted := f.effects.emitted ++ [stepEvent n] } }

section
variable (s : Setting) {f : Frame} {n d : Int64}

theorem call_emit (f : Frame) (n : Int64) :
    Run.call s "emit" [.string "Step", .integer n] f = ⟨.ok .void, emitting f n, []⟩ := by
  rfl

/-- A call of this form emits the step that its second argument is the number of. -/
theorem statement_emit {line column : Nat} {number : Node}
    (h : evaluate s number f = ⟨.ok (.integer n), f, []⟩) :
    statement s (emitNode line column number) f = ⟨.ok (), emitting f n, []⟩ := by
  have hname : evaluate s (.mk .expression "" line (column + 5)
      [.mk .string "Step" line (column + 5) []]) f = ⟨.ok (.string "Step"), f, []⟩ := by
    simp only [evaluate, items, item]
    rfl
  have harguments : arguments s [.mk .expression "" line (column + 5)
      [.mk .string "Step" line (column + 5) []], number] f =
        ⟨.ok [.string "Step", .integer n], f, []⟩ := by
    rw [arguments, Action.bind_silent hname, arguments, arguments]
    exact Action.bind_silent (Action.bind_silent h)
  rw [emitNode, statement, Action.bind_silent harguments, Action.bind_silent (call_emit s f n)]
  rfl

theorem readInteger?_one : Number.readInteger? "1" = some 1 := by
  decide +kernel

theorem evaluate_first (f : Frame) : evaluate s firstNode f = ⟨.ok (.integer 1), f, []⟩ := by
  simp only [firstNode, literal, evaluate, items, item, readInteger?_one]
  rfl

/-- The expressions of the other bodies: an operator between a path and an integer. -/
theorem evaluate_binary {line column line₁ column₁ line₂ column₂ line₃ column₃ : Nat}
    {text symbol name : String} {names : List Node} {k : Int64} {op : Operator} {v : Value}
    (h : f.stack.read f.store (names.map Node.value) = .ok (.integer n))
    (hk : Number.readInteger? text = some k) (hop : Operator.ofSymbol? symbol = some op)
    (hv : op.apply (.integer n) (.integer k) = .ok v) :
    evaluate s (.mk .expression "" line column [.mk .path name line₁ column₁ names,
      literal line₂ column₂ text, .mk .operator symbol line₃ column₃ []]) f = ⟨.ok v, f, []⟩ := by
  have hitems : items s [.mk .path name line₁ column₁ names, literal line₂ column₂ text,
      .mk .operator symbol line₃ column₃ []] f =
        ⟨.ok [.operand (.integer n), .operand (.integer k), .operator op], f, []⟩ := by
    have hpath : item s (.mk .path name line₁ column₁ names) f =
        ⟨.ok (.operand (.integer n)), f, []⟩ := by
      rw [item]
      exact Action.bind_silent (Run.read_ok h)
    simp only [items, literal, Action.bind_silent hpath]
    simp only [item, hk, hop]
    rfl
  have hreduce : Item.reduce [.operand (.integer n), .operand (.integer k), .operator op] =
      .ok v := by
    simp only [Item.reduce, List.length_cons, Item.reduceWith, Item.firstTriple?, hv]
    rfl
  rw [evaluate, Action.bind_silent hitems, hreduce]
  rfl

theorem block_start (f : Frame) : block s startBody f = ⟨.ok (), emitting f 1, []⟩ :=
  block_one (statement_emit s (evaluate_first s f)) ..

theorem evaluate_next (h : f.stack.read f.store ["depth"] = .ok (.integer n)) :
    evaluate s nextNode f = ⟨.ok (.integer (n + 1)), f, []⟩ :=
  evaluate_binary s h readInteger?_one rfl rfl

/-- The bound is read from its text, which can be the decimal of any integer. -/
theorem evaluate_condition {depth : String} (hd : Number.readInteger? depth = some d)
    (h : f.stack.read f.store ["depth"] = .ok (.integer n)) :
    evaluate s (conditionNode depth) f = ⟨.ok (.boolean (decide (n < d))), f, []⟩ :=
  evaluate_binary s h hd rfl rfl

theorem block_step {depth : String} (hd : Number.readInteger? depth = some d)
    (h : f.stack.read f.store ["depth"] = .ok (.integer n)) :
    block s (stepBody depth) f =
      ⟨.ok (), if n < d then emitting f (n + 1) else f, []⟩ := by
  have hholds : holds s (conditionNode depth) f = ⟨.ok (decide (n < d)), f, []⟩ := by
    rw [holds, Action.bind_silent (evaluate_condition s hd h)]
    rfl
  have hemit : block s (.mk .block "" 6 1 [emitNode 6 9 nextNode]) f =
      ⟨.ok (), emitting f (n + 1), []⟩ :=
    block_one (statement_emit s (evaluate_next s h)) ..
  refine block_one ?_ ..
  rw [statement, Action.bind_silent hholds]
  by_cases hn : n < d
  · rw [decide_eq_true hn, if_pos rfl, if_pos hn, hemit]
  · rw [decide_eq_false hn, if_neg Bool.false_ne_true, if_neg hn]
    rfl

variable {tags : Table Entity Value} {counts : Table Entity Int64} {e : Entity}
  {ref : EntityRef} {reached : Table String ComponentRef}

theorem evaluate_sum (h : f.stack.read f.store ["c", "Counter"] = .ok (.integer n)) :
    evaluate s sumNode f = ⟨.ok (.integer (n + 1)), f, []⟩ :=
  evaluate_binary s h readInteger?_one rfl rfl

/-- The body of the counter adds one in the place that its variable reaches. -/
theorem block_count (hvariable : Table.find? f.stack "c" = some (.entity ref reached))
    (hreached : Table.find? reached "Counter" = some (countRef e))
    (hstore : f.store = store tags counts) (hs : Table.Sorted counts)
    (h : Table.find? counts e = some n) :
    block s countBody f =
      ⟨.ok (), { f with store := store tags (Table.modify counts e (· + 1)) }, []⟩ := by
  have hcomponent : componentOf reached "Counter" = .ok (countRef e) := by
    simp only [componentOf, hreached]
  have hread : f.stack.read f.store ["c", "Counter"] = .ok (.integer n) := by
    simp only [Stack.read, hvariable, hcomponent, Result.ok_bind, hstore, value_countRef h]
    rfl
  have hset : (countRef e).setPath (store tags counts) [] (.integer (n + 1)) =
      .ok (store tags (Table.modify counts e (· + 1))) := set_countRef hs h (· + 1)
  have hwrite : f.stack.write f.store ["c", "Counter"] (.integer (n + 1)) =
      .ok (f.stack, store tags (Table.modify counts e (· + 1))) := by
    simp only [Stack.write, hvariable, hcomponent, Result.ok_bind, hstore, hset]
    rfl
  refine block_one ?_ ..
  rw [statement, Action.bind_silent (evaluate_sum s hread)]
  exact Run.write_ok hwrite

end

/-! ### The systems -/

section
variable {d n : Int64} {depth : String} {counts : Table Entity Int64} {p : Progress}
  (roster : Roster)

theorem offer_start (hp : p.store = driven counts) (seconds : Float) :
    p.offer roster (.tick seconds) start = ([stepEvent 1], p.ran p.store 1) := by
  have hmatching : Matching.of p.store ["Tag"] = .ok ⟨[(⟨0⟩, "Tag")], [driver]⟩ := by
    rw [hp, matching_tag]
  rw [start, systemOf, Progress.offer_perEntity rfl rfl hmatching]
  exact Progress.invokeEach_one (execute_ok (block_start _ _)) _

/-- The driver answers a step with the next one, if the depth is not reached. -/
theorem offer_step (hd : Number.readInteger? depth = some d) (hp : p.store = driven counts)
    (n : Int64) :
    p.offer roster (stepEvent n) (step depth) =
      (if n < d then [stepEvent (n + 1)] else [], p.ran p.store 1) := by
  have hmatching : Matching.of p.store ["Tag"] = .ok ⟨[(⟨0⟩, "Tag")], [driver]⟩ := by
    rw [hp, matching_tag]
  let declaration : Declaration := ⟨"step", "e", ["Tag"], stepped⟩
  let context : EventContext := ⟨stepEvent n, [], roster⟩
  have hread : ∀ b, (Stack.entry declaration b context).read p.store ["depth"] =
      .ok (.integer n) := by
    intro b
    have hnumber : Table.find? (Stack.entry declaration b context) "depth" =
        some (.value (.integer n)) :=
      (Stack.find?_entry (d := declaration) (c := context) b rfl rfl (by decide)).2
    simp only [Stack.read, hnumber]
    rfl
  have hrun : ∀ b, (execute {} (stepBody depth) declaration b context).mapError
      RuntimeError.message p.toWorld =
        ⟨.ok (if n < d then [stepEvent (n + 1)] else []), p.toWorld, []⟩ := by
    intro b
    refine (execute_ok (block_step ⟨"step", context, {}⟩ hd (hread b))).trans ?_
    split <;> rfl
  rw [step, systemOf, Progress.offer_perEntity rfl rfl hmatching]
  exact Progress.invokeEach_one (hrun _) _

/-- Every counter counts a step once. -/
theorem offer_count (hs : Table.Sorted counts) (hp : p.store = driven counts) (n : Int64) :
    p.offer roster (stepEvent n) count =
      ([], p.ran (driven (Table.mapValues (· + 1) counts)) counts.length) := by
  have hmatching : Matching.of p.store ["Counter"] =
      .ok ⟨[(⟨1⟩, "Counter")], Table.keys counts⟩ := by
    rw [hp, driven, matching_counter]
  let bind (e : Entity) : Binding := ⟨e, [countRef e]⟩
  have hrun : ∀ {t e} (random), Table.Sorted t → e ∈ Table.keys t →
      (execute {} countBody ⟨"count", "c", ["Counter"], stepped⟩ (bind e)
        ⟨stepEvent n, [], roster⟩).mapError RuntimeError.message ⟨driven t, random⟩ =
          ⟨.ok [], ⟨driven (Table.modify t e (· + 1)), random⟩, []⟩ := by
    intro t e random ht he
    obtain ⟨k, hk⟩ := Option.isSome_iff_exists.mp (Table.find?_isSome.mpr he)
    let declaration : Declaration := ⟨"count", "c", ["Counter"], stepped⟩
    let context : EventContext := ⟨stepEvent n, [], roster⟩
    have hvariable :=
      (Stack.find?_entry (d := declaration) (c := context) (bind e) rfl rfl (by decide)).1
    have hblock := block_count ⟨"count", context, {}⟩
      (f := Frame.entry declaration (bind e) context ⟨driven t, random⟩) hvariable
      (Table.find?_insert_self [] _ _) rfl ht hk
    exact execute_ok (d := declaration) (c := context) (w := ⟨driven t, random⟩) hblock
  rw [count, systemOf, Progress.offer_perEntity rfl rfl hmatching]
  exact Progress.invokeEach_keys hrun _ hs hp

end

end SceneScript.Scenario.Cascade
