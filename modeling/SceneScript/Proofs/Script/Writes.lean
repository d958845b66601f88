import SceneScript.Proofs.Action
import SceneScript.Proofs.Component.Form
import SceneScript.Proofs.Result
import SceneScript.Proofs.Script.Follows

/-! # What scripts write

A script reaches the store only by assignments to components of its entity variables. The writes
of a run are listed in order, and the store behind the run is the store in front of it with these
writes made one after the other, each to a place that was filled.
-/
namespace SceneScript

namespace Store

/-- The second store comes from the first by writes to filled places, in the given order. -/
inductive Rewrites : Store → List Change → Store → Prop
  | nil (s : Store) : Rewrites s [] s
  | cons {s s₁ s₂ : Store} {e : Entity} {id : ComponentId} {v : Value} {h : List Change} :
    s.has e id = true → s.add e id v = .ok s₁ → Rewrites s₁ h s₂ →
      Rewrites s (.wrote e id v :: h) s₂

theorem Rewrites.append {s s₁ s₂ : Store} {h h' : List Change} (h₁ : Rewrites s h s₁)
    (h₂ : Rewrites s₁ h' s₂) : Rewrites s (h ++ h') s₂ := by
  induction h₁ with
  | nil => exact h₂
  | cons hf ha _ ih => exact .cons hf ha (ih h₂)

theorem Rewrites.has_eq {s s' : Store} {h : List Change} (hr : Rewrites s h s') (e : Entity)
    (id : ComponentId) : s'.has e id = s.has e id := by
  induction hr with
  | nil => rfl
  | cons hf ha _ ih =>
    rw [ih, has_add ha]
    split
    · rename_i hp
      rw [hp.1, hp.2, hf]
    · rfl

theorem Rewrites.catalog_eq {s s' : Store} {h : List Change} (hr : s.Rewrites h s') :
    s'.catalog = s.catalog := by
  induction hr with
  | nil => rfl
  | cons _ ha _ ih => exact ih.trans (catalog_add ha)

theorem Rewrites.form?_eq {s s' : Store} {h : List Change} (hr : s.Rewrites h s')
    (id : ComponentId) : s'.form? id = s.form? id := by
  induction hr with
  | nil => rfl
  | cons _ ha _ ih => exact ih.trans (form?_add ha id)

theorem Rewrites.sound {s s' : Store} {h h' : List Change} (hr : Rewrites s h' s')
    (hs : s.Sound h) : s'.Sound (h ++ h') := by
  induction hr generalizing h with
  | nil => simpa using hs
  | cons _ ha _ ih => simpa using ih (hs.add ha)

end Store

/-- The write that replacing a member of the value in a place makes, if it is made. -/
def ComponentRef.writes (r : ComponentRef) (s : Store) (path : List String) (new : Value) :
    List Change :=
  match r.setPath s path new, r.get? s with
  | .ok _, some old =>
    match old.setPath path new with
    | .ok v => [.wrote r.entity r.component v]
    | .error _ => []
  | _, _ => []

theorem ComponentRef.set_ok {r : ComponentRef} {s s' : Store} {v : Value}
    (h : r.set s v = .ok s') :
    s.has r.entity r.component = true ∧ s.add r.entity r.component v = .ok s' := by
  cases hg : r.get? s with
  | none => simp [set, hg] at h
  | some old =>
    simp only [set, hg] at h
    refine ⟨?_, h⟩
    cases hc : s.get? r.component with
    | none => simp [get?, hc] at hg
    | some c =>
      simp only [get?, hc, Option.bind_some] at hg
      simp [Store.has, hc, ComponentArray.has, hg]

theorem ComponentRef.setPath_ok {r : ComponentRef} {s s' : Store} {path : List String}
    {new : Value} (h : r.setPath s path new = .ok s') :
    ∃ old v, r.get? s = some old ∧ old.setPath path new = .ok v ∧ r.set s v = .ok s' := by
  cases hg : r.get? s with
  | none => cases path <;> simp [setPath, set, value, hg] at h
  | some old =>
    cases path with
    | nil => exact ⟨old, new, rfl, rfl, h⟩
    | cons name rest =>
      simp only [setPath, value, hg, Result.ok_bind, Result.bind_eq_ok] at h
      obtain ⟨v, hv, hset⟩ := h
      exact ⟨old, v, rfl, hv, hset⟩

theorem ComponentRef.setPath_rewrites {r : ComponentRef} {s s' : Store} {path : List String}
    {new : Value} (h : r.setPath s path new = .ok s') :
    s.Rewrites (r.writes s path new) s' := by
  obtain ⟨old, v, hg, hv, hset⟩ := setPath_ok h
  obtain ⟨hf, ha⟩ := set_ok hset
  simp only [writes, h, hg, hv]
  exact .cons hf ha (.nil s')

namespace Script

/-- The write that an assignment to a path makes, if it is one to a component. -/
def Stack.writes (s : Stack) (store : Store) (path : List String) (new : Value) : List Change :=
  match path with
  | first :: component :: members =>
    match Table.find? s first with
    | some (.entity _ components) =>
      match Table.find? components component with
      | some r => r.writes store members new
      | none => []
    | _ => []
  | _ => []

/-- An assignment gives a variable a value, or it changes the place of a component. -/
theorem Stack.write_ok {s s' : Stack} {store store' : Store} {path : List String} {new : Value}
    (h : s.write store path new = .ok (s', store')) :
    ∃ first rest, path = first :: rest ∧
      ((∃ v, s' = s.bind first (.value v) ∧ store' = store ∧
          ∀ ref components, Table.find? s first ≠ some (.entity ref components)) ∨
        ∃ ref components component members r, rest = component :: members ∧
          Table.find? s first = some (.entity ref components) ∧
          Table.find? components component = some r ∧ s' = s ∧
          r.setPath store members new = .ok store') := by
  cases path with
  | nil => cases h
  | cons first rest =>
    refine ⟨first, rest, rfl, ?_⟩
    cases hf : Table.find? s first with
    | none =>
      cases rest with
      | nil =>
        simp only [write, hf, Except.ok.injEq, Prod.mk.injEq] at h
        exact .inl ⟨new, h.1.symm, h.2.symm, by simp⟩
      | cons component members => simp [write, hf] at h
    | some bound =>
      cases bound with
      | value v =>
        simp only [write, hf, ofCore, Result.mapError_eq_ok, Result.bind_eq_ok, Result.pure_eq,
          Except.ok.injEq, Prod.mk.injEq] at h
        obtain ⟨v', _, rfl, rfl⟩ := h
        exact .inl ⟨v', rfl, rfl, by simp⟩
      | entity ref components =>
        cases rest with
        | nil => simp [write, hf] at h
        | cons component members =>
          cases hr : Table.find? components component with
          | none => simp [write, hf, componentOf, hr, ofCore] at h
          | some r =>
            simp only [write, hf, componentOf, hr, ofCore, Result.ok_bind, Result.mapError_eq_ok,
              Result.bind_eq_ok, Result.pure_eq, Except.ok.injEq, Prod.mk.injEq] at h
            obtain ⟨store₁, hp, rfl, rfl⟩ := h
            exact .inr ⟨ref, components, component, members, r, rfl, rfl, hr, rfl, hp⟩

theorem Stack.write_rewrites {s s' : Stack} {store store' : Store} {path : List String}
    {new : Value} (h : s.write store path new = .ok (s', store')) :
    store.Rewrites (s.writes store path new) store' := by
  obtain ⟨first, rest, rfl, ⟨v, -, rfl, hne⟩ | ⟨ref, components, component, members, r, rfl, hf, hr,
    -, hp⟩⟩ := write_ok h
  · have hw : s.writes store' (first :: rest) new = [] := by
      unfold writes
      split
      · rename_i heq
        cases heq
        split
        · rename_i hf
          exact absurd hf (hne _ _)
        · rfl
      · rfl
    rw [hw]
    exact .nil store'
  · simp only [writes, hf, hr]
    exact ComponentRef.setPath_rewrites hp

/-- An assignment that fails writes nothing. -/
theorem Stack.writes_of_error {s : Stack} {store : Store} {path : List String} {new : Value}
    {fault : RuntimeFault} (h : s.write store path new = .error fault) :
    s.writes store path new = [] := by
  unfold writes
  split
  · rename_i first component members
    split
    · rename_i hf
      split
      · rename_i r hr
        simp only [write, hf, componentOf, hr, ofCore, Result.ok_bind, Result.mapError_eq_error,
          Result.bind_eq_error] at h
        obtain ⟨err, hp | ⟨_, _, hp⟩, -⟩ := h
        · simp [ComponentRef.writes, hp]
        · cases hp
      · rfl
    · rfl
  · rfl

def Frame.memory (f : Frame) : Stack × Store := (f.stack, f.store)

theorem call_keeps (s : Setting) (name : String) (args : List Value) :
    Action.Keeps (Run.call s name args) Frame.memory := Action.Keeps.onPart fun _ _ => rfl

/-- Calls change neither variables nor places. -/
theorem passes_memory (s : Setting) : Passes s fun f f' => f'.memory = f.memory :=
  ⟨fun _ => rfl, fun h₁ h₂ => h₂.trans h₁, call_keeps s⟩

/-- Expressions read variables and places and change neither. -/
theorem evaluate_keeps (s : Setting) (n : Node) : Action.Keeps (evaluate s n) Frame.memory :=
  evaluate_follows (passes_memory s) n

theorem arguments_keep (s : Setting) (ns : List Node) :
    Action.Keeps (arguments s ns) Frame.memory := arguments_follow (passes_memory s) ns

theorem holds_keeps (s : Setting) (condition : Node) :
    Action.Keeps (holds s condition) Frame.memory := holds_follows (passes_memory s) condition

/-- The writes of an action, and behind them those of what follows when it does not fail. -/
def writesThen {α : Type} (a : Run α) (before : Frame → List Change)
    (after : α → Frame → List Change) (f : Frame) : List Change :=
  before f ++
    match (a f).result with
    | .ok x => after x (a f).state
    | .error _ => []

def noWrites (_ : Frame) : List Change := []

/-- The writes of a loop, where `writes` are those of its body. -/
def loopWrites (condition : Run Bool) (body : Run Unit) (writes : Frame → List Change) :
    (left : Nat) → Frame → List Change
  | 0 => noWrites
  | left + 1 =>
    writesThen condition noWrites fun b =>
      if b then writesThen body writes fun _ => loopWrites condition body writes left
      else noWrites

mutual

def statementWrites (s : Setting) : Node → Frame → List Change
  | .mk .assignment _ _ _ [target, value] =>
    writesThen (evaluate s value) noWrites fun v f => f.stack.writes f.store target.segments v
  | .mk .conditional _ _ _ (condition :: body :: rest) =>
    writesThen (holds s condition) noWrites fun b =>
      if b then blockWrites s body else alternativeWrites s rest
  | .mk .loop _ _ _ [condition, body] =>
    loopWrites (holds s condition) (block s body) (blockWrites s body) s.config.maxLoopIterations
  | _ => noWrites

def blockWrites (s : Setting) : Node → Frame → List Change
  | .mk _ _ _ _ children => statementsWrites s children

def statementsWrites (s : Setting) : List Node → Frame → List Change
  | [] => noWrites
  | node :: rest =>
    writesThen (Run.located node.line node.column (statement s node)) (statementWrites s node)
      fun _ => statementsWrites s rest

def alternativeWrites (s : Setting) : List Node → Frame → List Change
  | .mk _ _ _ _ children :: _ => firstBlockWrites s children
  | [] => noWrites

def firstBlockWrites (s : Setting) : List Node → Frame → List Change
  | [] => noWrites
  | node :: rest => if node.kind == .block then blockWrites s node else firstBlockWrites s rest

end

def executeWrites (config : Config) (body : Node) (d : Declaration) (matched : Binding)
    (c : EventContext) (w : World) : List Change :=
  blockWrites ⟨d.name, c, config⟩ body (Frame.entry d matched c w)

/-- An action changes the store by the listed writes and by nothing else. -/
def MakesWrites {α : Type} (a : Run α) (writes : Frame → List Change) : Prop :=
  ∀ f : Frame, f.store.Rewrites (writes f) (a f).state.store

section
variable {α : Type} {a : Run α} {next : α → Run Unit} {before : Frame → List Change}
  {after : α → Frame → List Change}

theorem makesWrites_of_keeps (h : Action.Keeps a Frame.memory) : MakesWrites a noWrites := by
  intro f
  have hs : (a f).state.store = f.store := congrArg Prod.snd (h f)
  rw [hs]
  exact .nil f.store

theorem MakesWrites.bind (ha : MakesWrites a before) (hn : ∀ x, MakesWrites (next x) (after x)) :
    MakesWrites (a >>= next) (writesThen a before after) := by
  intro f
  have hf := ha f
  rcases h : a f with ⟨result, f', records⟩
  rw [h] at hf
  cases result with
  | ok x =>
    simp only [Action.bind_ok h, writesThen, h]
    exact hf.append (hn x f')
  | error e =>
    simp only [Action.bind_error h, writesThen, h]
    exact hf.append (.nil f'.store)

theorem MakesWrites.located (ha : MakesWrites a before) (line column : Nat) :
    MakesWrites (Run.located line column a) before := ha

end

theorem write_makesWrites (path : List String) (new : Value) :
    MakesWrites (Run.write path new) fun f => f.stack.writes f.store path new := by
  intro f
  change f.store.Rewrites (f.stack.writes f.store path new) _
  cases hw : f.stack.write f.store path new with
  | error fault =>
    rw [Run.write_error hw, Stack.writes_of_error hw]
    exact .nil f.store
  | ok after =>
    rw [Run.write_ok hw]
    exact Stack.write_rewrites hw

theorem loop_makesWrites (s : Setting) {condition : Run Bool} {body : Run Unit}
    {writes : Frame → List Change} (hc : Action.Keeps condition Frame.memory)
    (hb : MakesWrites body writes) (left : Nat) :
    MakesWrites (Run.loop s condition body left) (loopWrites condition body writes left) := by
  induction left with
  | zero =>
    refine makesWrites_of_keeps (hc.bind fun b => ?_)
    cases b
    · exact Action.keeps_pure _
    · exact Action.keeps_log _ _
  | succ left ih =>
    refine (makesWrites_of_keeps hc).bind fun b => ?_
    cases b
    · exact makesWrites_of_keeps (Action.keeps_pure _)
    · exact hb.bind fun _ => ih

mutual

theorem statement_makesWrites (s : Setting) :
    (n : Node) → MakesWrites (statement s n) (statementWrites s n)
  | .mk kind value line column children => by
    unfold statement
    split
    · rename_i h
      cases h
      unfold statementWrites
      exact makesWrites_of_keeps (Action.keeps_pure _)
    · rename_i target value h
      cases h
      unfold statementWrites
      exact (makesWrites_of_keeps (evaluate_keeps s value)).bind fun v => write_makesWrites _ v
    · rename_i name _ _ children h
      cases h
      unfold statementWrites
      exact makesWrites_of_keeps ((arguments_keep s children).bind fun _ =>
        (call_keeps s _ _).bind fun _ => Action.keeps_pure _)
    · rename_i condition body rest h
      cases h
      unfold statementWrites
      refine (makesWrites_of_keeps (holds_keeps s condition)).bind fun b => ?_
      cases b
      · exact alternative_makesWrites s rest
      · exact block_makesWrites s body
    · rename_i condition body h
      cases h
      unfold statementWrites
      exact loop_makesWrites s (holds_keeps s condition) (block_makesWrites s body) _
    · rename_i hassign _ hif hloop
      have hw : statementWrites s (.mk kind value line column children) = noWrites := by
        unfold statementWrites
        split
        · rename_i h
          exact (hassign _ _ _ _ _ h).elim
        · rename_i h
          exact (hif _ _ _ _ _ _ h).elim
        · rename_i h
          exact (hloop _ _ _ _ _ h).elim
        · rfl
      rw [hw]
      exact makesWrites_of_keeps (Action.keeps_fail _)

theorem block_makesWrites (s : Setting) :
    (n : Node) → MakesWrites (block s n) (blockWrites s n)
  | .mk _ _ _ _ children => by
    unfold block blockWrites
    exact statements_makeWrites s children

theorem statements_makeWrites (s : Setting) :
    (ns : List Node) → MakesWrites (statements s ns) (statementsWrites s ns)
  | [] => by
    unfold statements statementsWrites
    exact makesWrites_of_keeps (Action.keeps_pure _)
  | n :: rest => by
    unfold statements statementsWrites
    exact ((statement_makesWrites s n).located _ _).bind fun _ => statements_makeWrites s rest

theorem alternative_makesWrites (s : Setting) :
    (ns : List Node) → MakesWrites (alternative s ns) (alternativeWrites s ns)
  | [] => by
    unfold alternative alternativeWrites
    exact makesWrites_of_keeps (Action.keeps_pure _)
  | .mk _ _ _ _ children :: _ => by
    unfold alternative alternativeWrites
    exact firstBlock_makesWrites s children

theorem firstBlock_makesWrites (s : Setting) :
    (ns : List Node) → MakesWrites (firstBlock s ns) (firstBlockWrites s ns)
  | [] => by
    unfold firstBlock firstBlockWrites
    exact makesWrites_of_keeps (Action.keeps_pure _)
  | n :: rest => by
    unfold firstBlock firstBlockWrites
    split
    · exact block_makesWrites s n
    · exact firstBlock_makesWrites s rest

end

/-- A run of a body changes the store by its writes and by nothing else. -/
theorem execute_rewrites (config : Config) (body : Node) (d : Declaration) (matched : Binding)
    (c : EventContext) (w : World) :
    w.store.Rewrites (executeWrites config body d matched c w)
      (execute config body d matched c w).state.store :=
  block_makesWrites ⟨d.name, c, config⟩ body (Frame.entry d matched c w)

end Script
end SceneScript
