import SceneScript.Proofs.Script.Follows

/-! # Two runs side by side

One body is run from two frames. When reads, assignments and the calls that occur in the body answer
the same from related frames and leave related frames, then the whole body answers the same, logs
the same and leaves related frames.
-/
namespace SceneScript

namespace Action
variable {ε δ σ α β : Type} {R : σ → σ → Prop}

/-- From related states the actions answer and log the same and leave related states. -/
def Alike (R : σ → σ → Prop) (a b : Action ε σ α) : Prop :=
  ∀ s t, R s t → (a s).result = (b t).result ∧ (a s).log = (b t).log ∧ R (a s).state (b t).state

theorem alike_pure (x : α) : Alike R (pure x : Action ε σ α) (pure x) :=
  fun _ _ h => ⟨rfl, rfl, h⟩

theorem alike_fail (e : ε) : Alike R (fail e : Action ε σ α) (fail e) := fun _ _ h => ⟨rfl, rfl, h⟩

theorem alike_log (level : LogLevel) (message : String) :
    Alike R (log level message : Action ε σ Unit) (log level message) :=
  fun _ _ h => ⟨rfl, rfl, h⟩

theorem alike_ofExcept (x : Except ε α) : Alike R (ofExcept x : Action ε σ α) (ofExcept x) :=
  fun _ _ h => ⟨rfl, rfl, h⟩

theorem Alike.bind {a b : Action ε σ α} {f g : α → Action ε σ β} (hab : Alike R a b)
    (hfg : ∀ x, Alike R (f x) (g x)) : Alike R (a >>= f) (b >>= g) := by
  intro s t h
  obtain ⟨hresult, hlog, hstate⟩ := hab s t h
  rcases ha : a s with ⟨result, s', records⟩
  rcases hb : b t with ⟨result', t', records'⟩
  rw [ha, hb] at hresult hlog hstate
  dsimp only at hresult hlog hstate
  subst hresult
  subst hlog
  cases result with
  | error e =>
    rw [bind_error ha, bind_error hb]
    exact ⟨rfl, rfl, hstate⟩
  | ok x =>
    obtain ⟨hresult, hlog, hstate⟩ := hfg x s' t' hstate
    rw [bind_ok ha, bind_ok hb]
    exact ⟨hresult, congrArg (records ++ ·) hlog, hstate⟩

theorem Alike.mapError {a b : Action ε σ α} (h : Alike R a b) (f : ε → δ) :
    Alike R (a.mapError f) (b.mapError f) := by
  intro s t hst
  obtain ⟨hresult, hlog, hstate⟩ := h s t hst
  exact ⟨congrArg (Except.mapError f) hresult, hlog, hstate⟩

end Action

namespace Script

mutual

/-- The functions that are called somewhere in a tree. -/
def Node.callees : Node → List String
  | .mk kind value _ _ children =>
    if kind = .call then value :: calleesIn children else calleesIn children

def calleesIn : List Node → List String
  | [] => []
  | n :: rest => n.callees ++ calleesIn rest

end

/-- Two settings in which the small steps of bodies are alike, as long as only some functions are
called. -/
structure Simulates (s s' : Setting) (allowed : String → Prop) (R : Frame → Frame → Prop) :
    Prop where
  system : s.system = s'.system
  config : s.config = s'.config
  read : ∀ path, Action.Alike R (Run.read path) (Run.read path)
  write : ∀ path v, Action.Alike R (Run.write path v) (Run.write path v)
  call : ∀ name args, allowed name → Action.Alike R (Run.call s name args) (Run.call s' name args)

variable {s s' : Setting} {allowed : String → Prop} {R : Frame → Frame → Prop}

theorem Run.truth_alike (v : Value) : Action.Alike R (Run.truth v) (Run.truth v) := by
  unfold Run.truth
  split
  · exact Action.alike_pure _
  · exact Action.alike_fail _

theorem callees_children {kind : NodeKind} {value : String} {line column : Nat}
    {children : List Node}
    (hc : ∀ name ∈ (Node.mk kind value line column children).callees, allowed name) :
    ∀ name ∈ calleesIn children, allowed name := by
  intro name hm
  apply hc
  unfold Node.callees
  split
  · exact List.mem_cons_of_mem _ hm
  · exact hm

theorem calleesIn_cons {n : Node} {rest : List Node}
    (hc : ∀ name ∈ calleesIn (n :: rest), allowed name) :
    (∀ name ∈ n.callees, allowed name) ∧ ∀ name ∈ calleesIn rest, allowed name :=
  ⟨fun name hm => hc name (List.mem_append_left _ hm),
    fun name hm => hc name (List.mem_append_right _ hm)⟩

theorem callees_self {value : String} {line column : Nat} {children : List Node}
    (hc : ∀ name ∈ (Node.mk .call value line column children).callees, allowed name) :
    allowed value := by
  apply hc
  unfold Node.callees
  rw [if_pos rfl]
  exact List.mem_cons_self ..

mutual

theorem evaluate_alike (h : Simulates s s' allowed R) :
    (n : Node) → (∀ name ∈ n.callees, allowed name) →
      Action.Alike R (evaluate s n) (evaluate s' n)
  | .mk _ _ _ _ children, hc => by
    unfold evaluate
    exact (items_alike h children (callees_children hc)).bind fun _ => Action.alike_ofExcept _

theorem items_alike (h : Simulates s s' allowed R) :
    (ns : List Node) → (∀ name ∈ calleesIn ns, allowed name) →
      Action.Alike R (items s ns) (items s' ns)
  | [], _ => by
    unfold items
    exact Action.alike_pure _
  | n :: rest, hc => by
    obtain ⟨hn, hrest⟩ := calleesIn_cons hc
    unfold items
    exact (item_alike h n hn).bind fun _ =>
      (items_alike h rest hrest).bind fun _ => Action.alike_pure _

theorem item_alike (h : Simulates s s' allowed R) :
    (n : Node) → (∀ name ∈ n.callees, allowed name) → Action.Alike R (item s n) (item s' n)
  | .mk kind value line column children, hc => by
    unfold item
    split
    · split
      · exact Action.alike_pure _
      · exact Action.alike_fail _
    · split
      · exact Action.alike_pure _
      · exact Action.alike_fail _
    · split
      · exact Action.alike_pure _
      · exact Action.alike_fail _
    · exact Action.alike_pure _
    · exact Action.alike_pure _
    · exact (h.read _).bind fun _ => Action.alike_pure _
    · rename_i heq
      cases heq
      exact (arguments_alike h children (callees_children hc)).bind fun _ =>
        (h.call _ _ (callees_self hc)).bind fun _ => Action.alike_pure _
    · exact Action.alike_fail _

theorem arguments_alike (h : Simulates s s' allowed R) :
    (ns : List Node) → (∀ name ∈ calleesIn ns, allowed name) →
      Action.Alike R (arguments s ns) (arguments s' ns)
  | [], _ => by
    unfold arguments
    exact Action.alike_pure _
  | n :: rest, hc => by
    obtain ⟨hn, hrest⟩ := calleesIn_cons hc
    unfold arguments
    exact (evaluate_alike h n hn).bind fun _ =>
      (arguments_alike h rest hrest).bind fun _ => Action.alike_pure _

end

theorem holds_alike (h : Simulates s s' allowed R) (condition : Node)
    (hc : ∀ name ∈ condition.callees, allowed name) :
    Action.Alike R (holds s condition) (holds s' condition) :=
  (evaluate_alike h condition hc).bind Run.truth_alike

theorem loop_alike (h : Simulates s s' allowed R) {condition condition' : Run Bool}
    {body body' : Run Unit} (hcondition : Action.Alike R condition condition')
    (hbody : Action.Alike R body body') (left : Nat) :
    Action.Alike R (Run.loop s condition body left) (Run.loop s' condition' body' left) := by
  induction left with
  | zero =>
    unfold Run.loop
    refine hcondition.bind fun b => ?_
    rw [h.system, h.config]
    cases b
    · exact Action.alike_pure _
    · exact Action.alike_log _ _
  | succ left ih =>
    refine hcondition.bind fun b => ?_
    cases b
    · exact Action.alike_pure _
    · exact hbody.bind fun _ => ih

mutual

theorem statement_alike (h : Simulates s s' allowed R) :
    (n : Node) → (∀ name ∈ n.callees, allowed name) →
      Action.Alike R (statement s n) (statement s' n)
  | .mk kind value line column children, hc => by
    have hchildren := callees_children hc
    unfold statement
    split
    · exact Action.alike_pure _
    · rename_i target value heq
      cases heq
      obtain ⟨_, hrest⟩ := calleesIn_cons hchildren
      exact (evaluate_alike h value (calleesIn_cons hrest).1).bind fun v => h.write _ v
    · rename_i name _ _ children heq
      cases heq
      exact (arguments_alike h children hchildren).bind fun _ =>
        (h.call _ _ (callees_self hc)).bind fun _ => Action.alike_pure _
    · rename_i condition body rest heq
      cases heq
      obtain ⟨hcondition, hrest⟩ := calleesIn_cons hchildren
      obtain ⟨hbody, hrest⟩ := calleesIn_cons hrest
      refine (holds_alike h condition hcondition).bind fun b => ?_
      cases b
      · exact alternative_alike h rest hrest
      · exact block_alike h body hbody
    · rename_i condition body heq
      cases heq
      obtain ⟨hcondition, hrest⟩ := calleesIn_cons hchildren
      rw [h.config]
      exact loop_alike h (holds_alike h condition hcondition)
        (block_alike h body (calleesIn_cons hrest).1) _
    · exact Action.alike_fail _

/-- Bodies are alike when their small steps are. -/
theorem block_alike (h : Simulates s s' allowed R) :
    (n : Node) → (∀ name ∈ n.callees, allowed name) → Action.Alike R (block s n) (block s' n)
  | .mk _ _ _ _ children, hc => by
    unfold block
    exact statements_alike h children (callees_children hc)

theorem statements_alike (h : Simulates s s' allowed R) :
    (ns : List Node) → (∀ name ∈ calleesIn ns, allowed name) →
      Action.Alike R (statements s ns) (statements s' ns)
  | [], _ => by
    unfold statements
    exact Action.alike_pure _
  | n :: rest, hc => by
    obtain ⟨hn, hrest⟩ := calleesIn_cons hc
    unfold statements
    exact ((statement_alike h n hn).mapError _).bind fun _ => statements_alike h rest hrest

theorem alternative_alike (h : Simulates s s' allowed R) :
    (ns : List Node) → (∀ name ∈ calleesIn ns, allowed name) →
      Action.Alike R (alternative s ns) (alternative s' ns)
  | [], _ => by
    unfold alternative
    exact Action.alike_pure _
  | .mk _ _ _ _ children :: _, hc => by
    unfold alternative
    exact firstBlock_alike h children (callees_children (calleesIn_cons hc).1)

theorem firstBlock_alike (h : Simulates s s' allowed R) :
    (ns : List Node) → (∀ name ∈ calleesIn ns, allowed name) →
      Action.Alike R (firstBlock s ns) (firstBlock s' ns)
  | [], _ => by
    unfold firstBlock
    exact Action.alike_pure _
  | n :: rest, hc => by
    obtain ⟨hn, hrest⟩ := calleesIn_cons hc
    unfold firstBlock
    split
    · exact block_alike h n hn
    · exact firstBlock_alike h rest hrest

end

end Script
end SceneScript
