import SceneScript.Proofs.Result
import SceneScript.Proofs.Script.Grammar
import SceneScript.Script.Node.Expression

/-! # Expressions are read by the grammar

What the parser reads as an expression has a derivation, and a derivation is read as its own node.
An operand is only known to be whole from the token behind it, so a derivation is read to its end
when that token does not continue it.
-/
namespace SceneScript.Script
namespace Grammar

theorem Call.tokens_eq (c : Call) : ∃ (start : Terminal .openParen) (ts : List Token),
    c.tokens = c.name.token :: start.token :: ts := by
  cases c with
  | empty name start stop => exact ⟨start, _, rfl⟩
  | given name start args stop => exact ⟨start, _, rfl⟩

theorem Operand.tokens_eq (x : Operand) : ∃ ts, x.tokens = x.start :: ts := by
  cases x with
  | literal l => exact ⟨[], rfl⟩
  | path p => exact ⟨_, rfl⟩
  | call c =>
    obtain ⟨start, ts, h⟩ := c.tokens_eq
    exact ⟨start.token :: ts, h⟩
  | group start inner stop => exact ⟨_, rfl⟩

theorem Operand.kind_start (x : Operand) : x.start.kind ≠ .closeParen := by
  cases x with
  | literal l => cases l <;> simp [Operand.start, Literal.token]
  | path p => simp [Operand.start]
  | call c => simp [Operand.start]
  | group start inner stop => simp [Operand.start]

theorem Expression.tokens_eq (e : Expression) : ∃ ts, e.tokens = e.start :: ts := by
  obtain ⟨first, more⟩ := e
  obtain ⟨ts, h⟩ := first.tokens_eq
  exact ⟨ts ++ more.tokens, by simp [Expression.tokens, Expression.start, h]⟩

theorem Expression.kind_start (e : Expression) : e.start.kind ≠ .closeParen := by
  obtain ⟨first, more⟩ := e
  exact first.kind_start

theorem Arguments.tokens_eq (args : Arguments) :
    ∃ (e : Expression) (ts : List Token), args.tokens = e.start :: ts := by
  cases args with
  | last e =>
    obtain ⟨ts, h⟩ := e.tokens_eq
    exact ⟨e, ts, by simp [Arguments.tokens, h]⟩
  | next e comma others =>
    obtain ⟨ts, h⟩ := e.tokens_eq
    exact ⟨e, ts ++ comma.token :: others.tokens, by simp [Arguments.tokens, h]⟩

end Grammar

open Grammar

namespace Source
variable {s : Source} {ts rest : List Token}

@[simp] theorem kind_cons (t : Token) (rest : List Token) : s.kind (t :: rest) = t.kind := rfl

@[simp] theorem nextKind_cons (t : Token) (rest : List Token) :
    s.nextKind (t :: rest) = s.kind rest := rfl

@[simp] theorem expect_terminal {kind : TokenKind} (w : Terminal kind) (expected : String)
    (rest : List Token) : s.expect kind expected (w.token :: rest) = .ok (w.token, rest) := by
  simp [expect]

@[simp] theorem skip_terminal {kind : TokenKind} (w : Terminal kind) (rest : List Token) :
    skip kind (w.token :: rest) = rest := by
  simp [skip]

@[simp] theorem endOfLine_terminal (w : Terminal .newline) (rest : List Token) :
    s.endOfLine (w.token :: rest) = .ok rest := by
  simp [endOfLine]

theorem unexpected_ne_ok {α : Type} {expected : String} {x : α} :
    s.unexpected ts expected ≠ .ok x := by
  simp [unexpected, fail]

theorem expect_sound {kind : TokenKind} {expected : String} {t : Token}
    (h : s.expect kind expected ts = .ok (t, rest)) :
    ∃ w : Terminal kind, w.token = t ∧ ts = w.token :: rest := by
  unfold expect at h
  split at h
  · split at h
    · rename_i hk
      cases h
      exact ⟨⟨t, hk⟩, rfl, rfl⟩
    · exact (unexpected_ne_ok h).elim
  · exact (unexpected_ne_ok h).elim

theorem endOfLine_sound (h : s.endOfLine ts = .ok rest) :
    ∃ w : Terminal .newline, ts = w.token :: rest := by
  obtain ⟨⟨t, left⟩, ht, h⟩ := Result.bind_eq_ok.mp h
  cases h
  obtain ⟨w, -, rfl⟩ := expect_sound ht
  exact ⟨w, rfl⟩

/-- The tokens go on when they start with anything but the end of the file. -/
theorem kind_sound (hs : s.last.kind = .eof) {kind : TokenKind} (h : s.kind ts = kind)
    (hk : kind ≠ .eof) : ∃ (w : Terminal kind) (left : List Token), ts = w.token :: left := by
  cases ts with
  | nil => exact (hk (h.symm.trans hs)).elim
  | cons t left => exact ⟨⟨t, h⟩, left, rfl⟩

/-! ## What is read has a derivation -/

theorem members_sound {names : List Token} (h : s.members ts = .ok (names, rest)) :
    ∃ members, ts = Path.memberTokens members ++ rest ∧ names = members.map fun m => m.2.token := by
  fun_induction members s ts generalizing names with
  | case1 t u left hd hi ih =>
    obtain ⟨⟨others, left'⟩, hm, h⟩ := Result.bind_eq_ok.mp h
    cases h
    obtain ⟨members, rfl, rfl⟩ := ih hm
    exact ⟨(⟨t, hd⟩, ⟨u, hi⟩) :: members, by simp [Path.memberTokens], rfl⟩
  | case2 => exact (unexpected_ne_ok h).elim
  | case3 =>
    cases h
    exact ⟨[], rfl, rfl⟩
  | case4 => exact (unexpected_ne_ok h).elim
  | case5 =>
    cases h
    exact ⟨[], rfl, rfl⟩
  | case6 =>
    cases h
    exact ⟨[], rfl, rfl⟩

theorem path_sound {node : Node} (h : s.path ts = .ok (node, rest)) :
    ∃ p : Path, ts = p.tokens ++ rest ∧ node = p.node := by
  obtain ⟨⟨t, left⟩, ht, h⟩ := Result.bind_eq_ok.mp h
  obtain ⟨⟨others, left'⟩, hm, h⟩ := Result.bind_eq_ok.mp h
  cases h
  obtain ⟨first, rfl, rfl⟩ := expect_sound ht
  obtain ⟨members, rfl, rfl⟩ := members_sound hm
  exact ⟨⟨first, members⟩, rfl, rfl⟩

theorem literal_sound {t : Token} {kind : NodeKind} (h : literalKind? t.kind = some kind) :
    ∃ l : Literal, l.token = t ∧ l.nodeKind = kind := by
  unfold literalKind? at h
  split at h
  · rename_i hk
    cases h
    exact ⟨.number ⟨t, hk⟩, rfl, rfl⟩
  · rename_i hk
    cases h
    exact ⟨.integer ⟨t, hk⟩, rfl, rfl⟩
  · rename_i hk
    cases h
    exact ⟨.string ⟨t, hk⟩, rfl, rfl⟩
  · rename_i hk
    cases h
    exact ⟨.yes ⟨t, hk⟩, rfl, rfl⟩
  · rename_i hk
    cases h
    exact ⟨.no ⟨t, hk⟩, rfl, rfl⟩
  · cases h

/-- An expression starts where its first token does. -/
theorem peek_expression (e : Expression) (rest : List Token) :
    s.peek (e.tokens ++ rest) = e.start := by
  obtain ⟨ts, h⟩ := e.tokens_eq
  rw [h]
  rfl

mutual

theorem operand_sound (hs : s.last.kind = .eof) : (fuel : Nat) → {ts rest : List Token} →
    {list : List Node} → s.operand fuel ts = .ok (list, rest) →
      ∃ x : Operand, ts = x.tokens ++ rest ∧ list = x.nodes
  | 0, ts, rest, list, h => by
    unfold operand at h
    exact (unexpected_ne_ok h).elim
  | fuel + 1, ts, rest, list, h => by
    unfold operand at h
    cases ts with
    | nil => exact (unexpected_ne_ok h).elim
    | cons t left =>
      dsimp only at h
      cases hk : literalKind? t.kind with
      | some kind =>
        simp only [hk, Except.ok.injEq, Prod.mk.injEq] at h
        obtain ⟨rfl, rfl⟩ := h
        obtain ⟨l, rfl, rfl⟩ := literal_sound hk
        exact ⟨.literal l, rfl, rfl⟩
      | none =>
        simp only [hk] at h
        split at h
        · rename_i hopen
          obtain ⟨⟨inner, left₁⟩, hi, h⟩ := Result.bind_eq_ok.mp h
          obtain ⟨⟨close, left₂⟩, hc, h⟩ := Result.bind_eq_ok.mp h
          cases h
          obtain ⟨e, rfl, rfl⟩ := items_sound hs fuel hi
          obtain ⟨stop, rfl, rfl⟩ := expect_sound hc
          exact ⟨.group ⟨t, hopen⟩ e stop, by simp [Operand.tokens], rfl⟩
        · split at h
          · split at h
            · obtain ⟨⟨node, left₁⟩, hn, h⟩ := Result.bind_eq_ok.mp h
              cases h
              obtain ⟨c, hc, rfl⟩ := call_sound hs fuel hn
              exact ⟨.call c, hc, rfl⟩
            · obtain ⟨⟨node, left₁⟩, hn, h⟩ := Result.bind_eq_ok.mp h
              cases h
              obtain ⟨p, hp, rfl⟩ := path_sound hn
              exact ⟨.path p, hp, rfl⟩
          · exact (unexpected_ne_ok h).elim

theorem items_sound (hs : s.last.kind = .eof) : (fuel : Nat) → {ts rest : List Token} →
    {list : List Node} → s.items fuel ts = .ok (list, rest) →
      ∃ e : Expression, ts = e.tokens ++ rest ∧ list = e.nodes
  | 0, ts, rest, list, h => by
    unfold items at h
    exact (unexpected_ne_ok h).elim
  | fuel + 1, ts, rest, list, h => by
    unfold items at h
    obtain ⟨⟨first, left⟩, hf, h⟩ := Result.bind_eq_ok.mp h
    obtain ⟨⟨others, left₁⟩, ho, h⟩ := Result.bind_eq_ok.mp h
    cases h
    obtain ⟨x, rfl, rfl⟩ := operand_sound hs fuel hf
    obtain ⟨more, rfl, rfl⟩ := operations_sound hs fuel ho
    exact ⟨.mk x more, by simp [Expression.tokens], rfl⟩

theorem operations_sound (hs : s.last.kind = .eof) : (fuel : Nat) → {ts rest : List Token} →
    {list : List Node} → s.operations fuel ts = .ok (list, rest) →
      ∃ more : Operations, ts = more.tokens ++ rest ∧ list = more.nodes
  | 0, ts, rest, list, h => by
    unfold operations at h
    exact (unexpected_ne_ok h).elim
  | fuel + 1, ts, rest, list, h => by
    unfold operations at h
    cases ts with
    | nil =>
      cases h
      exact ⟨.done, rfl, rfl⟩
    | cons t left =>
      dsimp only at h
      split at h
      · rename_i op hk
        obtain ⟨⟨right, left₁⟩, hr, h⟩ := Result.bind_eq_ok.mp h
        obtain ⟨⟨others, left₂⟩, ho, h⟩ := Result.bind_eq_ok.mp h
        cases h
        obtain ⟨x, rfl, rfl⟩ := operand_sound hs fuel hr
        obtain ⟨more, rfl, rfl⟩ := operations_sound hs fuel ho
        exact ⟨.next op ⟨t, hk⟩ x more, by simp [Operations.tokens], rfl⟩
      · cases h
        exact ⟨.done, rfl, rfl⟩

theorem expressionWith_sound (hs : s.last.kind = .eof) : (fuel : Nat) → {ts rest : List Token} →
    {node : Node} → s.expressionWith fuel ts = .ok (node, rest) →
      ∃ e : Expression, ts = e.tokens ++ rest ∧ node = e.node
  | 0, ts, rest, node, h => by
    unfold expressionWith at h
    exact (unexpected_ne_ok h).elim
  | fuel + 1, ts, rest, node, h => by
    unfold expressionWith at h
    obtain ⟨⟨list, left⟩, hi, h⟩ := Result.bind_eq_ok.mp h
    cases h
    obtain ⟨e, rfl, rfl⟩ := items_sound hs fuel hi
    exact ⟨e, rfl, by rw [peek_expression, Expression.node]⟩

theorem arguments_sound (hs : s.last.kind = .eof) : (fuel : Nat) → {ts rest : List Token} →
    {list : List Node} → s.arguments fuel ts = .ok (list, rest) →
      ∃ (args : Arguments) (stop : Terminal .closeParen),
        ts = args.tokens ++ stop.token :: rest ∧ list = args.nodes
  | 0, ts, rest, list, h => by
    unfold arguments at h
    exact (unexpected_ne_ok h).elim
  | fuel + 1, ts, rest, list, h => by
    unfold arguments at h
    obtain ⟨⟨first, left⟩, hf, h⟩ := Result.bind_eq_ok.mp h
    obtain ⟨e, rfl, rfl⟩ := expressionWith_sound hs fuel hf
    dsimp only at h
    split at h
    · rename_i hcomma
      obtain ⟨comma, left, rfl⟩ := kind_sound hs hcomma (by decide)
      obtain ⟨⟨others, left₁⟩, ho, h⟩ := Result.bind_eq_ok.mp h
      cases h
      rw [skip_terminal] at ho
      obtain ⟨args, stop, rfl, rfl⟩ := arguments_sound hs fuel ho
      exact ⟨.next e comma args, stop, by simp [Arguments.tokens], rfl⟩
    · obtain ⟨⟨close, left₁⟩, hc, h⟩ := Result.bind_eq_ok.mp h
      cases h
      obtain ⟨stop, rfl, rfl⟩ := expect_sound hc
      exact ⟨.last e, stop, rfl, rfl⟩

theorem call_sound (hs : s.last.kind = .eof) : (fuel : Nat) → {ts rest : List Token} →
    {node : Node} → s.call fuel ts = .ok (node, rest) →
      ∃ c : Grammar.Call, ts = c.tokens ++ rest ∧ node = c.node
  | 0, ts, rest, node, h => by
    unfold call at h
    exact (unexpected_ne_ok h).elim
  | fuel + 1, ts, rest, node, h => by
    unfold call at h
    obtain ⟨⟨t, left⟩, hn, h₁⟩ := Result.bind_eq_ok.mp h
    obtain ⟨⟨paren, left₁⟩, hp, h₂⟩ := Result.bind_eq_ok.mp h₁
    obtain ⟨name, rfl, rfl⟩ := expect_sound hn
    obtain ⟨start, rfl, rfl⟩ := expect_sound hp
    dsimp only at h₂
    split at h₂
    · rename_i hclose
      obtain ⟨stop, left, rfl⟩ := kind_sound hs hclose (by decide)
      cases h₂
      exact ⟨.empty name start stop, by simp [Grammar.Call.tokens], rfl⟩
    · obtain ⟨⟨list, left₂⟩, ha, h₃⟩ := Result.bind_eq_ok.mp h₂
      cases h₃
      obtain ⟨args, stop, rfl, rfl⟩ := arguments_sound hs fuel ha
      exact ⟨.given name start args stop, by simp [Grammar.Call.tokens], rfl⟩

end

theorem expression_sound (hs : s.last.kind = .eof) {node : Node}
    (h : s.expression ts = .ok (node, rest)) :
    ∃ e : Expression, ts = e.tokens ++ rest ∧ node = e.node :=
  expressionWith_sound hs _ h

theorem callNode_sound (hs : s.last.kind = .eof) {node : Node}
    (h : s.callNode ts = .ok (node, rest)) :
    ∃ c : Grammar.Call, ts = c.tokens ++ rest ∧ node = c.node :=
  call_sound hs _ h

/-! ## A derivation is read -/

variable (s) in
/-- What follows an operand neither adds a member to a path nor turns a name into a call. -/
def Ends (rest : List Token) : Prop := s.kind rest ≠ .dot ∧ s.kind rest ≠ .openParen

variable (s) in
/-- What follows an expression does not continue it. -/
def Stops (rest : List Token) : Prop := s.Ends rest ∧ ∀ op, s.kind rest ≠ .operator op

/-- Nothing but a dot, a parenthesis or an operator continues an expression. -/
theorem stops_terminal {kind : TokenKind} (w : Terminal kind) (rest : List Token)
    (hd : kind ≠ .dot) (hp : kind ≠ .openParen) (ho : ∀ op, kind ≠ .operator op) :
    s.Stops (w.token :: rest) := by
  refine ⟨⟨?_, ?_⟩, ?_⟩
  · simpa using hd
  · simpa using hp
  · simpa using ho

theorem members_ends (hr : s.Ends rest) : s.members rest = .ok ([], rest) := by
  rcases rest with _ | ⟨t, _ | ⟨u, rest⟩⟩
  · rfl
  · have hd : t.kind ≠ .dot := hr.1
    simp [members, hd]
  · have hd : t.kind ≠ .dot := hr.1
    simp [members, hd]

theorem members_complete (members : List (Terminal .dot × Terminal .identifier))
    (hr : s.Ends rest) :
    s.members (Path.memberTokens members ++ rest) = .ok (members.map fun m => m.2.token, rest) := by
  induction members with
  | nil => exact members_ends hr
  | cons m members ih =>
    simp only [Path.memberTokens] at ih
    simp [Path.memberTokens, Source.members, ih]

theorem path_complete (p : Path) (hr : s.Ends rest) :
    s.path (p.tokens ++ rest) = .ok (p.node, rest) := by
  simp [path, Path.tokens, members_complete p.members hr, Path.node, Path.names]

/-- A path is not taken for a call. -/
theorem kind_members (members : List (Terminal .dot × Terminal .identifier)) (hr : s.Ends rest) :
    s.kind (Path.memberTokens members ++ rest) ≠ .openParen := by
  cases members with
  | nil => exact hr.2
  | cons m members => simp [Path.memberTokens]

theorem literal_complete (l : Literal) : literalKind? l.token.kind = some l.nodeKind := by
  cases l <;> simp [Literal.token, Literal.nodeKind, literalKind?]

/-- Operations behind an operand end it, and so does what follows an expression. -/
theorem ends_tokens (more : Operations) (hr : s.Stops rest) : s.Ends (more.tokens ++ rest) := by
  cases more with
  | done => exact hr.1
  | next op sign right more =>
    constructor
    · simp [Operations.tokens]
    · simp [Operations.tokens]

theorem operations_done {fuel : Nat} (hr : s.Stops rest) :
    s.operations (fuel + 1) rest = .ok ([], rest) := by
  cases rest with
  | nil => rfl
  | cons t rest =>
    have ht := hr.2
    simp only [kind_cons] at ht
    simp [operations]

theorem expressionWith_complete {fuel : Nat} (e : Expression)
    (h : s.items fuel (e.tokens ++ rest) = .ok (e.nodes, rest)) :
    s.expressionWith (fuel + 1) (e.tokens ++ rest) = .ok (e.node, rest) := by
  simp [expressionWith, h, peek_expression, Expression.node]

/-- Arguments do not start with a closing parenthesis. -/
theorem kind_tokens (args : Arguments) (rest : List Token) :
    s.kind (args.tokens ++ rest) ≠ .closeParen := by
  obtain ⟨e, ts, h⟩ := args.tokens_eq
  rw [h]
  exact e.kind_start

mutual

theorem operand_complete : (x : Operand) → (fuel : Nat) → (rest : List Token) → s.Ends rest →
    4 * x.tokens.length ≤ fuel → s.operand fuel (x.tokens ++ rest) = .ok (x.nodes, rest)
  | .literal l, fuel, rest, _, hf => by
    obtain _ | fuel := fuel
    · simp [Operand.tokens] at hf
    simp [operand, Operand.tokens, Operand.nodes, literal_complete, Literal.node]
  | .path p, fuel, rest, hr, hf => by
    obtain _ | fuel := fuel
    · simp [Operand.tokens, Path.tokens] at hf
    have hp := path_complete p hr
    have hn := kind_members p.members hr
    simp only [Path.tokens, List.cons_append] at hp
    simp [operand, Operand.tokens, Path.tokens, literalKind?, hn, hp, Operand.nodes]
  | .call c, fuel, rest, _, hf => by
    obtain ⟨start, ts, h⟩ := c.tokens_eq
    simp only [Operand.tokens] at hf
    obtain _ | fuel := fuel
    · simp [h] at hf
    have hc := call_complete c fuel rest hf
    simp only [h, List.cons_append] at hc
    simp [operand, Operand.tokens, h, literalKind?, hc, Operand.nodes]
  | .group start inner stop, fuel, rest, _, hf => by
    simp only [Operand.tokens, List.length_cons, List.length_append] at hf
    obtain _ | fuel := fuel
    · omega
    have hi := items_complete inner fuel (stop.token :: rest)
      (stops_terminal stop rest nofun nofun nofun) (by omega)
    simp [operand, Operand.tokens, Operand.nodes, literalKind?, hi]

theorem operations_complete : (more : Operations) → (fuel : Nat) → (rest : List Token) →
    s.Stops rest → 4 * more.tokens.length < fuel →
      s.operations fuel (more.tokens ++ rest) = .ok (more.nodes, rest)
  | .done, fuel, rest, hr, hf => by
    obtain _ | fuel := fuel
    · simp at hf
    exact operations_done hr
  | .next op sign right more, fuel, rest, hr, hf => by
    simp only [Operations.tokens, List.length_cons, List.length_append, List.cons_append] at hf
    obtain _ | fuel := fuel
    · omega
    have hx := operand_complete right fuel (more.tokens ++ rest) (ends_tokens more hr) (by omega)
    have hm := operations_complete more fuel rest hr (by omega)
    simp [operations, Operations.tokens, Operations.nodes, hx, hm]

theorem items_complete : (e : Expression) → (fuel : Nat) → (rest : List Token) → s.Stops rest →
    4 * e.tokens.length < fuel → s.items fuel (e.tokens ++ rest) = .ok (e.nodes, rest)
  | .mk first more, fuel, rest, hr, hf => by
    obtain ⟨ts, hstart⟩ := first.tokens_eq
    have hpos : 0 < first.tokens.length := by simp [hstart]
    simp only [Expression.tokens, List.length_append] at hf
    obtain _ | fuel := fuel
    · omega
    have hx := operand_complete first fuel (more.tokens ++ rest) (ends_tokens more hr) (by omega)
    have hm := operations_complete more fuel rest hr (by omega)
    simp [items, Expression.tokens, Expression.nodes, hx, hm]

theorem arguments_complete : (args : Arguments) → (fuel : Nat) → (stop : Terminal .closeParen) →
    (rest : List Token) → 4 * args.tokens.length + 3 < fuel →
      s.arguments fuel (args.tokens ++ stop.token :: rest) = .ok (args.nodes, rest)
  | .last e, fuel, stop, rest, hf => by
    simp only [Arguments.tokens] at hf ⊢
    obtain _ | _ | fuel := fuel
    · omega
    · omega
    have hi := items_complete e fuel (stop.token :: rest)
      (stops_terminal stop rest nofun nofun nofun) (by omega)
    simp [arguments, expressionWith_complete e hi, Arguments.nodes, Expression.node]
  | .next e comma others, fuel, stop, rest, hf => by
    simp only [Arguments.tokens, List.length_append, List.length_cons] at hf
    obtain _ | _ | fuel := fuel
    · omega
    · omega
    have hi := items_complete e fuel (comma.token :: (others.tokens ++ stop.token :: rest))
      (stops_terminal comma _ nofun nofun nofun) (by omega)
    have ho := arguments_complete others (fuel + 1) stop rest (by omega)
    rw [arguments]
    simp [Arguments.tokens, expressionWith_complete e hi, ho, Arguments.nodes, Expression.node]

theorem call_complete : (c : Grammar.Call) → (fuel : Nat) → (rest : List Token) →
    4 * c.tokens.length ≤ fuel + 1 → s.call fuel (c.tokens ++ rest) = .ok (c.node, rest)
  | .empty name start stop, fuel, rest, hf => by
    obtain _ | fuel := fuel
    · simp [Grammar.Call.tokens] at hf
    simp [call, Grammar.Call.tokens, Grammar.Call.node]
  | .given name start args stop, fuel, rest, hf => by
    simp only [Grammar.Call.tokens, List.length_cons, List.length_append, List.cons_append] at hf
    obtain _ | fuel := fuel
    · omega
    have ha := arguments_complete args fuel stop rest (by omega)
    simp [call, Grammar.Call.tokens, Grammar.Call.node, kind_tokens, ha]

end

theorem expression_complete (e : Expression) (hr : s.Stops rest) :
    s.expression (e.tokens ++ rest) = .ok (e.node, rest) := by
  apply expressionWith_complete
  apply items_complete e _ rest hr
  simp only [List.length_append]
  omega

theorem callNode_complete (c : Grammar.Call) (rest : List Token) :
    s.callNode (c.tokens ++ rest) = .ok (c.node, rest) := by
  apply call_complete c _ rest
  simp only [fuel, List.length_append]
  omega

end Source
end SceneScript.Script
