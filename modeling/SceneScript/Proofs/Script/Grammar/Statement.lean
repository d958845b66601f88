import SceneScript.Proofs.Script.Grammar.Expression
import SceneScript.Script.Node.Statement

/-! # Statements are read by the grammar

Blocks end with a token of their own, so what stands behind a statement matters in one case only:
an `else` would continue a conditional. No statement starts with that word.
-/
namespace SceneScript.Script
namespace Grammar

theorem Opening.tokens_eq (o : Opening) : ∃ (t : Token) (ts : List Token),
    o.tokens = t :: ts ∧ (t.kind = .colon ∨ t.kind = .newline) := by
  obtain ⟨colon, newline⟩ := o
  cases colon with
  | none => exact ⟨newline.token, [], rfl, Or.inr newline.kind_token⟩
  | some colon => exact ⟨colon.token, [newline.token], rfl, Or.inl colon.kind_token⟩

theorem Opening.length_pos (o : Opening) : 0 < o.tokens.length := by
  simp [Opening.tokens]

/-- No statement starts with what ends a block, or with `else`. -/
theorem Statement.tokens_eq (x : Statement) : ∃ (t : Token) (ts : List Token),
    x.tokens = t :: ts ∧ t.kind ≠ .dedent ∧ t.kind ≠ .eof ∧ t.kind ≠ .keyword .elseWord := by
  cases x with
  | pass word newline => exact ⟨word.token, _, rfl, by simp⟩
  | conditional word c => exact ⟨word.token, _, rfl, by simp⟩
  | loop word condition opening body => exact ⟨word.token, _, rfl, by simp⟩
  | call c newline =>
    obtain ⟨start, ts, h⟩ := c.tokens_eq
    exact ⟨c.name.token, start.token :: ts ++ [newline.token], by simp [Statement.tokens, h],
      by simp⟩
  | assignment target sign value newline => exact ⟨target.first.token, _, rfl, by simp⟩

@[simp] theorem Conditional.line_node (keyword : Token) (c : Conditional) :
    (c.node keyword).line = keyword.line := by
  cases c <;> rfl

@[simp] theorem Conditional.column_node (keyword : Token) (c : Conditional) :
    (c.node keyword).column = keyword.column := by
  cases c <;> rfl

end Grammar

open Grammar

namespace Source
variable {s : Source} {ts rest : List Token}

/-! ## What is read has a derivation -/

theorem opening_sound (h : s.endOfLine (skip .colon ts) = .ok rest) :
    ∃ o : Opening, ts = o.tokens ++ rest := by
  obtain ⟨newline, hn⟩ := endOfLine_sound h
  unfold skip at hn
  split at hn
  · rename_i t left
    split at hn
    · rename_i hc
      obtain rfl := hn
      exact ⟨⟨some ⟨t, hc⟩, newline⟩, rfl⟩
    · exact ⟨⟨none, newline⟩, hn⟩
  · cases hn

theorem assignment_sound (hs : s.last.kind = .eof) {node : Node}
    (h : s.assignment ts = .ok (node, rest)) :
    ∃ x : Statement, ts = x.tokens ++ rest ∧ node = x.node := by
  obtain ⟨⟨target, left⟩, hp, h₁⟩ := Result.bind_eq_ok.mp h
  obtain ⟨⟨t, left₁⟩, ht, h₂⟩ := Result.bind_eq_ok.mp h₁
  obtain ⟨⟨value, left₂⟩, hv, h₃⟩ := Result.bind_eq_ok.mp h₂
  obtain ⟨left₃, he, h₄⟩ := Result.bind_eq_ok.mp h₃
  cases h₄
  obtain ⟨p, rfl, rfl⟩ := path_sound hp
  obtain ⟨sign, rfl, rfl⟩ := expect_sound ht
  obtain ⟨e, rfl, rfl⟩ := expression_sound hs hv
  obtain ⟨newline, rfl⟩ := endOfLine_sound he
  exact ⟨.assignment p sign e newline, by simp [Statement.tokens], rfl⟩

mutual

theorem statement_sound (hs : s.last.kind = .eof) : (fuel : Nat) → {ts rest : List Token} →
    {node : Node} → s.statement fuel ts = .ok (node, rest) →
      ∃ x : Statement, ts = x.tokens ++ rest ∧ node = x.node
  | 0, ts, rest, node, h => by
    unfold statement at h
    exact (unexpected_ne_ok h).elim
  | fuel + 1, ts, rest, node, h => by
    unfold statement at h
    cases ts with
    | nil => exact (unexpected_ne_ok h).elim
    | cons t left =>
      dsimp only at h
      split at h
      · rename_i hk
        obtain ⟨left₁, he, h₁⟩ := Result.bind_eq_ok.mp h
        cases h₁
        obtain ⟨newline, rfl⟩ := endOfLine_sound he
        exact ⟨.pass ⟨t, hk⟩ newline, rfl, rfl⟩
      · rename_i hk
        obtain ⟨c, rfl, rfl⟩ := conditional_sound hs fuel h
        exact ⟨.conditional ⟨t, hk⟩ c, rfl, rfl⟩
      · rename_i hk
        obtain ⟨⟨condition, left₁⟩, hc, h₁⟩ := Result.bind_eq_ok.mp h
        obtain ⟨⟨body, left₂⟩, hb, h₂⟩ := Result.bind_eq_ok.mp h₁
        cases h₂
        obtain ⟨e, rfl, rfl⟩ := expression_sound hs hc
        obtain ⟨opening, b, rfl, rfl⟩ := header_sound hs fuel hb
        exact ⟨.loop ⟨t, hk⟩ e opening b, by simp [Statement.tokens], rfl⟩
      · split at h
        · obtain ⟨⟨call, left₁⟩, hc, h₁⟩ := Result.bind_eq_ok.mp h
          obtain ⟨left₂, he, h₂⟩ := Result.bind_eq_ok.mp h₁
          cases h₂
          obtain ⟨c, hts, rfl⟩ := callNode_sound hs hc
          obtain ⟨newline, rfl⟩ := endOfLine_sound he
          exact ⟨.call c newline, by simp [Statement.tokens, hts], rfl⟩
        · exact assignment_sound hs h
      · simp [fail] at h
      · exact (unexpected_ne_ok h).elim

theorem conditional_sound (hs : s.last.kind = .eof) : (fuel : Nat) → {keyword : Token} →
    {ts rest : List Token} → {node : Node} → s.conditional fuel keyword ts = .ok (node, rest) →
      ∃ c : Conditional, ts = c.tokens ++ rest ∧ node = c.node keyword
  | 0, keyword, ts, rest, node, h => by
    unfold conditional at h
    exact (unexpected_ne_ok h).elim
  | fuel + 1, keyword, ts, rest, node, h => by
    unfold conditional at h
    obtain ⟨⟨condition, left⟩, hc, h₁⟩ := Result.bind_eq_ok.mp h
    obtain ⟨⟨body, left₁⟩, hb, h₂⟩ := Result.bind_eq_ok.mp h₁
    obtain ⟨e, rfl, rfl⟩ := expression_sound hs hc
    obtain ⟨opening, b, rfl, rfl⟩ := header_sound hs fuel hb
    cases left₁ with
    | nil =>
      cases h₂
      exact ⟨.plain e opening b, by simp [Conditional.tokens], rfl⟩
    | cons t left₂ =>
      dsimp only at h₂
      split at h₂
      · rename_i hk
        obtain ⟨⟨otherwise, left₃⟩, ha, h₃⟩ := Result.bind_eq_ok.mp h₂
        cases h₃
        obtain ⟨a, rfl, rfl⟩ := alternative_sound hs fuel ha
        exact ⟨.split e opening b ⟨t, hk⟩ a, by simp [Conditional.tokens], rfl⟩
      · cases h₂
        exact ⟨.plain e opening b, by simp [Conditional.tokens], rfl⟩

theorem alternative_sound (hs : s.last.kind = .eof) : (fuel : Nat) → {ts rest : List Token} →
    {node : Node} → s.alternative fuel ts = .ok (node, rest) →
      ∃ a : Alternative, ts = a.tokens ++ rest ∧ node = a.node
  | 0, ts, rest, node, h => by
    unfold alternative at h
    exact (unexpected_ne_ok h).elim
  | fuel + 1, ts, rest, node, h => by
    unfold alternative at h
    cases ts with
    | nil =>
      obtain ⟨opening, b, hts, rfl⟩ := header_sound hs fuel h
      exact ⟨.block opening b, by simp [Alternative.tokens, hts], rfl⟩
    | cons t left =>
      dsimp only at h
      split at h
      · rename_i hk
        obtain ⟨⟨nested, left₁⟩, hn, h₁⟩ := Result.bind_eq_ok.mp h
        cases h₁
        obtain ⟨c, rfl, rfl⟩ := conditional_sound hs fuel hn
        exact ⟨.chained ⟨t, hk⟩ c, rfl, by simp [Alternative.node]⟩
      · obtain ⟨opening, b, hts, rfl⟩ := header_sound hs fuel h
        exact ⟨.block opening b, by simp [Alternative.tokens, hts], rfl⟩

theorem header_sound (hs : s.last.kind = .eof) : (fuel : Nat) → {ts rest : List Token} →
    {node : Node} → s.header fuel ts = .ok (node, rest) →
      ∃ (o : Opening) (b : Block), ts = o.tokens ++ (b.tokens ++ rest) ∧ node = b.node
  | 0, ts, rest, node, h => by
    unfold header at h
    exact (unexpected_ne_ok h).elim
  | fuel + 1, ts, rest, node, h => by
    unfold header at h
    obtain ⟨left, he, h₁⟩ := Result.bind_eq_ok.mp h
    obtain ⟨o, rfl⟩ := opening_sound he
    obtain ⟨b, rfl, rfl⟩ := block_sound hs fuel h₁
    exact ⟨o, b, rfl, rfl⟩

theorem block_sound (hs : s.last.kind = .eof) : (fuel : Nat) → {ts rest : List Token} →
    {node : Node} → s.block fuel ts = .ok (node, rest) →
      ∃ b : Block, ts = b.tokens ++ rest ∧ node = b.node
  | 0, ts, rest, node, h => by
    unfold block at h
    exact (unexpected_ne_ok h).elim
  | fuel + 1, ts, rest, node, h => by
    unfold block at h
    obtain ⟨⟨t, left⟩, ht, h₁⟩ := Result.bind_eq_ok.mp h
    obtain ⟨⟨list, left₁⟩, hl, h₂⟩ := Result.bind_eq_ok.mp h₁
    cases h₂
    obtain ⟨indent, rfl, rfl⟩ := expect_sound ht
    obtain ⟨list, dedent, rfl, rfl⟩ := statements_sound hs fuel hl
    exact ⟨.mk indent list dedent, by simp [Block.tokens], rfl⟩

theorem statements_sound (hs : s.last.kind = .eof) : (fuel : Nat) → {ts rest : List Token} →
    {nodes : List Node} → s.statements fuel ts = .ok (nodes, rest) →
      ∃ (list : Statements) (dedent : Terminal .dedent),
        ts = list.tokens ++ dedent.token :: rest ∧ nodes = list.nodes
  | 0, ts, rest, nodes, h => by
    unfold statements at h
    exact (unexpected_ne_ok h).elim
  | fuel + 1, ts, rest, nodes, h => by
    unfold statements at h
    split at h
    · rename_i hd
      obtain ⟨dedent, left, rfl⟩ := kind_sound hs hd (by decide)
      cases h
      exact ⟨.done, dedent, by simp [Statements.tokens], rfl⟩
    · split at h
      · exact (unexpected_ne_ok h).elim
      · obtain ⟨⟨first, left⟩, hf, h₁⟩ := Result.bind_eq_ok.mp h
        obtain ⟨⟨others, left₁⟩, ho, h₂⟩ := Result.bind_eq_ok.mp h₁
        cases h₂
        obtain ⟨x, rfl, rfl⟩ := statement_sound hs fuel hf
        obtain ⟨list, dedent, rfl, rfl⟩ := statements_sound hs fuel ho
        exact ⟨.next x list, dedent, by simp [Statements.tokens], rfl⟩

end

/-! ## A derivation is read -/

@[simp] theorem opening_complete (o : Opening) (rest : List Token) :
    s.endOfLine (skip .colon (o.tokens ++ rest)) = .ok rest := by
  obtain ⟨colon, newline⟩ := o
  cases colon with
  | none => simp [Opening.tokens, skip]
  | some colon => simp [Opening.tokens]

theorem stops_opening (o : Opening) (rest : List Token) : s.Stops (o.tokens ++ rest) := by
  obtain ⟨colon, newline⟩ := o
  cases colon with
  | none => exact stops_terminal newline rest nofun nofun nofun
  | some colon => exact stops_terminal colon (newline.token :: rest) nofun nofun nofun

theorem header_complete {fuel : Nat} (o : Opening) (b : Block)
    (h : s.block fuel (b.tokens ++ rest) = .ok (b.node, rest)) :
    s.header (fuel + 1) (o.tokens ++ (b.tokens ++ rest)) = .ok (b.node, rest) := by
  simp [header, h]

theorem assignment_complete (target : Path) (sign : Terminal .assign) (value : Expression)
    (newline : Terminal .newline) (rest : List Token) :
    s.assignment (target.tokens ++ sign.token :: (value.tokens ++ newline.token :: rest)) =
      .ok ((Statement.assignment target sign value newline).node, rest) := by
  have hp := path_complete (s := s) target
    (stops_terminal sign (value.tokens ++ newline.token :: rest) nofun nofun nofun).1
  have hv := expression_complete (s := s) value
    (stops_terminal newline rest nofun nofun nofun)
  simp only [assignment, hp, Result.ok_bind, expect_terminal, hv, endOfLine_terminal]
  rfl

/-- What stands between a statement and the end of its block is no `else`. -/
theorem kind_statements (list : Statements) (dedent : Terminal .dedent) (rest : List Token) :
    s.kind (list.tokens ++ dedent.token :: rest) ≠ .keyword .elseWord := by
  cases list with
  | done => simp [Statements.tokens]
  | next first others =>
    obtain ⟨t, ts, h, -, -, he⟩ := first.tokens_eq
    simpa [Statements.tokens, h] using he

mutual

theorem statement_complete : (x : Statement) → (fuel : Nat) → (rest : List Token) →
    s.kind rest ≠ .keyword .elseWord → 4 * x.tokens.length ≤ fuel →
      s.statement fuel (x.tokens ++ rest) = .ok (x.node, rest)
  | .pass word newline, fuel, rest, _, hf => by
    obtain _ | fuel := fuel
    · simp [Statement.tokens] at hf
    simp [statement, Statement.tokens, Statement.node]
  | .conditional word c, fuel, rest, hr, hf => by
    simp only [Statement.tokens, List.length_cons] at hf
    obtain _ | fuel := fuel
    · omega
    have hc := conditional_complete c fuel word.token rest hr (by omega)
    simp [statement, Statement.tokens, Statement.node, hc]
  | .loop word condition opening body, fuel, rest, _, hf => by
    have hpos := opening.length_pos
    simp only [Statement.tokens, List.length_cons, List.length_append, List.cons_append] at hf
    obtain _ | _ | fuel := fuel
    · omega
    · omega
    have he := expression_complete condition
      (stops_opening (s := s) opening (body.tokens ++ rest))
    have hb := header_complete opening body (block_complete body fuel rest (by omega))
    simp [statement, Statement.tokens, Statement.node, he, hb]
  | .call c newline, fuel, rest, _, hf => by
    obtain ⟨start, ts, h⟩ := c.tokens_eq
    obtain _ | fuel := fuel
    · simp [Statement.tokens] at hf
    have hc := callNode_complete (s := s) c (newline.token :: rest)
    simp only [h, List.cons_append] at hc
    simp [statement, Statement.tokens, h, hc, Statement.node]
  | .assignment target sign value newline, fuel, rest, _, hf => by
    obtain _ | fuel := fuel
    · simp [Statement.tokens, Path.tokens] at hf
    have ha := assignment_complete (s := s) target sign value newline rest
    have hn := kind_members target.members
      (stops_terminal (s := s) sign (value.tokens ++ newline.token :: rest) nofun nofun nofun).1
    simp only [Path.tokens, List.cons_append] at ha
    simp [statement, Statement.tokens, Path.tokens, hn, ha]

theorem conditional_complete : (c : Conditional) → (fuel : Nat) → (keyword : Token) →
    (rest : List Token) → s.kind rest ≠ .keyword .elseWord → 4 * c.tokens.length ≤ fuel →
      s.conditional fuel keyword (c.tokens ++ rest) = .ok (c.node keyword, rest)
  | .plain condition opening body, fuel, keyword, rest, hr, hf => by
    have hpos := opening.length_pos
    simp only [Conditional.tokens, List.length_append] at hf
    obtain _ | _ | fuel := fuel
    · omega
    · omega
    have he := expression_complete condition
      (stops_opening (s := s) opening (body.tokens ++ rest))
    have hb := header_complete opening body (block_complete body fuel rest (by omega))
    cases rest with
    | nil =>
      simp only [List.append_nil] at he hb
      simp [conditional, Conditional.tokens, Conditional.node, he, hb]
    | cons t rest =>
      have ht : t.kind ≠ .keyword .elseWord := hr
      simp [conditional, Conditional.tokens, Conditional.node, he, hb, ht]
  | .split condition opening body word otherwise, fuel, keyword, rest, hr, hf => by
    have hpos := opening.length_pos
    simp only [Conditional.tokens, List.length_append, List.length_cons] at hf
    obtain _ | _ | fuel := fuel
    · omega
    · omega
    have he := expression_complete condition
      (stops_opening (s := s) opening (body.tokens ++ word.token :: (otherwise.tokens ++ rest)))
    have hb := header_complete opening body
      (block_complete body fuel (word.token :: (otherwise.tokens ++ rest)) (by omega))
    have ha := alternative_complete otherwise (fuel + 1) rest hr (by omega)
    simp [conditional, Conditional.tokens, Conditional.node, he, hb, ha]

theorem alternative_complete : (a : Alternative) → (fuel : Nat) → (rest : List Token) →
    s.kind rest ≠ .keyword .elseWord → 4 * a.tokens.length < fuel →
      s.alternative fuel (a.tokens ++ rest) = .ok (a.node, rest)
  | .chained word nested, fuel, rest, hr, hf => by
    simp only [Alternative.tokens, List.length_cons] at hf
    obtain _ | fuel := fuel
    · omega
    have hc := conditional_complete nested fuel word.token rest hr (by omega)
    simp [alternative, Alternative.tokens, Alternative.node, hc]
  | .block opening body, fuel, rest, _, hf => by
    have hpos := opening.length_pos
    simp only [Alternative.tokens, List.length_append] at hf
    obtain _ | _ | fuel := fuel
    · omega
    · omega
    have hb := header_complete opening body (block_complete body fuel rest (by omega))
    obtain ⟨t, ts, h, hk⟩ := opening.tokens_eq
    simp only [h, List.cons_append] at hb
    have hif : t.kind ≠ .keyword .ifWord := by
      rcases hk with hk | hk <;> simp [hk]
    simp [alternative, Alternative.tokens, Alternative.node, h, hif, hb]

theorem block_complete : (b : Block) → (fuel : Nat) → (rest : List Token) →
    4 * b.tokens.length ≤ fuel → s.block fuel (b.tokens ++ rest) = .ok (b.node, rest)
  | .mk indent list dedent, fuel, rest, hf => by
    simp only [Block.tokens, List.length_cons, List.length_append, List.cons_append] at hf
    obtain _ | fuel := fuel
    · omega
    have hl := statements_complete list fuel dedent rest (by omega)
    simp [block, Block.tokens, Block.node, hl]

theorem statements_complete : (list : Statements) → (fuel : Nat) → (dedent : Terminal .dedent) →
    (rest : List Token) → 4 * list.tokens.length < fuel →
      s.statements fuel (list.tokens ++ dedent.token :: rest) = .ok (list.nodes, rest)
  | .done, fuel, dedent, rest, hf => by
    obtain _ | fuel := fuel
    · simp at hf
    simp [statements, Statements.tokens, Statements.nodes]
  | .next first others, fuel, dedent, rest, hf => by
    obtain ⟨t, ts, h, hd, heof, -⟩ := first.tokens_eq
    have hpos : 0 < first.tokens.length := by simp [h]
    simp only [Statements.tokens, List.length_append] at hf
    obtain _ | fuel := fuel
    · omega
    have hx := statement_complete first fuel (others.tokens ++ dedent.token :: rest)
      (kind_statements others dedent rest) (by omega)
    have ho := statements_complete others fuel dedent rest (by omega)
    simp only [h, List.cons_append] at hx
    rw [statements]
    simp [Statements.tokens, h, hd, heof, hx, ho, Statements.nodes]

end

end Source
end SceneScript.Script
