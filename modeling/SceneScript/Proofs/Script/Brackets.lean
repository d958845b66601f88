import SceneScript.Proofs.Script.Lexed
import SceneScript.Proofs.Script.Rows

/-! # Brackets around blocks

The tokens of a file, row by row. The layout tokens among them are nested: none closes a block that
is not open, and in the end none is open.
-/
namespace SceneScript.Script.Layout

/-- The layout tokens in front of a row. -/
def Row.marks (above : List Row) (r : Row) : List Token :=
  if lastWidth above < r.width then [mark .indent r.number]
  else List.replicate ((opens above).countP (r.width < ·)) (mark .dedent r.number)

theorem Row.marks_kind (above : List Row) (r : Row) : ∀ t ∈ r.marks above, t.kind ≠ .eof := by
  intro t ht
  unfold marks at ht
  split at ht
  · rw [List.mem_singleton.mp ht]
    simp [mark]
  · rw [List.eq_of_mem_replicate ht]
    simp [mark]

/-- The token behind the content of a row. -/
def Row.feed (r : Row) : Token := ⟨.newline, "", r.number, r.text.length + 1⟩

/-- The tokens behind the last row. -/
def closing (above : List Row) (last : Nat) : List Token :=
  List.replicate (opens above).length (mark .dedent last) ++ [mark .eof last]

/-- The tokens of the rows below some others: those of each row between its layout tokens and the
end of the line, and in the end those that close the open blocks and the file. -/
inductive Bracketed (last : Nat) : (above below : List Row) → List Token → Prop
  | done {above : List Row} : Bracketed last above [] (closing above last)
  | row {above below : List Row} {r : Row} {content more : List Token} :
    r.tokens = .ok content → content ≠ [] → (∀ t ∈ content, t.kind.isContent = true) →
    Bracketed last (r :: above) below more →
    Bracketed last above (r :: below) (r.marks above ++ content ++ [r.feed] ++ more)

/-- The number of tokens of some kind. -/
def count (kind : TokenKind) (ts : List Token) : Nat := ts.countP (·.kind = kind)

theorem count_cons (kind : TokenKind) (t : Token) (ts : List Token) :
    count kind (t :: ts) = count kind ts + if t.kind = kind then 1 else 0 := by
  simp [count, List.countP_cons]

/-- Every closing token closes one of the open blocks, of which there is some number at the start
and none in the end. -/
inductive Nested : (depth : Nat) → List Token → Prop
  | nil : Nested 0 []
  | opened {depth : Nat} {t : Token} {rest : List Token} :
    t.kind = .indent → Nested (depth + 1) rest → Nested depth (t :: rest)
  | closed {depth : Nat} {t : Token} {rest : List Token} :
    t.kind = .dedent → Nested depth rest → Nested (depth + 1) (t :: rest)
  | other {depth : Nat} {t : Token} {rest : List Token} :
    t.kind ≠ .indent → t.kind ≠ .dedent → Nested depth rest → Nested depth (t :: rest)

theorem nested_content {depth : Nat} {content more : List Token}
    (hc : ∀ t ∈ content, t.kind.isContent = true) (h : Nested depth more) :
    Nested depth (content ++ more) := by
  induction content with
  | nil => exact h
  | cons t content ih =>
    have ht := hc t (List.mem_cons_self ..)
    exact .other (TokenKind.ne_of_isContent ht rfl) (TokenKind.ne_of_isContent ht rfl)
      (ih fun u hu => hc u (List.mem_cons_of_mem _ hu))

theorem nested_dedents {depth number : Nat} {more : List Token} (n : Nat) (h : Nested depth more) :
    Nested (depth + n) (List.replicate n (mark .dedent number) ++ more) := by
  induction n with
  | zero => exact h
  | succ n ih => exact .closed rfl ih

theorem Nested.count_le {depth : Nat} {ts front : List Token} (h : Nested depth ts)
    (hf : front <+: ts) : count .dedent front ≤ count .indent front + depth := by
  induction h generalizing front with
  | nil =>
    rw [List.prefix_nil.mp hf]
    exact Nat.zero_le _
  | opened hk _ ih | closed hk _ ih =>
    rcases List.prefix_cons_iff.mp hf with rfl | ⟨front, rfl, hfront⟩
    · exact Nat.zero_le _
    · have := ih hfront
      simp only [count_cons, hk]
      simp
      omega
  | other hi hd _ ih =>
    rcases List.prefix_cons_iff.mp hf with rfl | ⟨front, rfl, hfront⟩
    · exact Nat.zero_le _
    · simpa [count_cons, hi, hd] using ih hfront

theorem Nested.count_eq {depth : Nat} {ts : List Token} (h : Nested depth ts) :
    count .dedent ts = count .indent ts + depth := by
  induction h with
  | nil => rfl
  | opened hk _ ih | closed hk _ ih =>
    simp only [count_cons, hk]
    simp
    omega
  | other hi hd _ ih => simpa [count_cons, hi, hd] using ih

theorem Bracketed.nested {last : Nat} {above below : List Row} {ts : List Token}
    (h : Bracketed last above below ts) : Nested (opens above).length ts := by
  induction h with
  | @done above =>
    have heof : Nested 0 [mark .eof last] := .other (by simp [mark]) (by simp [mark]) .nil
    have hclosing : Nested (0 + (opens above).length) (closing above last) :=
      nested_dedents (opens above).length heof
    rwa [Nat.zero_add] at hclosing
  | @row above below r content more ht hne hc _ ih =>
    rw [List.append_assoc, List.append_assoc]
    have hrest : Nested (opens (r :: above)).length (content ++ ([r.feed] ++ more)) :=
      nested_content hc (.other (by simp [Row.feed]) (by simp [Row.feed]) ih)
    unfold Row.marks
    unfold opens at hrest
    split
    · rename_i hwider
      rw [if_pos hwider, List.length_cons] at hrest
      exact .opened rfl hrest
    · rename_i hwider
      rw [if_neg hwider, ← List.countP_eq_length_filter] at hrest
      have hlength : (opens above).countP (· ≤ r.width) +
          (opens above).countP (r.width < ·) = (opens above).length := by
        rw [List.length_eq_countP_add_countP (· ≤ r.width)]
        simp
      rw [← hlength]
      exact nested_dedents _ hrest

/-- The file ends once, with its last token. -/
theorem Bracketed.eof {last : Nat} {above below : List Row} {ts : List Token}
    (h : Bracketed last above below ts) :
    ∃ front, ts = front ++ [mark .eof last] ∧ ∀ t ∈ front, t.kind ≠ .eof := by
  induction h with
  | @done above =>
    refine ⟨_, rfl, ?_⟩
    intro t ht
    rw [List.eq_of_mem_replicate ht]
    simp [mark]
  | @row above below r content more _ _ hc _ ih =>
    obtain ⟨front, rfl, hf⟩ := ih
    refine ⟨r.marks above ++ content ++ [r.feed] ++ front, by simp, ?_⟩
    intro t ht
    simp only [List.mem_append, List.mem_singleton] at ht
    rcases ht with ((hm | hm) | rfl) | hm
    · exact r.marks_kind above t hm
    · exact TokenKind.ne_of_isContent (hc t hm) rfl
    · simp [Row.feed]
    · exact hf t hm

end SceneScript.Script.Layout
