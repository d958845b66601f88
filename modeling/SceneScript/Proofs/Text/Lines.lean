import Mathlib.Data.List.Induction
import SceneScript.Text.Lines

/-! # The lines of a text in pieces

A text that is cut where a line starts has the lines of its two parts. So the lines around a place
are known when one of them is changed, or when a new one is put there.
-/
namespace SceneScript.Text

/-- A line starts behind these characters of a text. -/
def LineStart (above : List Char) : Prop := above = [] ∨ ∃ front, above = front ++ ['\n']

/-- What ends a line that is not the last one. -/
inductive Break : List Char → Prop
  | feed : Break ['\n']
  | returned : Break ['\r', '\n']

/-- A line of a text, without what ends it: the first character of `below` ends the line, if there
is one. -/
structure IsLine (above line below : List Char) : Prop where
  starts : LineStart above
  single : '\n' ∉ line
  ends : below = [] ∨ (∃ rest, below = '\n' :: rest ∧ line.getLast? ≠ some '\r') ∨
    ∃ rest, below = '\r' :: '\n' :: rest

theorem linesFrom_feed (line front rest : List Char) : linesFrom line (front ++ '\n' :: rest) =
    linesFrom line (front ++ ['\n']) ++ linesFrom [] rest := by
  induction front generalizing line with
  | nil => rfl
  | cons c front ih =>
    by_cases hc : c = '\n'
    · subst hc
      change closeLine line :: linesFrom [] (front ++ '\n' :: rest) =
        closeLine line :: linesFrom [] (front ++ ['\n']) ++ linesFrom [] rest
      rw [ih, List.cons_append]
    · rw [List.cons_append, List.cons_append, linesFrom.eq_3 _ _ _ hc, linesFrom.eq_3 _ _ _ hc, ih]

theorem LineStart.lines_append {above : List Char} (h : LineStart above) (rest : List Char) :
    linesFrom [] (above ++ rest) = linesFrom [] above ++ linesFrom [] rest := by
  rcases h with rfl | ⟨front, rfl⟩
  · rfl
  · rw [List.append_assoc, List.singleton_append, linesFrom_feed]

theorem length_linesFrom_feed (line front : List Char) :
    (linesFrom line (front ++ ['\n'])).length = (front ++ ['\n']).count '\n' := by
  induction front generalizing line with
  | nil => rfl
  | cons c front ih =>
    by_cases hc : c = '\n'
    · subst hc
      change (linesFrom [] (front ++ ['\n'])).length + 1 = _
      rw [ih, List.cons_append, List.count_cons_self]
    · rw [List.cons_append, linesFrom.eq_3 _ _ _ hc, ih, List.count_cons_of_ne hc]

/-- There are as many lines above the start of a line as line feeds. -/
theorem LineStart.length {above : List Char} (h : LineStart above) :
    (linesFrom [] above).length = above.count '\n' := by
  rcases h with rfl | ⟨front, rfl⟩
  · rfl
  · exact length_linesFrom_feed [] front

/-- The last line of a text has nothing behind it, and is no line if it is empty. -/
theorem linesFrom_last {text : List Char} (h : '\n' ∉ text) (line : List Char) :
    linesFrom line text = if line.reverse ++ text = [] then [] else [line.reverse ++ text] := by
  induction text generalizing line with
  | nil => cases line <;> simp [linesFrom]
  | cons c text ih =>
    have hc : c ≠ '\n' := (List.ne_of_not_mem_cons h).symm
    rw [linesFrom.eq_3 _ _ _ hc, ih (List.not_mem_of_not_mem_cons h)]
    simp

/-- A text that does not end where a line starts has a last line. -/
theorem exists_last_line {text : List Char} (h : ¬LineStart text) : ∃ above line,
    text = above ++ line ∧ LineStart above ∧ '\n' ∉ line ∧ line ≠ [] := by
  induction text using List.reverseRecOn with
  | nil => exact absurd (Or.inl rfl) h
  | append_singleton front c ih =>
    have hc : c ≠ '\n' := fun hc => h (Or.inr ⟨front, by rw [hc]⟩)
    by_cases hstart : LineStart front
    · exact ⟨front, [c], rfl, hstart, by simpa using hc.symm, by simp⟩
    · obtain ⟨above, line, rfl, hstarts, hline, -⟩ := ih hstart
      exact ⟨above, line ++ [c], List.append_assoc .., hstarts, by simp [hline, hc.symm], by simp⟩

theorem closeLine_reverse_return (line : List Char) :
    closeLine (line ++ ['\r']).reverse = line := by
  rw [List.reverse_append]
  exact List.reverse_reverse line

/-- Closing a line drops a carriage return at its end and nothing else. -/
theorem closeLine_reverse_cases (line : List Char) :
    closeLine line.reverse = line ∨ line = closeLine line.reverse ++ ['\r'] := by
  rcases List.eq_nil_or_concat line with rfl | ⟨front, c, rfl⟩
  · exact Or.inl rfl
  · by_cases hc : c = '\r'
    · subst hc
      exact Or.inr (by rw [List.concat_eq_append, closeLine_reverse_return])
    · refine Or.inl ?_
      rw [List.concat_eq_append, List.reverse_append, List.reverse_singleton,
        List.singleton_append, closeLine.eq_2 _ fun _ heq => hc (List.cons.inj heq).1,
        List.reverse_cons, List.reverse_reverse]

/-- Some lines are what is seen of a line in front of some others: a carriage return at its end may
be part of what ends it, and an empty line that would be the last one is none. -/
inductive Seen (line : List Char) (below : List (List Char)) : List (List Char) → Prop
  | whole : Seen line below [line]
  | closed {front : List Char} : line = front ++ ['\r'] → Seen line below [front]
  | absent : line = [] → below = [] → Seen line below []

theorem seen_closeLine (line : List Char) (below : List (List Char)) :
    Seen line below [closeLine line.reverse] := by
  rcases closeLine_reverse_cases line with h | h
  · rw [h]
    exact .whole
  · exact .closed h

theorem linesFrom_return {line : List Char} (h : '\n' ∉ line) (rest : List Char) :
    linesFrom [] (line ++ '\r' :: '\n' :: rest) = line :: linesFrom [] rest := by
  have hreturn : '\n' ∉ line ++ ['\r'] := by simpa using h
  have htext : line ++ '\r' :: '\n' :: rest = (line ++ ['\r']) ++ '\n' :: rest := by simp
  rw [htext, linesFrom_append [] hreturn, List.append_nil, closeLine_reverse_return]

theorem linesFrom_break {line ending : List Char} (h : '\n' ∉ line) (he : Break ending)
    (rest : List Char) :
    ∃ seen, linesFrom [] (line ++ (ending ++ rest)) = seen ++ linesFrom [] rest ∧
      Seen line (linesFrom [] rest) seen ∧ seen.length = 1 := by
  cases he with
  | feed =>
    refine ⟨_, ?_, seen_closeLine line _, rfl⟩
    rw [List.singleton_append, linesFrom_append [] h, List.append_nil]
    rfl
  | returned => exact ⟨[line], linesFrom_return h rest, .whole, rfl⟩

theorem linesFrom_unended {line : List Char} (h : '\n' ∉ line) :
    Seen line [] (linesFrom [] line) := by
  rw [linesFrom_last h, List.reverse_nil, List.nil_append]
  split
  · rename_i hnil
    exact .absent hnil rfl
  · exact .whole

/-- The lines of a text around one of its lines, and those with another line in its place. -/
theorem IsLine.exists_lines {above line below : List Char} (h : IsLine above line below) :
    ∃ rest, (linesFrom [] (above ++ (line ++ below)) = linesFrom [] above ++ [line] ++ rest ∨
        line = [] ∧ rest = [] ∧ linesFrom [] (above ++ (line ++ below)) = linesFrom [] above) ∧
      ∀ line', '\n' ∉ line' → ∃ seen, Seen line' rest seen ∧
        linesFrom [] (above ++ (line' ++ below)) = linesFrom [] above ++ seen ++ rest := by
  obtain ⟨hstarts, hsingle, hends⟩ := h
  simp only [hstarts.lines_append, List.append_assoc]
  rcases hends with rfl | ⟨rest, rfl, hreturn⟩ | ⟨rest, rfl⟩
  · refine ⟨[], ?_, fun line' h' => ⟨_, linesFrom_unended h', by simp⟩⟩
    rw [List.append_nil, linesFrom_last hsingle, List.reverse_nil, List.nil_append]
    split
    · rename_i hnil
      exact Or.inr ⟨hnil, rfl, by simp⟩
    · exact Or.inl (by simp)
  · refine ⟨linesFrom [] rest, Or.inl ?_, fun line' h' => ⟨_, seen_closeLine line' _, ?_⟩⟩
    · have hclose : closeLine line.reverse = line := by
        refine (closeLine_reverse_cases line).resolve_right fun heq => hreturn ?_
        rw [heq, List.getLast?_append, List.getLast?_singleton, Option.some_or]
      rw [linesFrom_append [] hsingle, List.append_nil, hclose]
      rfl
    · rw [linesFrom_append [] h', List.append_nil]
      rfl
  · refine ⟨linesFrom [] rest, Or.inl ?_, fun line' h' => ⟨[line'], .whole, ?_⟩⟩
    · rw [linesFrom_return hsingle]
      rfl
    · rw [linesFrom_return h']
      rfl

end SceneScript.Text
