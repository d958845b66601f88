/-! # Lines of a text

A line ends at a line feed. A carriage return just before the line feed belongs to the end of the
line; without a line feed it belongs to the line.
-/
namespace SceneScript.Text

/-- A line, given in reverse, without a carriage return at its end. -/
def closeLine : List Char → List Char
  | '\r' :: rest => rest.reverse
  | line => line.reverse

/-- The lines of a text, the first of which begins with some characters given in reverse. -/
def linesFrom (line : List Char) : List Char → List (List Char)
  | [] => if line.isEmpty then [] else [line.reverse]
  | '\n' :: rest => closeLine line :: linesFrom [] rest
  | c :: rest => linesFrom (c :: line) rest

/-- The lines of a text. A line feed at the end of the text starts no further line. -/
def lines (text : String) : List (List Char) := linesFrom [] text.toList

theorem closeLine_reverse {line : List Char} (h : '\r' ∉ line) : closeLine line.reverse = line := by
  unfold closeLine
  split
  · rename_i rest hr
    have hm : '\r' ∈ line.reverse := hr ▸ List.mem_cons_self ..
    exact absurd (List.mem_reverse.mp hm) h
  · exact List.reverse_reverse line

theorem linesFrom_append (line : List Char) {text : List Char} (h : '\n' ∉ text)
    (rest : List Char) : linesFrom line (text ++ '\n' :: rest) =
      closeLine (text.reverse ++ line) :: linesFrom [] rest := by
  induction text generalizing line with
  | nil => rfl
  | cons c text ih =>
    have hc : c ≠ '\n' := (List.ne_of_not_mem_cons h).symm
    have ht : '\n' ∉ text := List.not_mem_of_not_mem_cons h
    have hstep : linesFrom line (c :: (text ++ '\n' :: rest)) =
        linesFrom (c :: line) (text ++ '\n' :: rest) := by
      rw [linesFrom]
      exact hc
    rw [List.cons_append, hstep, ih (c :: line) ht, List.reverse_cons, List.append_assoc]
    rfl

/-- A text of lines with a line feed behind each has just these lines. -/
theorem linesFrom_feeds {list : List (List Char)} (h : ∀ line ∈ list, '\n' ∉ line ∧ '\r' ∉ line) :
    linesFrom [] (list.flatMap fun line => line ++ ['\n']) = list := by
  induction list with
  | nil => rfl
  | cons line rest ih =>
    obtain ⟨hfeed, hreturn⟩ := h line (List.mem_cons_self ..)
    rw [List.flatMap_cons, List.append_assoc, List.singleton_append, linesFrom_append [] hfeed,
      List.append_nil, closeLine_reverse hreturn,
      ih fun line hm => h line (List.mem_cons_of_mem _ hm)]

end SceneScript.Text
