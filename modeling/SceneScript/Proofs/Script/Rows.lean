import SceneScript.Script.Token.Layout

/-! # Rows and blocks

What the indentation of a file says, apart from how it is read. A row is a line that counts, and
the rows above one, the last of them first, tell which blocks are open there: a block opens at a
row that is wider than the one above, and stays open as long as no row is narrower.
-/
namespace SceneScript.Script

namespace Layout

/-- A line with a character that is no blank, where the first such character starts no comment. -/
structure Row where
  number : Nat
  blanks : List Char
  first : Char
  rest : List Char
  isBlank_of_mem : ∀ b ∈ blanks, Line.isBlank b = true
  first_not_blank : Line.isBlank first = false
  first_not_comment : first ≠ '#'

namespace Row

def width (r : Row) : Nat := r.blanks.length

def content (r : Row) : List Char := r.first :: r.rest

def text (r : Row) : List Char := r.blanks ++ r.content

/-- The tokens of what stands behind the indentation. -/
def tokens (r : Row) : Except Line.Fault (List Token) :=
  Line.tokens r.number (r.width + 1) r.content

theorem takeWhile_text (r : Row) : r.text.takeWhile Line.isBlank = r.blanks := by
  rw [text, List.takeWhile_append_of_pos r.isBlank_of_mem, content,
    List.takeWhile_cons_of_neg (by simp [r.first_not_blank]), List.append_nil]

theorem dropWhile_text (r : Row) : r.text.dropWhile Line.isBlank = r.content := by
  rw [text, List.dropWhile_append_of_pos r.isBlank_of_mem, content,
    List.dropWhile_cons_of_neg (by simp [r.first_not_blank])]

theorem hasContent_content (r : Row) : hasContent r.content = true := by
  simpa [hasContent, content] using r.first_not_comment

/-- The row in a line, if the line counts. -/
def of? (number : Nat) (text : List Char) : Option Row :=
  match h : text.dropWhile Line.isBlank with
  | [] => none
  | first :: rest =>
    if hc : first = '#' then none
    else some {
      number
      blanks := text.takeWhile Line.isBlank
      first
      rest
      isBlank_of_mem := List.all_eq_true.mp List.all_takeWhile
      first_not_blank := by
        have hd := List.head?_dropWhile_not Line.isBlank text
        simpa [h] using hd
      first_not_comment := hc }

/-- The lines that count are the texts of rows. -/
theorem of?_eq_some_iff {number : Nat} {text : List Char} {r : Row} :
    of? number text = some r ↔ r.number = number ∧ r.text = text := by
  constructor
  · intro h
    unfold of? at h
    split at h
    · cases h
    · rename_i first rest hd
      split at h
      · cases h
      · cases h
        refine ⟨rfl, ?_⟩
        change text.takeWhile Line.isBlank ++ first :: rest = text
        rw [← hd, List.takeWhile_append_dropWhile]
  · rintro ⟨rfl, rfl⟩
    have hd := r.dropWhile_text
    have ht := r.takeWhile_text
    unfold of?
    split
    · rename_i hn
      rw [hd] at hn
      cases hn
    · rename_i first rest hc
      rw [hd] at hc
      cases hc
      rw [dif_neg r.first_not_comment]
      simp only [ht]

theorem of?_eq_none_iff {number : Nat} {text : List Char} :
    of? number text = none ↔ hasContent (text.dropWhile Line.isBlank) = false := by
  unfold of?
  split
  · rename_i hd
    rw [hd]
    exact iff_of_true rfl rfl
  · rename_i first rest hd
    have hcontent : hasContent (text.dropWhile Line.isBlank) = (first != '#') := by
      rw [hd]
      rfl
    rw [hcontent]
    by_cases hc : first = '#'
    · rw [dif_pos hc]
      simp [hc]
    · rw [dif_neg hc]
      simp [hc]

end Row

/-- The rows of lines that are counted from a number on. -/
def rowsFrom (number : Nat) (lines : List (List Char)) : List Row :=
  (lines.zipIdx number).filterMap fun (text, n) => Row.of? n text

/-- The rows of a file, whose lines count from 1. -/
def rows (source : String) : List Row := rowsFrom 1 (Text.lines source)

theorem rowsFrom_skip {number : Nat} {text : List Char} (h : Row.of? number text = none)
    (rest : List (List Char)) : rowsFrom number (text :: rest) = rowsFrom (number + 1) rest := by
  simp [rowsFrom, h]

theorem rowsFrom_row (r : Row) (rest : List (List Char)) :
    rowsFrom r.number (r.text :: rest) = r :: rowsFrom (r.number + 1) rest := by
  have h : Row.of? r.number r.text = some r := Row.of?_eq_some_iff.mpr ⟨rfl, rfl⟩
  simp [rowsFrom, h]

/-- The width of the last row, or 0 above the first one. -/
def lastWidth : (above : List Row) → Nat
  | [] => 0
  | r :: _ => r.width

/-- The widths of the blocks that are open below some rows, innermost first. -/
def opens : (above : List Row) → List Nat
  | [] => []
  | r :: above =>
    if lastWidth above < r.width then r.width :: opens above
    else (opens above).filter (· ≤ r.width)

theorem opens_le {above : List Row} : ∀ w ∈ opens above, w ≤ lastWidth above := by
  cases above with
  | nil => simp [opens]
  | cons r above =>
    intro w hw
    unfold opens at hw
    split at hw
    · rename_i hwider
      rcases List.mem_cons.mp hw with rfl | hw
      · exact Nat.le_refl _
      · have := opens_le w hw
        simp only [lastWidth]
        omega
    · exact of_decide_eq_true (List.mem_filter.mp hw).2

theorem opens_pos {above : List Row} : ∀ w ∈ opens above, 0 < w := by
  induction above with
  | nil => simp [opens]
  | cons r above ih =>
    intro w hw
    unfold opens at hw
    split at hw
    · rcases List.mem_cons.mp hw with rfl | hw
      · omega
      · exact ih w hw
    · exact ih w (List.mem_filter.mp hw).1

/-- A block is strictly wider than the blocks around it. -/
theorem opens_decreasing (above : List Row) : (opens above).Pairwise (· > ·) := by
  induction above with
  | nil => exact List.Pairwise.nil
  | cons r above ih =>
    unfold opens
    split
    · rename_i hwider
      refine List.pairwise_cons.mpr ⟨fun w hw => ?_, ih⟩
      have := opens_le w hw
      omega
    · exact ih.filter _

/-- One character makes up the indentation of all the rows. -/
def Uniform (rows : List Row) : Prop := ∃ c, ∀ r ∈ rows, ∀ b ∈ r.blanks, b = c

/-- A row that is narrower than the one above has the width of an open block, or none. -/
def Row.Joins (above : List Row) (r : Row) : Prop :=
  r.width < lastWidth above → r.width = 0 ∨ r.width ∈ opens above

theorem Row.Joins.open_of_le {above : List Row} {r : Row} (h : r.Joins above)
    (hhead : (opens above).headD 0 = lastWidth above) (hle : r.width ≤ lastWidth above) :
    r.width = 0 ∨ r.width ∈ opens above := by
  rcases Nat.lt_or_eq_of_le hle with hlt | heq
  · exact h hlt
  · rw [heq, ← hhead]
    cases opens above with
    | nil => exact Or.inl rfl
    | cons w outer => exact Or.inr (List.mem_cons_self ..)

/-- The indentation of a file is sound. -/
structure Laid (rows : List Row) : Prop where
  uniform : Uniform rows
  joins : ∀ above r below, rows = above.reverse ++ r :: below → r.Joins above

theorem laid_nil : Laid [] :=
  ⟨⟨' ', by simp⟩, by simp⟩

theorem Laid.left {rows others : List Row} (h : Laid (rows ++ others)) : Laid rows := by
  obtain ⟨⟨c, hc⟩, hj⟩ := h
  refine ⟨⟨c, fun r hr => hc r (List.mem_append_left _ hr)⟩, ?_⟩
  rintro above r below rfl
  exact hj above r (below ++ others) (by simp)

theorem laid_snoc {above : List Row} {r : Row} (h : Laid above.reverse) :
    Laid (above.reverse ++ [r]) ↔ Uniform (above.reverse ++ [r]) ∧ r.Joins above := by
  constructor
  · intro hl
    exact ⟨hl.uniform, hl.joins above r [] rfl⟩
  · rintro ⟨hu, hj⟩
    refine ⟨hu, ?_⟩
    intro higher x below heq
    rcases List.eq_nil_or_concat below with rfl | ⟨between, last, rfl⟩
    · obtain ⟨hr, hx⟩ := List.append_inj' heq rfl
      cases hx
      rw [← List.reverse_inj.mp hr]
      exact hj
    · have heq' : above.reverse ++ [r] = (higher.reverse ++ x :: between) ++ [last] := by
        simpa using heq
      exact h.joins higher x between (List.append_inj' heq' rfl).1

/-- What is left of the blocks under a width reaches it exactly if the width is 0 or a block's. -/
theorem headD_filter_eq_iff {blocks : List Nat} {width : Nat} (hd : blocks.Pairwise (· > ·))
    (hp : ∀ w ∈ blocks, 0 < w) :
    (blocks.filter (· ≤ width)).headD 0 = width ↔ width = 0 ∨ width ∈ blocks := by
  induction blocks with
  | nil => simp [eq_comm]
  | cons w outer ih =>
    obtain ⟨hw, hd⟩ := List.pairwise_cons.mp hd
    have hpos : 0 < w := hp w (List.mem_cons_self ..)
    by_cases hle : w ≤ width
    · rw [List.filter_cons_of_pos (by simpa using hle), List.headD_cons]
      constructor
      · rintro rfl
        exact Or.inr (List.mem_cons_self ..)
      · intro h
        rcases h with rfl | h
        · omega
        · rcases List.mem_cons.mp h with rfl | h
          · rfl
          · have := hw width h
            omega
    · rw [List.filter_cons_of_neg (by simpa using hle),
        ih hd fun v hv => hp v (List.mem_cons_of_mem _ hv), List.mem_cons]
      have hne : width ≠ w := by omega
      simp [hne]

/-- Below sound rows the innermost open block is as wide as the last row. -/
theorem headD_opens {above : List Row} (h : Laid above.reverse) :
    (opens above).headD 0 = lastWidth above := by
  induction above with
  | nil => rfl
  | cons r above ih =>
    rw [List.reverse_cons] at h
    have hj : r.Joins above := h.joins above r [] rfl
    unfold opens
    split
    · rfl
    · rename_i hwider
      exact (headD_filter_eq_iff (opens_decreasing above) opens_pos).mpr
        (hj.open_of_le (ih h.left) (by omega))

end Layout
end SceneScript.Script
