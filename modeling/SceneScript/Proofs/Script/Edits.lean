import SceneScript.Proofs.Script.Insertion
import SceneScript.Proofs.Text.Lines

/-! # Edits that change no word

Lines without content, blanks between tokens and comments can be put into a file at any place. The
file is still read, with the same words in the same order; the words of a line that was not changed
keep their columns, and move down by the lines that were put above them.
-/
namespace SceneScript.Script
open Text (LineStart Break IsLine Seen)

/-! ### Edits -/

/-- Where a text was edited: a new line became the one with some number, or something was put into a
line. -/
inductive Site where
  | line (number : Nat)
  | inside (number : Nat)

/-- The number of lines that an edit puts above a line. -/
def Site.above : Site → Nat → Nat
  | line number, n => if number ≤ n then 1 else 0
  | inside _, _ => 0

/-- Whether something is put into a line. -/
def Site.Touches : Site → Nat → Prop
  | line _, _ => False
  | inside number, n => n = number

/-- The number of lines that edits, one after the other, put above a line. -/
def linesAbove : List Site → Nat → Nat
  | [], _ => 0
  | site :: sites, n => site.above n + linesAbove sites (n + site.above n)

/-- Whether one of some edits puts something into a line, wherever it is by then. -/
def Touched : List Site → Nat → Prop
  | [], _ => False
  | site :: sites, n => site.Touches n ∨ Touched sites (n + site.above n)

/-- One edit of a text: a line without content is put where a line starts, or behind the last line,
or something is put into a line. -/
inductive Edit (file : String) : Site → String → String → Prop
  | line {source source' : String} {above line ending below : List Char} :
    LineStart above → Hollow line → '\n' ∉ line → Break ending →
    source.toList = above ++ below → source'.toList = above ++ (line ++ (ending ++ below)) →
    Edit file (.line (above.count '\n' + 1)) source source'
  | last {source source' : String} {ending line : List Char} :
    ¬LineStart source.toList → Hollow line → '\n' ∉ line → Break ending →
    source'.toList = source.toList ++ (ending ++ line) →
    Edit file (.line (source.toList.count '\n' + 2)) source source'
  | unended {source source' : String} {line : List Char} :
    LineStart source.toList → Hollow line → '\n' ∉ line → source'.toList = source.toList ++ line →
    Edit file (.line (source.toList.count '\n' + 1)) source source'
  | inside {source source' : String} {ts : List Token} {above left right new below : List Char} :
    tokenize file source = .ok ts → IsLine above (left ++ right) below →
    Insertion ts (above.count '\n' + 1) left right new →
    source.toList = above ++ (left ++ right ++ below) →
    source'.toList = above ++ (left ++ (new ++ right) ++ below) →
    Edit file (.inside (above.count '\n' + 1)) source source'

/-- Edits one after the other. -/
inductive Edits (file : String) : List Site → String → String → Prop
  | none {source : String} : Edits file [] source source
  | edit {source source' source'' : String} {site : Site} {sites : List Site} :
    Edit file site source source' → Edits file sites source' source'' →
    Edits file (site :: sites) source source''

namespace Layout

/-! ### One edit -/

theorem hollow_seen {line : List Char} {below seen : List (List Char)} (h : Seen line below seen)
    (hl : Hollow line) : ∀ text ∈ seen, Hollow text := by
  cases h with
  | whole => simpa using hl
  | closed hfront =>
    rw [hfront] at hl
    simpa using hollow_left hl
  | absent => simp

theorem readLines_hollow (s : State) (number : Nat) {lines : List (List Char)}
    (h : ∀ text ∈ lines, Hollow text) : readLines s number lines = .ok ([], s) := by
  induction lines generalizing number with
  | nil => rfl
  | cons text rest ih =>
    rw [List.forall_mem_cons] at h
    rw [readLines, lineTokens_skip s (hollow_iff.mpr h.1)]
    simp [ih (number + 1) h.2]

theorem readLines_singleton {s s' : State} {number : Nat} {text : List Char} {ts : List Token} :
    readLines s number [text] = .ok (ts, s') ↔ lineTokens s number text = .ok (ts, s') := by
  simp only [readLines]
  cases lineTokens s number text <;> simp [Prod.ext_iff]

theorem readLines_append {s s₁ s₂ : State} {number : Nat} {lines rest : List (List Char)}
    {ts₁ ts₂ : List Token} (h : readLines s number lines = .ok (ts₁, s₁))
    (hrest : readLines s₁ (number + lines.length) rest = .ok (ts₂, s₂)) :
    readLines s number (lines ++ rest) = .ok (ts₁ ++ ts₂, s₂) := by
  induction lines generalizing s number ts₁ with
  | nil =>
    cases h
    exact hrest
  | cons text lines ih =>
    obtain ⟨⟨first, next⟩, hfirst, h⟩ := Result.bind_eq_ok.mp h
    obtain ⟨⟨more, last⟩, hmore, h⟩ := Result.bind_eq_ok.mp h
    cases h
    rw [List.length_cons, Nat.add_comm lines.length, ← Nat.add_assoc] at hrest
    rw [List.cons_append, readLines, hfirst]
    simp [ih hmore hrest]

/-- The words of a line are those of what is seen of it. -/
theorem readLines_seen {above : Nat → Nat} {touched : Nat → Prop} {s s' : State} {number : Nat}
    {line : List Char} {below seen : List (List Char)} {found : List Token}
    (hs : Seen line below seen) (h : lineTokens s number line = .ok (found, s'))
    (habove : above number = 0) : ∃ found', readLines s number seen = .ok (found', s') ∧
      List.Forall₂ (Kept above touched) found found' := by
  cases hs with
  | whole =>
    exact ⟨found, readLines_singleton.mpr h,
      kept_self fun t ht _ => by rw [lineTokens_line h t ht, habove]⟩
  | closed hfront =>
    subst hfront
    obtain ⟨found', hfound', hkept⟩ := lineTokens_return h habove
    exact ⟨found', readLines_singleton.mpr hfound', hkept⟩
  | absent hline _ =>
    subst hline
    cases h
    exact ⟨[], rfl, .nil⟩

end Layout

open Layout

theorem Kept.trans {above above' : Nat → Nat} {touched touched' : Nat → Prop} {t t' t'' : Token}
    (h : Kept above touched t t') (h' : Kept above' touched' t' t'') :
    Kept (fun n => above n + above' (n + above n)) (fun n => touched n ∨ touched' (n + above n))
      t t'' := by
  refine ⟨h'.kind.trans h.kind, h'.text.trans h.text, fun hc => ?_, fun hc hn => ?_⟩
  · rw [h'.line (h.kind ▸ hc), h.line hc, Nat.add_assoc]
  · have hline := h.line hc
    rw [h'.column (h.kind ▸ hc) fun ht => hn (Or.inr (hline ▸ ht)),
      h.column hc fun ht => hn (Or.inl ht)]

theorem kept_trans {above above' : Nat → Nat} {touched touched' : Nat → Prop}
    {ts ts' ts'' : List Token} (h : List.Forall₂ (Kept above touched) ts ts')
    (h' : List.Forall₂ (Kept above' touched') ts' ts'') :
    List.Forall₂ (Kept (fun n => above n + above' (n + above n))
      (fun n => touched n ∨ touched' (n + above n))) ts ts'' := by
  induction h generalizing ts'' with
  | nil =>
    cases h'
    exact .nil
  | cons hfirst _ ih =>
    cases h' with
    | cons hsecond hrest => exact .cons (hfirst.trans hsecond) (ih hrest)

section
variable {file : String} {source source' : String} {ts : List Token}

theorem tokenize_eq (file source : String) :
    tokenize file source = fileTokens file {} 1 (Text.linesFrom [] source.toList) := rfl

theorem tokenize_line {above line ending below : List Char}
    (h : tokenize file source = .ok ts) (hstarts : LineStart above) (hhollow : Hollow line)
    (hline : '\n' ∉ line) (hending : Break ending) (hsource : source.toList = above ++ below)
    (hsource' : source'.toList = above ++ (line ++ (ending ++ below))) :
    ∃ ts', tokenize file source' = .ok ts' ∧
      List.Forall₂ (Kept (Site.line (above.count '\n' + 1)).above
        (Site.line (above.count '\n' + 1)).Touches) ts ts' := by
  rw [tokenize_eq, hsource, hstarts.lines_append] at h
  rw [tokenize_eq, hsource', hstarts.lines_append]
  obtain ⟨seen, hlines, hseen, hlength⟩ := Text.linesFrom_break hline hending below
  rw [hlines, ← List.append_assoc]
  rw [← List.append_nil (Text.linesFrom [] above)] at h
  refine fileTokens_splice h (fun n hn => ?_) (fun _ => ⟨1, by simp [hlength], fun n hn => ?_⟩)
    fun s s' found hfound _ _ => ?_
  · rw [hstarts.length] at hn
    exact if_neg (by omega)
  · rw [hstarts.length, List.length_nil] at hn
    exact if_pos (by omega)
  · cases hfound
    exact ⟨[], readLines_hollow s _ (hollow_seen hseen hhollow), .nil⟩

theorem tokenize_last {ending line : List Char} (h : tokenize file source = .ok ts)
    (hunended : ¬LineStart source.toList) (hhollow : Hollow line) (hline : '\n' ∉ line)
    (hending : Break ending) (hsource' : source'.toList = source.toList ++ (ending ++ line)) :
    ∃ ts', tokenize file source' = .ok ts' ∧
      List.Forall₂ (Kept (Site.line (source.toList.count '\n' + 2)).above
        (Site.line (source.toList.count '\n' + 2)).Touches) ts ts' := by
  obtain ⟨above, last, hsource, hstarts, hlast, hne⟩ := Text.exists_last_line hunended
  rw [tokenize_eq, hsource, hstarts.lines_append, Text.linesFrom_last hlast, List.reverse_nil,
    List.nil_append, if_neg hne, ← List.append_nil (_ ++ [last])] at h
  obtain ⟨seen, hlines, hseen, -⟩ := Text.linesFrom_break hlast hending line
  rw [tokenize_eq, hsource', hsource, List.append_assoc, hstarts.lines_append, hlines,
    ← List.append_nil (_ ++ (_ ++ _))]
  have hcount : (above ++ last).count '\n' = above.count '\n' := by
    rw [List.count_append, List.count_eq_zero_of_not_mem hlast, Nat.add_zero]
  have habove : ∀ n ≤ above.count '\n' + 1,
      (Site.line ((above ++ last).count '\n' + 2)).above n = 0 :=
    fun n hn => if_neg (by omega)
  refine fileTokens_splice h (fun n hn => ?_) (fun hnil => absurd rfl hnil)
    fun s s' found hfound _ _ => ?_
  · rw [hstarts.length] at hn
    exact habove n (Nat.le_succ_of_le hn)
  · rw [readLines_singleton] at hfound
    have hzero := habove (1 + (Text.linesFrom [] above).length)
      (Nat.le_of_eq (by rw [hstarts.length, Nat.add_comm]))
    obtain ⟨found', hfound', hkept⟩ := readLines_seen hseen hfound hzero
    have hnone := readLines_hollow s' (1 + (Text.linesFrom [] above).length + seen.length)
      (hollow_seen (Text.linesFrom_unended hline) hhollow)
    refine ⟨found', ?_, hkept⟩
    rw [readLines_append hfound' hnone, List.append_nil]

theorem tokenize_unended {line : List Char} (h : tokenize file source = .ok ts)
    (hstarts : LineStart source.toList) (hhollow : Hollow line) (hline : '\n' ∉ line)
    (hsource' : source'.toList = source.toList ++ line) :
    ∃ ts', tokenize file source' = .ok ts' ∧
      List.Forall₂ (Kept (Site.line (source.toList.count '\n' + 1)).above
        (Site.line (source.toList.count '\n' + 1)).Touches) ts ts' := by
  rw [tokenize_eq, ← List.append_nil (Text.linesFrom [] source.toList),
    ← List.append_nil (_ ++ [])] at h
  rw [tokenize_eq, hsource', hstarts.lines_append, ← List.append_nil (_ ++ _)]
  refine fileTokens_splice h (fun n hn => ?_) (fun hnil => absurd rfl hnil)
    fun s s' found hfound _ _ => ?_
  · rw [hstarts.length] at hn
    exact if_neg (by omega)
  · cases hfound
    exact ⟨[], readLines_hollow s _ (hollow_seen (Text.linesFrom_unended hline) hhollow), .nil⟩

theorem Insertion.not_mem {number : Nat} {left right new : List Char}
    (h : Insertion ts number left right new) : '\n' ∉ new := by
  have hblank : ∀ {blanks : List Char}, (∀ b ∈ blanks, Line.isBlank b = true) → '\n' ∉ blanks :=
    fun hb hm => absurd (hb _ hm) (by decide)
  cases h with
  | between hb => exact hblank hb
  | trailing hb => exact hblank hb
  | comment htext => simpa using htext

theorem tokenize_inside {above left right new below : List Char}
    (h : tokenize file source = .ok ts) (hl : IsLine above (left ++ right) below)
    (hi : Insertion ts (above.count '\n' + 1) left right new)
    (hsource : source.toList = above ++ (left ++ right ++ below))
    (hsource' : source'.toList = above ++ (left ++ (new ++ right) ++ below)) :
    ∃ ts', tokenize file source' = .ok ts' ∧
      List.Forall₂ (Kept (Site.inside (above.count '\n' + 1)).above
        (Site.inside (above.count '\n' + 1)).Touches) ts ts' := by
  have hsingle : '\n' ∉ left ++ (new ++ right) := by
    have := hl.single
    simp only [List.mem_append, not_or] at this ⊢
    exact ⟨this.1, hi.not_mem, this.2⟩
  obtain ⟨rest, hold, hnew⟩ := hl.exists_lines
  obtain ⟨seen, hseen, hlines'⟩ := hnew _ hsingle
  rw [tokenize_eq, hsource] at h
  rw [tokenize_eq, hsource', hlines']
  have hnumber : 1 + (Text.linesFrom [] above).length = above.count '\n' + 1 := by
    rw [hl.starts.length, Nat.add_comm]
  rcases hold with hlines | ⟨hnil, rfl, hlines⟩
  · rw [hlines] at h
    refine fileTokens_splice h (fun _ _ => rfl) (fun hne => ⟨0, ?_, fun _ _ => rfl⟩)
      fun s s' found hfound hin hall => ?_
    · cases hseen with
      | absent _ hrest => exact absurd hrest hne
      | _ => rfl
    · rw [readLines_singleton] at hfound
      rw [hnumber] at hfound hall ⊢
      have hwords : ∀ t ∈ ts, t.IsOn (above.count '\n' + 1) → t ∈ found := fun t ht hon =>
        hall t ht (Nat.le_of_eq hon.2.symm) (by rw [hon.2]; exact Nat.lt_succ_self _) hon.1
      obtain ⟨found', hfound', hkept⟩ :=
        @lineTokens_insert (Site.inside (above.count '\n' + 1)).above
          (Site.inside (above.count '\n' + 1)).Touches s s' ts found _ left right new hi hfound
          hin hwords rfl rfl
      obtain ⟨found'', hfound'', hkept'⟩ :=
        @readLines_seen (fun _ => 0) (fun _ => False) s s' _ _ rest seen found' hseen hfound' rfl
      refine ⟨found'', hfound'', ?_⟩
      have hboth := kept_trans hkept hkept'
      simp only [Nat.add_zero, or_false] at hboth
      exact hboth
  · obtain ⟨rfl, rfl⟩ := List.append_eq_nil_iff.mp hnil
    rw [hlines, ← List.append_nil (Text.linesFrom [] above), ← List.append_nil (_ ++ [])] at h
    refine fileTokens_splice h (fun _ _ => rfl) (fun hne => absurd rfl hne)
      fun s s' found hfound _ _ => ?_
    have hhollow : Hollow ([] ++ (new ++ [])) := by
      refine hollow_insert hi ⟨[], [], rfl, by simp, Or.inl rfl⟩ ?_
      rintro t - - ⟨before, chars, gap, heq, -, hspells⟩
      have hempty := List.append_eq_nil_iff.mp heq.symm
      exact hspells.ne_nil (List.append_eq_nil_iff.mp hempty.1).2
    cases hfound
    exact ⟨[], readLines_hollow s _ (hollow_seen hseen hhollow), .nil⟩

/-- An edit changes no word. -/
theorem Edit.tokenize {site : Site} (he : Edit file site source source')
    (h : tokenize file source = .ok ts) : ∃ ts', Script.tokenize file source' = .ok ts' ∧
      List.Forall₂ (Kept site.above site.Touches) ts ts' := by
  cases he with
  | line hstarts hhollow hline hending hsource hsource' =>
    exact tokenize_line h hstarts hhollow hline hending hsource hsource'
  | last hunended hhollow hline hending hsource' =>
    exact tokenize_last h hunended hhollow hline hending hsource'
  | unended hstarts hhollow hline hsource' =>
    exact tokenize_unended h hstarts hhollow hline hsource'
  | inside htokens hl hi hsource hsource' =>
    rw [h] at htokens
    cases htokens
    exact tokenize_inside h hl hi hsource hsource'

/-- Layout that should not matter does not. A text that is read is still read after any edits that
put blanks, comments or lines without content where they do not matter. The tokens have the same
kinds and texts in the same order. A token that is not there for the layout moves down by the lines
that were put above its line, and keeps its column if its line was not edited. -/
theorem tokenize_edited {sites : List Site} (h : tokenize file source = .ok ts)
    (he : Edits file sites source source') : ∃ ts', tokenize file source' = .ok ts' ∧
      List.Forall₂ (Kept (linesAbove sites) (Touched sites)) ts ts' := by
  induction he generalizing ts with
  | none => exact ⟨ts, h, kept_self fun _ _ _ => rfl⟩
  | edit hfirst _ ih =>
    obtain ⟨ts', h', hkept⟩ := hfirst.tokenize h
    obtain ⟨ts'', h'', hkept'⟩ := ih h'
    exact ⟨ts'', h'', kept_trans hkept hkept'⟩

end

/-- A block with a negative number, and the same text with a comment between its lines, blanks in
front of the number and a line without a line feed at the end. -/
def branch : String := "if a:\n\tb=-1\n"

def branchTokens : List Token :=
  [⟨.keyword .ifWord, "if", 1, 1⟩, ⟨.identifier, "a", 1, 4⟩, ⟨.colon, ":", 1, 5⟩,
    ⟨.newline, "", 1, 6⟩, ⟨.indent, "", 2, 1⟩, ⟨.identifier, "b", 2, 2⟩, ⟨.assign, "=", 2, 3⟩,
    ⟨.integer, "-1", 2, 4⟩, ⟨.newline, "", 2, 6⟩, ⟨.dedent, "", 3, 1⟩, ⟨.eof, "", 3, 1⟩]

def branchEdited : String := "if a:\n \t# why\n\tb=\t -1\n  "

theorem branch_edited : tokenize "branch" branch = .ok branchTokens ∧
    Edits "branch" [.inside 2, .line 2, .line 4] branch branchEdited ∧
    ∃ ts', tokenize "branch" branchEdited = .ok ts' ∧ List.Forall₂
      (Kept (linesAbove [.inside 2, .line 2, .line 4]) (Touched [.inside 2, .line 2, .line 4]))
      branchTokens ts' := by
  have hok : tokenize "branch" branch = .ok branchTokens :=
    Result.eq_ok_of_toOption (by decide +kernel)
  have hends : ∀ t : Token, t.kind ≠ .string → t.text.toList ≠ [] → ∀ before gap,
      t.column = before.length + 1 → t.EndsIn (before ++ t.text.toList ++ gap) := by
    intro t hk hne before gap hcolumn
    have hspells := Line.Spells.exact hk hne
    rw [String.ofList_toList] at hspells
    exact ⟨before, t.text.toList, gap, rfl, hcolumn, hspells⟩
  have hb : Token.EndsIn ⟨.identifier, "b", 2, 2⟩ ['\t', 'b', '='] :=
    hends _ (by decide) (by decide) ['\t'] ['='] rfl
  have ha : Token.EndsIn ⟨.assign, "=", 2, 3⟩ ['\t', 'b', '='] :=
    hends _ (by decide) (by decide) ['\t', 'b'] [] rfl
  have hinsert : Insertion branchTokens 2 ['\t', 'b', '='] ['-', '1'] ['\t', ' '] := by
    refine .between (by simp [Line.isBlank]) ⟨_, by decide, ⟨rfl, rfl⟩, hb⟩
      ⟨⟨.integer, "-1", 2, 4⟩, by decide, ⟨rfl, rfl⟩, by decide⟩ fun t ht hon => ?_
    have hwords : t ∈ branchTokens.filter fun t => t.kind.isContent && t.line == 2 :=
      List.mem_filter.mpr ⟨ht, by simp [hon.1, hon.2]⟩
    have hfilter : (branchTokens.filter fun t => t.kind.isContent && t.line == 2) =
        [⟨.identifier, "b", 2, 2⟩, ⟨.assign, "=", 2, 3⟩, ⟨.integer, "-1", 2, 4⟩] := by decide
    rw [hfilter] at hwords
    simp only [List.mem_cons, List.not_mem_nil, or_false] at hwords
    rcases hwords with rfl | rfl | rfl
    · exact Or.inl hb
    · exact Or.inl ha
    · exact Or.inr (by decide)
  have hblanks : Edit "branch" (.inside 2) branch "if a:\n\tb=\t -1\n" :=
    @Edit.inside _ _ _ branchTokens "if a:\n".toList ['\t', 'b', '='] ['-', '1'] ['\t', ' ']
      ['\n'] hok
      ⟨Or.inr ⟨"if a:".toList, by decide⟩, by decide, Or.inr (Or.inl ⟨[], rfl, by decide⟩)⟩ hinsert
      (by decide) (by decide)
  have hcomment : Edit "branch" (.line 2) "if a:\n\tb=\t -1\n" "if a:\n \t# why\n\tb=\t -1\n" :=
    @Edit.line _ _ _ "if a:\n".toList " \t# why".toList ['\n'] "\tb=\t -1\n".toList
      (Or.inr ⟨"if a:".toList, by decide⟩)
      ⟨[' ', '\t'], "# why".toList, by decide, by simp [Line.isBlank],
        Or.inr ⟨" why".toList, by decide⟩⟩
      (by decide) .feed (by decide) (by decide)
  have hend : Edit "branch" (.line 4) "if a:\n \t# why\n\tb=\t -1\n" branchEdited :=
    @Edit.unended _ "if a:\n \t# why\n\tb=\t -1\n" _ [' ', ' ']
      (Or.inr ⟨"if a:\n \t# why\n\tb=\t -1".toList, by decide⟩)
      ⟨[' ', ' '], [], rfl, by simp [Line.isBlank], Or.inl rfl⟩ (by decide) (by decide)
  have hedits : Edits "branch" [.inside 2, .line 2, .line 4] branch branchEdited :=
    .edit hblanks (.edit hcomment (.edit hend .none))
  exact ⟨hok, hedits, tokenize_edited hok hedits⟩

end SceneScript.Script
