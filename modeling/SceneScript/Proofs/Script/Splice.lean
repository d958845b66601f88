import SceneScript.Proofs.Script.Cuts

/-! # Files with other lines

The lines of a file are read one after the other, and a line tells those below it only which blocks
are open and which character indents. So when some lines of a file are exchanged for others with the
same words, all other lines are read as before, further down if there are more of the new lines.
-/
namespace SceneScript.Script

/-- A token after a change of its file. Above each line a number of lines were put, and on some
lines the columns may be others. -/
structure Kept (above : Nat → Nat) (touched : Nat → Prop) (t t' : Token) : Prop where
  kind : t'.kind = t.kind
  text : t'.text = t.text
  line : t.kind.isContent = true → t'.line = t.line + above t.line
  column : t.kind.isContent = true → ¬touched t.line → t'.column = t.column

section
variable {above : Nat → Nat} {touched : Nat → Prop} {ts : List Token}

theorem kept_self (h : ∀ t ∈ ts, t.kind.isContent = true → above t.line = 0) :
    List.Forall₂ (Kept above touched) ts ts :=
  List.forall₂_same.mpr fun t ht => ⟨rfl, rfl, fun hc => by rw [h t ht hc, Nat.add_zero],
    fun _ _ => rfl⟩

theorem kept_moved {lines : Nat} (h : ∀ t ∈ ts, t.kind.isContent = true → above t.line = lines) :
    List.Forall₂ (Kept above touched) ts (ts.map (Line.moved lines 0)) := by
  rw [List.forall₂_map_right_iff]
  exact List.forall₂_same.mpr fun t ht => ⟨rfl, rfl, fun hc => by rw [h t ht hc]; rfl,
    fun _ _ => rfl⟩

theorem kept_of_sameWord {ts' : List Token} (h : List.Forall₂ Line.SameWord ts ts')
    (hline : ∀ t ∈ ts, above t.line = 0 ∧ touched t.line) :
    List.Forall₂ (Kept above touched) ts ts' := by
  induction h with
  | nil => exact .nil
  | @cons t t' ts ts' hsame _ ih =>
    rw [List.forall_mem_cons] at hline
    obtain ⟨⟨habove, htouched⟩, hrest⟩ := hline
    obtain ⟨hkind, htext, hl⟩ := hsame
    refine .cons ⟨hkind, htext, fun _ => ?_, fun _ hn => absurd htouched hn⟩ (ih hrest)
    rw [hl, habove, Nat.add_zero]

end

namespace Layout

/-! ### The same lines further down -/

section
variable {s s' : State} {number : Nat} {text blanks : List Char} {ts : List Token}

theorem close_moved (width number lines : Nat) (blocks : List Nat) :
    close width (number + lines) blocks =
      ((close width number blocks).1.map (Line.moved lines 0), (close width number blocks).2) := by
  induction blocks with
  | nil => rfl
  | cons w outer ih =>
    simp only [close]
    split
    · rw [ih]
      rfl
    · rfl

theorem indent_moved (s : State) (number lines : Nat) (blanks : List Char) :
    indent s (number + lines) blanks =
      (indent s number blanks).map fun (ts, s') => (ts.map (Line.moved lines 0), s') := by
  simp only [indent]
  split
  · rfl
  · split
    · rfl
    · rw [close_moved]
      dsimp only
      split <;> rfl

theorem lineTokens_moved (h : lineTokens s number text = .ok (ts, s')) (lines : Nat) :
    lineTokens s (number + lines) text = .ok (ts.map (Line.moved lines 0), s') := by
  simp only [lineTokens] at h ⊢
  split at h
  · rename_i hcontent
    obtain ⟨⟨marks, left⟩, hmarks, h⟩ := Result.bind_eq_ok.mp h
    obtain ⟨content, htokens, h⟩ := Result.bind_eq_ok.mp h
    cases h
    have hmoved := Line.tokensFrom_moved htokens lines 0
    rw [if_pos hcontent, indent_moved, hmarks]
    simp only [Except.map, Result.ok_bind, Line.tokens, Nat.add_zero] at hmoved ⊢
    rw [hmoved]
    simp [Line.moved]
  · rename_i hcontent
    cases h
    rw [if_neg hcontent]
    rfl

theorem fileTokens_moved {file : String} {lines : List (List Char)}
    (h : fileTokens file s number lines = .ok ts) (down : Nat) :
    fileTokens file s (number + down) lines = .ok (ts.map (Line.moved down 0)) := by
  induction lines generalizing s number ts with
  | nil =>
    cases h
    simp [fileTokens, endTokens, mark, Line.moved]
  | cons text rest ih =>
    unfold fileTokens at h
    split at h
    · cases h
    · rename_i found s' hline
      obtain ⟨more, hmore, h⟩ := Result.bind_eq_ok.mp h
      cases h
      rw [fileTokens_ok rest (lineTokens_moved hline down), Nat.add_right_comm, ih hmore,
        Except.map, List.map_append]

end

/-! ### Where the tokens are -/

section
variable {s s' : State} {number : Nat} {text blanks : List Char} {ts : List Token}

theorem close_line (width number : Nat) (blocks : List Nat) :
    ∀ t ∈ (close width number blocks).1, t.line = number := by
  induction blocks with
  | nil => simp [close]
  | cons w outer ih =>
    simp only [close]
    split
    · exact List.forall_mem_cons.mpr ⟨rfl, ih⟩
    · simp

theorem indent_line (h : indent s number blanks = .ok (ts, s')) : ∀ t ∈ ts, t.line = number := by
  simp only [indent] at h
  split at h
  · cases h
  · split at h
    · cases h
      simp [mark]
    · split at h
      · cases h
        exact close_line _ _ _
      · cases h

theorem lineTokens_line (h : lineTokens s number text = .ok (ts, s')) :
    ∀ t ∈ ts, t.line = number := by
  simp only [lineTokens] at h
  split at h
  · obtain ⟨⟨marks, left⟩, hmarks, h⟩ := Result.bind_eq_ok.mp h
    obtain ⟨content, htokens, h⟩ := Result.bind_eq_ok.mp h
    cases h
    intro t ht
    simp only [List.mem_append, List.mem_singleton] at ht
    rcases ht with (ht | ht) | rfl
    · exact indent_line hmarks t ht
    · exact (Line.tokensFrom_place htokens (Nat.le_refl _) t ht).1
    · rfl
  · cases h
    simp

theorem readLines_line {lines : List (List Char)} (h : readLines s number lines = .ok (ts, s')) :
    ∀ t ∈ ts, number ≤ t.line ∧ t.line < number + lines.length := by
  induction lines generalizing s number ts with
  | nil =>
    cases h
    simp
  | cons text rest ih =>
    obtain ⟨⟨first, next⟩, hfirst, h⟩ := Result.bind_eq_ok.mp h
    obtain ⟨⟨more, last⟩, hmore, h⟩ := Result.bind_eq_ok.mp h
    cases h
    intro t ht
    rw [List.length_cons]
    rcases List.mem_append.mp ht with ht | ht
    · have := lineTokens_line hfirst t ht
      omega
    · have := ih hmore t ht
      omega

theorem fileTokens_line {file : String} {lines : List (List Char)}
    (h : fileTokens file s number lines = .ok ts) : ∀ t ∈ ts, number ≤ t.line := by
  induction lines generalizing s number ts with
  | nil =>
    cases h
    intro t ht
    rcases List.mem_append.mp ht with ht | ht
    · obtain ⟨w, -, rfl⟩ := List.mem_map.mp ht
      exact Nat.le_refl _
    · rw [List.mem_singleton.mp ht]
      exact Nat.le_refl _
  | cons text rest ih =>
    unfold fileTokens at h
    split at h
    · cases h
    · rename_i found s' hline
      obtain ⟨more, hmore, h⟩ := Result.bind_eq_ok.mp h
      cases h
      intro t ht
      rcases List.mem_append.mp ht with ht | ht
      · exact Nat.le_of_eq (lineTokens_line hline t ht).symm
      · exact Nat.le_of_succ_le (ih hmore t ht)

end

/-! ### Exchanging lines -/

/-- The tokens at the end of a file have no line to keep. -/
theorem endTokens_kept (above : Nat → Nat) (touched : Nat → Prop) (s : State)
    (number number' : Nat) :
    List.Forall₂ (Kept above touched) (endTokens s number) (endTokens s number') := by
  have hmark : ∀ kind : TokenKind, kind.isContent = false →
      Kept above touched (mark kind number) (mark kind number') := fun kind hk =>
    ⟨rfl, rfl, fun hc => absurd (hk.symm.trans hc) (by simp),
      fun hc => absurd (hk.symm.trans hc) (by simp)⟩
  refine List.rel_append ?_ (.cons (hmark .eof rfl) .nil)
  rw [List.forall₂_map_left_iff, List.forall₂_map_right_iff]
  exact List.forall₂_same.mpr fun _ _ => hmark .dedent rfl

/-- A file that is read is read up to any line, and from there on. -/
theorem fileTokens_split {file : String} {s : State} {number : Nat} {lines rest : List (List Char)}
    {ts : List Token} (h : fileTokens file s number (lines ++ rest) = .ok ts) :
    ∃ ts₁ s' ts₂, readLines s number lines = .ok (ts₁, s') ∧
      fileTokens file s' (number + lines.length) rest = .ok ts₂ ∧ ts = ts₁ ++ ts₂ := by
  induction lines generalizing s number ts with
  | nil => exact ⟨[], s, ts, rfl, h, rfl⟩
  | cons text lines ih =>
    rw [List.cons_append, fileTokens] at h
    split at h
    · cases h
    · rename_i found next hline
      obtain ⟨more, hmore, h⟩ := Result.bind_eq_ok.mp h
      cases h
      obtain ⟨ts₁, s', ts₂, hread, hrest, rfl⟩ := ih hmore
      refine ⟨found ++ ts₁, s', ts₂, ?_, ?_, (List.append_assoc ..).symm⟩
      · rw [readLines, hline]
        simp [hread]
      · rwa [List.length_cons, Nat.add_comm lines.length, ← Nat.add_assoc]

/-- What a change keeps of the tokens of some lines, it keeps of the tokens of the file, if the
lines below only move. -/
theorem fileTokens_splice {file : String} {higher lines lines' rest : List (List Char)}
    {ts : List Token} {above : Nat → Nat} {touched : Nat → Prop}
    (h : fileTokens file {} 1 (higher ++ lines ++ rest) = .ok ts)
    (hhigher : ∀ n ≤ higher.length, above n = 0)
    (hrest : rest ≠ [] → ∃ down, lines'.length = lines.length + down ∧
      ∀ n, higher.length + lines.length < n → above n = down)
    (hlines : ∀ s s' found, readLines s (1 + higher.length) lines = .ok (found, s') →
      (∀ t ∈ found, t ∈ ts) →
      (∀ t ∈ ts, 1 + higher.length ≤ t.line → t.line < 1 + higher.length + lines.length →
        t.kind.isContent = true → t ∈ found) →
      ∃ found', readLines s (1 + higher.length) lines' = .ok (found', s') ∧
        List.Forall₂ (Kept above touched) found found') :
    ∃ ts', fileTokens file {} 1 (higher ++ lines' ++ rest) = .ok ts' ∧
      List.Forall₂ (Kept above touched) ts ts' := by
  rw [List.append_assoc] at h
  obtain ⟨first, s, more, hfirst, hmore, rfl⟩ := fileTokens_split h
  obtain ⟨found, s', last, hfound, hlast, rfl⟩ := fileTokens_split hmore
  have hfirstLine := readLines_line hfirst
  have hlastLine := fileTokens_line hlast
  obtain ⟨found', hfound', hkept⟩ := hlines s s' found hfound (by simp +contextual) (by
    intro t ht hge hlt _
    rcases List.mem_append.mp ht with ht | ht
    · have := hfirstLine t ht
      omega
    · rcases List.mem_append.mp ht with ht | ht
      · exact ht
      · have := hlastLine t ht
        omega)
  have hfirstKept : List.Forall₂ (Kept above touched) first first :=
    kept_self fun t ht _ => hhigher _ (by
      have := hfirstLine t ht
      omega)
  obtain ⟨last', hlast', hlastKept⟩ : ∃ last',
      fileTokens file s' (1 + higher.length + lines'.length) rest = .ok last' ∧
        List.Forall₂ (Kept above touched) last last' := by
    by_cases hnil : rest = []
    · subst hnil
      cases hlast
      exact ⟨_, rfl, endTokens_kept above touched s' _ _⟩
    · obtain ⟨down, hdown, habove⟩ := hrest hnil
      rw [hdown, ← Nat.add_assoc]
      refine ⟨_, fileTokens_moved hlast down, kept_moved fun t ht _ => habove _ ?_⟩
      have := hlastLine t ht
      omega
  refine ⟨first ++ (found' ++ last'), ?_,
    List.rel_append hfirstKept (List.rel_append hkept hlastKept)⟩
  rw [List.append_assoc, fileTokens_append file hfirst, fileTokens_append file hfound', hlast']
  rfl

end Layout
end SceneScript.Script
