import SceneScript.Proofs.Script.Brackets

/-! # Layout tokens bracket the blocks

The lexer keeps the open blocks and the character that indents; both depend on the rows above
alone. So a file is read exactly if its indentation is sound and each row has its tokens, and the
first row that does not fit is blamed.
-/
namespace SceneScript.Script.Layout

/-- The character that indents, once a row is indented. -/
def style (rows : List Row) : Option Char := (rows.flatMap Row.blanks).head?

theorem style_snoc (rows : List Row) (r : Row) :
    style (rows ++ [r]) = (style rows <|> r.blanks.head?) := by
  simp [style, List.head?_append]

theorem uniform_iff {rows : List Row} :
    Uniform rows ↔ ∀ c, style rows = some c → ∀ r ∈ rows, ∀ b ∈ r.blanks, b = c := by
  constructor
  · rintro ⟨c, hc⟩ first hs r hr b hb
    obtain ⟨x, hx, hfirst⟩ := List.mem_flatMap.mp (List.mem_of_head? hs)
    rw [hc r hr b hb, hc x hx first hfirst]
  · intro h
    cases hs : style rows with
    | some c => exact ⟨c, h c hs⟩
    | none =>
      refine ⟨' ', fun r hr b hb => ?_⟩
      have hm : b ∈ rows.flatMap Row.blanks := List.mem_flatMap.mpr ⟨r, hr, hb⟩
      rw [List.head?_eq_none_iff.mp hs] at hm
      cases hm

/-- The state of the lexer below some rows. -/
def stateBelow (above : List Row) : State := ⟨opens above, style above.reverse⟩

theorem width_stateBelow {above : List Row} (h : Laid above.reverse) :
    (stateBelow above).width = lastWidth above :=
  headD_opens h

/-- A row mixes its indentation exactly if it has a character that is not the one that indents. -/
theorem mixed_iff {above : List Row} {r : Row} (h : Uniform above.reverse) :
    ((style (above.reverse ++ [r])).bind fun c => mixedAt? c r.blanks) = none ↔
      Uniform (above.reverse ++ [r]) := by
  rw [uniform_iff]
  cases hs : style (above.reverse ++ [r]) with
  | none => simp
  | some c =>
    have hmixed : mixedAt? c r.blanks = none ↔ ∀ b ∈ r.blanks, b = c := by
      simp [mixedAt?]
    rw [Option.bind_some, hmixed]
    constructor
    · intro hb first hfirst x hx
      cases hfirst
      rcases List.mem_append.mp hx with hx | hx
      · have habove := uniform_iff.mp h
        rw [style_snoc] at hs
        cases ha : style above.reverse with
        | some d =>
          rw [ha] at hs
          cases hs
          exact habove c ha x hx
        | none =>
          intro b hbx
          have hm : b ∈ above.reverse.flatMap Row.blanks := List.mem_flatMap.mpr ⟨x, hx, hbx⟩
          rw [List.head?_eq_none_iff.mp ha] at hm
          cases hm
      · rw [List.mem_singleton.mp hx]
        exact hb
    · intro hall b hb
      exact hall c rfl r (by simp) b hb

theorem close_eq (width line : Nat) {blocks : List Nat} (h : blocks.Pairwise (· > ·)) :
    close width line blocks = (List.replicate (blocks.countP (width < ·)) (mark .dedent line),
      blocks.filter (· ≤ width)) := by
  induction blocks with
  | nil => rfl
  | cons w outer ih =>
    obtain ⟨hw, h⟩ := List.pairwise_cons.mp h
    unfold close
    split
    · rename_i hlt
      rw [ih h, List.countP_cons_of_pos (by simpa using hlt),
        List.filter_cons_of_neg (by simpa using hlt), List.replicate_succ]
    · rename_i hlt
      have hle : ∀ v ∈ w :: outer, v ≤ width := by
        intro v hv
        rcases List.mem_cons.mp hv with rfl | hv
        · omega
        · have := hw v hv
          omega
      have hnone : (w :: outer).countP (width < ·) = 0 :=
        List.countP_eq_zero.mpr fun v hv => by simpa using hle v hv
      have hall : (w :: outer).filter (· ≤ width) = w :: outer :=
        List.filter_eq_self.mpr fun v hv => by simpa using hle v hv
      rw [hnone, hall, List.replicate_zero]

/-- Why a row cannot stand below some others. -/
def Row.Blamed (above : List Row) (r : Row) (fault : LoadFault) : Prop :=
  (¬Uniform (above.reverse ++ [r]) ∧ fault = .mixedIndent) ∨
    (Uniform (above.reverse ++ [r]) ∧ ¬r.Joins above ∧ fault = .inconsistentIndent)

/-- The layout tokens of a row, or the fault of its indentation. -/
theorem indent_stateBelow {above : List Row} (r : Row) (h : Laid above.reverse) :
    (Laid (above.reverse ++ [r]) ∧
      indent (stateBelow above) r.number r.blanks = .ok (r.marks above, stateBelow (r :: above))) ∨
    ∃ column fault, r.Blamed above fault ∧
      indent (stateBelow above) r.number r.blanks = .error (column, fault) := by
  have hstyle : ((stateBelow above).style <|> r.blanks.head?) = style (r :: above).reverse := by
    rw [List.reverse_cons]
    exact (style_snoc _ r).symm
  simp only [indent, hstyle, width_stateBelow h]
  cases hm : (style (r :: above).reverse).bind fun c => mixedAt? c r.blanks with
  | some i =>
    refine Or.inr ⟨i + 1, .mixedIndent, Or.inl ⟨?_, rfl⟩, rfl⟩
    rw [← mixed_iff h.uniform, ← List.reverse_cons, hm]
    simp
  | none =>
    rw [List.reverse_cons] at hm
    have hu := (mixed_iff h.uniform).mp hm
    have hblocks : (stateBelow above).blocks = opens above := rfl
    have hwidth : r.blanks.length = r.width := rfl
    simp only [hblocks, hwidth, close_eq r.width r.number (opens_decreasing above),
      headD_filter_eq_iff (opens_decreasing above) opens_pos]
    by_cases hwider : lastWidth above < r.width
    · have hj : r.Joins above := fun hlt => absurd hlt (by omega)
      refine Or.inl ⟨(laid_snoc h).mpr ⟨hu, hj⟩, ?_⟩
      simp only [hwider, if_true, Row.marks, stateBelow, opens]
    · by_cases hj : r.width = 0 ∨ r.width ∈ opens above
      · refine Or.inl ⟨(laid_snoc h).mpr ⟨hu, fun _ => hj⟩, ?_⟩
        simp only [hwider, hj, if_true, if_false, Row.marks, stateBelow, opens]
      · refine Or.inr ⟨r.width + 1, .inconsistentIndent, Or.inr ⟨hu, ?_, rfl⟩, ?_⟩
        · intro hjoins
          exact hj (hjoins.open_of_le (headD_opens h) (by omega))
        · simp only [hwider, hj, if_false]

/-! ### Whole files -/

/-- What reading the rows below some others comes to. -/
inductive Scans (file : String) (last : Nat) :
    (above below : List Row) → Except LoadError (List Token) → Prop
  | done {above : List Row} : Scans file last above [] (.ok (closing above last))
  | blamed {above below : List Row} {r : Row} {column : Nat} {fault : LoadFault} :
    r.Blamed above fault →
    Scans file last above (r :: below) (.error ⟨file, r.number, column, fault⟩)
  | failed {above below : List Row} {r : Row} {column : Nat} {fault : LoadFault} :
    Laid (above.reverse ++ [r]) → r.tokens = .error (column, fault) →
    Scans file last above (r :: below) (.error ⟨file, r.number, column, fault⟩)
  | row {above below : List Row} {r : Row} {content : List Token}
      {result : Except LoadError (List Token)} :
    Laid (above.reverse ++ [r]) → r.tokens = .ok content →
    Scans file last (r :: above) below result →
    Scans file last above (r :: below)
      (result.map fun more => r.marks above ++ content ++ [r.feed] ++ more)

theorem lineTokens_skip (s : State) {number : Nat} {text : List Char}
    (h : Row.of? number text = none) : lineTokens s number text = .ok ([], s) := by
  simp only [lineTokens, Row.of?_eq_none_iff.mp h]
  rfl

theorem lineTokens_row (s : State) (r : Row) :
    lineTokens s r.number r.text = (do
      let (marks, s) ← indent s r.number r.blanks
      let content ← r.tokens
      return (marks ++ content ++ [r.feed], s)) := by
  simp only [lineTokens, r.takeWhile_text, r.dropWhile_text, r.hasContent_content, if_true]
  rfl

theorem endTokens_stateBelow (above : List Row) (last : Nat) :
    endTokens (stateBelow above) last = closing above last := by
  simp [endTokens, stateBelow, closing, List.map_const']

section
variable {file : String} {s s' : State} {number : Nat} {text : List Char}

theorem fileTokens_ok {ts : List Token} (rest : List (List Char))
    (h : lineTokens s number text = .ok (ts, s')) :
    fileTokens file s number (text :: rest) =
      (fileTokens file s' (number + 1) rest).map (ts ++ ·) := by
  rw [fileTokens, h]
  dsimp only
  cases fileTokens file s' (number + 1) rest <;> rfl

theorem fileTokens_error {column : Nat} {fault : LoadFault} (rest : List (List Char))
    (h : lineTokens s number text = .error (column, fault)) :
    fileTokens file s number (text :: rest) = .error ⟨file, number, column, fault⟩ := by
  rw [fileTokens, h]

end

/-- The tokens of some lines, and the state below them. -/
def readLines (s : State) (number : Nat) :
    List (List Char) → Except Line.Fault (List Token × State)
  | [] => .ok ([], s)
  | text :: rest => do
    let (ts, s) ← lineTokens s number text
    let (more, s) ← readLines s (number + 1) rest
    return (ts ++ more, s)

theorem fileTokens_append (file : String) {s s' : State} {number : Nat}
    {lines : List (List Char)} {ts : List Token} (h : readLines s number lines = .ok (ts, s'))
    (rest : List (List Char)) :
    fileTokens file s number (lines ++ rest) =
      (fileTokens file s' (number + lines.length) rest).map (ts ++ ·) := by
  induction lines generalizing s number ts with
  | nil =>
    cases h
    cases hf : fileTokens file s' number rest <;> simp [hf, Except.map]
  | cons text lines ih =>
    obtain ⟨⟨first, next⟩, hfirst, h⟩ := Result.bind_eq_ok.mp h
    obtain ⟨⟨more, last⟩, hmore, h⟩ := Result.bind_eq_ok.mp h
    cases h
    rw [List.cons_append, fileTokens_ok _ hfirst, ih hmore, List.length_cons]
    have hnumber : number + 1 + lines.length = number + (lines.length + 1) := by omega
    rw [hnumber]
    cases fileTokens file s' (number + (lines.length + 1)) rest <;> simp [Except.map]

theorem fileTokens_scans (file : String) {above : List Row} (number : Nat)
    (lines : List (List Char)) (h : Laid above.reverse) :
    Scans file (number + lines.length) above (rowsFrom number lines)
      (fileTokens file (stateBelow above) number lines) := by
  induction lines generalizing number above with
  | nil =>
    rw [fileTokens, endTokens_stateBelow]
    exact .done
  | cons text rest ih =>
    have hlast : number + (text :: rest).length = number + 1 + rest.length := by
      rw [List.length_cons]
      omega
    rw [hlast]
    cases hr : Row.of? number text with
    | none =>
      rw [rowsFrom_skip hr, fileTokens_ok rest (lineTokens_skip _ hr)]
      have hrest := ih (number + 1) h
      cases hf : fileTokens file (stateBelow above) (number + 1) rest with
      | error e => rwa [hf] at hrest
      | ok more => rwa [hf] at hrest
    | some r =>
      obtain ⟨rfl, rfl⟩ := Row.of?_eq_some_iff.mp hr
      have hline := lineTokens_row (stateBelow above) r
      rw [rowsFrom_row]
      rcases indent_stateBelow r h with ⟨hl, hi⟩ | ⟨column, fault, hb, hi⟩
      · rw [hi] at hline
        cases ht : r.tokens with
        | error e =>
          rw [ht] at hline
          rw [fileTokens_error rest hline]
          exact .failed hl ht
        | ok content =>
          have hbelow : Laid (r :: above).reverse := by rwa [List.reverse_cons]
          rw [ht] at hline
          rw [fileTokens_ok rest hline]
          exact .row hl ht (ih (r.number + 1) hbelow)
      · rw [hi] at hline
        rw [fileTokens_error rest hline]
        exact .blamed hb

theorem tokenize_scans (file source : String) :
    Scans file ((Text.lines source).length + 1) [] (rows source) (tokenize file source) := by
  rw [Nat.add_comm]
  exact fileTokens_scans file 1 (Text.lines source) laid_nil

/-! ### What a scan tells -/

theorem Row.Blamed.not_laid {above : List Row} {r : Row} {fault : LoadFault}
    (h : r.Blamed above fault) : ¬Laid (above.reverse ++ [r]) := by
  intro hl
  rcases h with ⟨hu, -⟩ | ⟨-, hj, -⟩
  · exact hu hl.uniform
  · exact hj (hl.joins above r [] rfl)

theorem Row.tokens_content {r : Row} {ts : List Token} (h : r.tokens = .ok ts) :
    ts ≠ [] ∧ ∀ t ∈ ts, t.kind.isContent = true := by
  refine ⟨?_, fun t ht => (Line.tokensFrom_fits h t ht).2⟩
  unfold tokens Line.tokens content at h
  rw [List.length_cons, Line.tokensFrom, if_neg (by simp [r.first_not_blank]),
    if_neg r.first_not_comment] at h
  split at h
  · cases h
  · obtain ⟨more, -, h⟩ := Result.bind_eq_ok.mp h
    cases h
    exact List.cons_ne_nil _ _

theorem Row.tokens_fault (r : Row) {column : Nat} {fault : LoadFault}
    (h : r.tokens = .error (column, fault)) :
    fault ≠ .mixedIndent ∧ fault ≠ .inconsistentIndent := by
  rcases Line.tokensFrom_fault h with rfl | ⟨text, rfl⟩ | ⟨c, rfl⟩ <;> simp

/-- A file is read exactly if its indentation is sound and every row has its tokens. -/
theorem Scans.isOk_iff {file : String} {last : Nat} {above below : List Row}
    {result : Except LoadError (List Token)} (h : Scans file last above below result)
    (ha : Laid above.reverse) :
    (∃ ts, result = .ok ts) ↔
      Laid (above.reverse ++ below) ∧ ∀ r ∈ below, ∃ ts, r.tokens = .ok ts := by
  induction h with
  | done => simpa using ha
  | @blamed above below r column fault hb =>
    constructor
    · rintro ⟨ts, hts⟩
      cases hts
    · rintro ⟨hl, -⟩
      rw [List.append_cons] at hl
      exact absurd hl.left hb.not_laid
  | failed _ ht =>
    constructor
    · rintro ⟨ts, hts⟩
      cases hts
    · rintro ⟨-, hall⟩
      obtain ⟨ts, hts⟩ := hall _ (List.mem_cons_self ..)
      rw [ht] at hts
      cases hts
  | @row above below r content result hl ht _ ih =>
    rw [← List.reverse_cons] at hl
    have hsame : (r :: above).reverse ++ below = above.reverse ++ r :: below := by simp
    have hmap : (∃ ts, result.map (fun more => r.marks above ++ content ++ [r.feed] ++ more) =
        .ok ts) ↔ ∃ ts, result = .ok ts := by
      cases result <;> simp [Except.map]
    rw [hmap, ih hl, hsame, List.forall_mem_cons]
    constructor
    · rintro ⟨hlaid, hall⟩
      exact ⟨hlaid, ⟨content, ht⟩, hall⟩
    · rintro ⟨hlaid, -, hall⟩
      exact ⟨hlaid, hall⟩

theorem Scans.bracketed {file : String} {last : Nat} {above below : List Row}
    {result : Except LoadError (List Token)} (h : Scans file last above below result)
    {ts : List Token} (hr : result = .ok ts) : Bracketed last above below ts := by
  induction h generalizing ts with
  | done =>
    cases hr
    exact .done
  | blamed => cases hr
  | failed => cases hr
  | @row above below r content result _ ht _ ih =>
    obtain ⟨hne, hc⟩ := Row.tokens_content ht
    cases result with
    | error e => cases hr
    | ok more =>
      cases hr
      exact .row ht hne hc (ih rfl)

/-- The first row that makes the indentation unsound is the one that is blamed. -/
theorem Scans.first {file : String} {last : Nat} {above below between rest : List Row} {r : Row}
    {result : Except LoadError (List Token)} (h : Scans file last above below result)
    (hb : below = between ++ r :: rest) (hl : Laid (above.reverse ++ between))
    (ht : ∀ x ∈ between, ∃ ts, x.tokens = .ok ts) (hn : ¬Laid (above.reverse ++ between ++ [r])) :
    ∃ column fault, r.Blamed (between.reverse ++ above) fault ∧
      result = .error ⟨file, r.number, column, fault⟩ := by
  induction h generalizing between with
  | done => simp at hb
  | @blamed above below x column fault hblamed =>
    cases between with
    | nil =>
      cases hb
      exact ⟨column, fault, hblamed, rfl⟩
    | cons y between =>
      cases hb
      rw [List.append_cons] at hl
      exact absurd hl.left hblamed.not_laid
  | @failed above below x column fault hlaid htokens =>
    cases between with
    | nil =>
      cases hb
      rw [List.append_nil] at hn
      exact absurd hlaid hn
    | cons y between =>
      cases hb
      obtain ⟨ts, hts⟩ := ht x (List.mem_cons_self ..)
      rw [htokens] at hts
      cases hts
  | @row above below x content result hlaid htokens _ ih =>
    cases between with
    | nil =>
      cases hb
      rw [List.append_nil] at hn
      exact absurd hlaid hn
    | cons y between =>
      cases hb
      obtain ⟨column, fault, hblamed, hresult⟩ := ih rfl (by simpa using hl)
        (fun z hz => ht z (List.mem_cons_of_mem _ hz)) (by simpa using hn)
      refine ⟨column, fault, by simpa using hblamed, ?_⟩
      rw [hresult]
      rfl

/-- In a file with sound indentation the error is about what some row says. -/
theorem Scans.error {file : String} {last : Nat} {above below : List Row}
    {result : Except LoadError (List Token)} (h : Scans file last above below result)
    (hl : Laid (above.reverse ++ below)) {e : LoadError} (he : result = .error e) :
    ∃ r ∈ below, e.file = file ∧ e.line = r.number ∧ r.tokens = .error (e.column, e.fault) := by
  induction h with
  | done => cases he
  | @blamed above below r column fault hblamed =>
    rw [List.append_cons] at hl
    exact absurd hl.left hblamed.not_laid
  | @failed above below r column fault _ ht =>
    cases he
    exact ⟨r, List.mem_cons_self .., rfl, rfl, ht⟩
  | @row above below r content result _ _ _ ih =>
    cases result with
    | ok ts => cases he
    | error e' =>
      cases he
      obtain ⟨x, hx, hrest⟩ := ih (by simpa using hl) rfl
      exact ⟨x, List.mem_cons_of_mem _ hx, hrest⟩

/-- Layout tokens bracket the blocks exactly. A file is read exactly if its indentation is sound
and each row has its tokens; the first row that makes the indentation unsound is blamed, unless the
tokens of a row above fail. The tokens of a file that is read are those of its rows, each between
its layout tokens and the end of the line; closing tokens never outnumber the opening ones, match
them in the end, and the file ends once, with its last token. -/
theorem tokenize_layout (file source : String) :
    ((∃ ts, tokenize file source = .ok ts) ↔
      Laid (rows source) ∧ ∀ r ∈ rows source, ∃ ts, r.tokens = .ok ts) ∧
    (∀ above r below, rows source = above.reverse ++ r :: below → Laid above.reverse →
      ¬Laid (above.reverse ++ [r]) → (∀ x ∈ above, ∃ ts, x.tokens = .ok ts) →
      ∃ column fault, r.Blamed above fault ∧
        tokenize file source = .error ⟨file, r.number, column, fault⟩) ∧
    (∀ e, tokenize file source = .error e → Laid (rows source) →
      (∃ r ∈ rows source, e.file = file ∧ e.line = r.number ∧
        r.tokens = .error (e.column, e.fault)) ∧
      e.fault ≠ .mixedIndent ∧ e.fault ≠ .inconsistentIndent) ∧
    ∀ ts, tokenize file source = .ok ts →
      Bracketed ((Text.lines source).length + 1) [] (rows source) ts ∧
      (∀ front, front <+: ts → count .dedent front ≤ count .indent front) ∧
      count .dedent ts = count .indent ts ∧
      ∃ front, ts = front ++ [mark .eof ((Text.lines source).length + 1)] ∧
        ∀ t ∈ front, t.kind ≠ .eof := by
  have hscan := tokenize_scans file source
  refine ⟨hscan.isOk_iff laid_nil, ?_, ?_, ?_⟩
  · intro above r below hrows hl hn ht
    have hfirst := hscan.first hrows hl (fun x hx => ht x (List.mem_reverse.mp hx)) hn
    simpa using hfirst
  · intro e he hl
    obtain ⟨r, hr, hfile, hline, htokens⟩ := hscan.error hl he
    exact ⟨⟨r, hr, hfile, hline, htokens⟩, r.tokens_fault htokens⟩
  · intro ts hts
    have hb := hscan.bracketed hts
    exact ⟨hb, fun front hf => hb.nested.count_le hf, hb.nested.count_eq, hb.eof⟩

example : (tokenize "town" "while true\n\tpass").toOption.map (List.map Token.kind) =
    some [.keyword .whileWord, .keyword .trueWord, .newline, .indent, .keyword .pass, .newline,
      .dedent, .eof] := by
  decide +kernel

end SceneScript.Script.Layout
