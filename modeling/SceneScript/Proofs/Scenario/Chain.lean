import Mathlib.Data.List.Basic
import SceneScript.Proofs.Script.Decimal
import SceneScript.Proofs.Script.Grammar.File
import SceneScript.Proofs.Script.Layout
import SceneScript.Proofs.Script.Loaded
import SceneScript.Scenario.Cascade

/-! # The script of the cascade

The script is the same for every depth, up to one number. So its tokens, its syntax tree and its
systems are known for every depth, and it can be loaded for each of them.
-/
namespace SceneScript.Scenario.Cascade
open Script
open Script.Grammar (Terminal)

def scriptFile : String := "cascade.pivotscript"

/-! ### The text -/

def headLines : List String :=
  ["component Counter Integer",
    "system start(e<Tag>):",
    "    emit(\"Step\", 1)",
    "system step(e<Tag>) event Step(Integer depth):"]

def tailLines : List String :=
  ["        emit(\"Step\", depth + 1)",
    "system count(c<Counter>) event Step(Integer depth):",
    "    c.Counter = c.Counter + 1"]

/-- The line with the depth, in front of its colon. -/
def conditionStart : String := "    if depth < "

def sourceLines (depth : String) : List (List Char) :=
  headLines.map String.toList ++ (conditionStart.toList ++ depth.toList ++ [':']) ::
    tailLines.map String.toList

/-- The texts of some lines, each with its end. -/
def feeds (lines : List String) : String := String.join (lines.map fun line => line ++ "\n")

theorem toList_feeds (lines : List String) :
    (feeds lines).toList = (lines.map String.toList).flatMap fun line => line ++ ['\n'] := by
  rw [feeds, String.toList_join, List.flatMap_map, List.flatMap_map]
  simp only [String.toList_append]
  rfl

theorem toList_source (depth : String) :
    (feeds headLines ++ (conditionStart ++ depth ++ ":\n") ++ feeds tailLines).toList =
      (sourceLines depth).flatMap fun line => line ++ ['\n'] := by
  have hcondition : (conditionStart ++ depth ++ ":\n").toList =
      (conditionStart.toList ++ depth.toList ++ [':']) ++ ['\n'] := by
    rw [String.toList_append, String.toList_append, List.append_assoc _ [':']]
    rfl
  rw [String.toList_append, String.toList_append, sourceLines, List.flatMap_append,
    List.flatMap_cons, ← List.append_assoc]
  exact congrArg₂ (· ++ ·) (congrArg₂ (· ++ ·) (toList_feeds headLines) hcondition)
    (toList_feeds tailLines)

theorem source_eq (c : Cascade) : c.source = feeds headLines ++
    (conditionStart ++ toString c.depth.toInt ++ ":\n") ++ feeds tailLines := by
  have hhead : "component Counter Integer\n" ++ "system start(e<Tag>):\n" ++
      "    emit(\"Step\", 1)\n" ++ "system step(e<Tag>) event Step(Integer depth):\n" =
        feeds headLines := by
    decide +kernel
  have htail : "        emit(\"Step\", depth + 1)\n" ++
      "system count(c<Counter>) event Step(Integer depth):\n" ++
      "    c.Counter = c.Counter + 1\n" = feeds tailLines := by
    decide +kernel
  rw [← hhead, ← htail, ← String.append_assoc, ← String.append_assoc, ← String.append_assoc,
    ← String.append_assoc]
  rfl

theorem not_mem_toString {c : Char} (hd : c.isDigit = false) (hm : c ≠ '-') (n : Int) :
    c ∉ (toString n).toList := by
  rw [Number.toList_toString, List.mem_append, not_or]
  constructor
  · split <;> simp [hm]
  · intro h
    exact Number.ne_of_isDigit (Number.isDigit_of_mem_digits h) hd rfl

/-- No line has the end of a line within it. -/
theorem plain_lines (n : Int) :
    ∀ line ∈ sourceLines (toString n), '\n' ∉ line ∧ '\r' ∉ line := by
  have hclosed : ∀ line ∈ headLines.map String.toList ++ tailLines.map String.toList,
      '\n' ∉ line ∧ '\r' ∉ line := by
    decide +kernel
  have hcondition : ∀ c, c.isDigit = false → c ≠ '-' → c ∉ conditionStart.toList → c ≠ ':' →
      c ∉ conditionStart.toList ++ (toString n).toList ++ [':'] := by
    intro c hd hm hstart hcolon h
    rcases List.mem_append.mp h with h | h
    · rcases List.mem_append.mp h with h | h
      · exact hstart h
      · exact not_mem_toString hd hm n h
    · exact hcolon (List.mem_singleton.mp h)
  intro line hline
  rcases List.mem_append.mp hline with h | h
  · exact hclosed line (List.mem_append_left _ h)
  · rcases List.mem_cons.mp h with rfl | h
    · exact ⟨hcondition _ (by decide) (by decide) (by decide) (by decide),
        hcondition _ (by decide) (by decide) (by decide) (by decide)⟩
    · exact hclosed line (List.mem_append_right _ h)

theorem source_lines (c : Cascade) :
    Text.lines c.source = sourceLines (toString c.depth.toInt) := by
  rw [Text.lines, source_eq, toList_source]
  exact Text.linesFrom_feeds (plain_lines c.depth.toInt)

/-! ### The tokens -/

/-- The derivation of the script, where the depth has some text and width. -/
def chain (depth : String) (width : Nat) : Grammar.File where
  declarations := [
    .component (.of "component" 1 1)
      ⟨.of "Counter" 1 11, .value (.of "Integer" 1 19) (.of "" 1 26)⟩,
    .system (.of "system" 2 1) {
      name := .of "start" 2 8
      start := .of "(" 2 13
      parameter := ⟨.of "e" 2 14, .of "<" 2 15, some (.last (.of "Tag" 2 16)), .of ">" 2 19⟩
      named := rfl
      stop := .of ")" 2 20
      event := none
      opening := ⟨some (.of ":" 2 21), .of "" 2 22⟩
      body := .mk (.of "" 3 1) (.next (.call (.given (.of "emit" 3 5) (.of "(" 3 9)
        (.next (.mk (.literal (.string (.of "Step" 3 10))) .done) (.of "," 3 16)
          (.last (.mk (.literal (.integer (.of "1" 3 18))) .done)))
        (.of ")" 3 19)) (.of "" 3 20)) .done) (.of "" 4 1) },
    .system (.of "system" 4 1) {
      name := .of "step" 4 8
      start := .of "(" 4 12
      parameter := ⟨.of "e" 4 13, .of "<" 4 14, some (.last (.of "Tag" 4 15)), .of ">" 4 18⟩
      named := rfl
      stop := .of ")" 4 19
      event := some ⟨.of "event" 4 21, .of "Step" 4 27, .given (.of "(" 4 31)
        (.last (.payload (.of "Integer" 4 32) (.of "depth" 4 40))) (by decide) (.of ")" 4 45)⟩
      opening := ⟨some (.of ":" 4 46), .of "" 4 47⟩
      body := .mk (.of "" 5 1) (.next (.conditional (.of "if" 5 5)
        (.plain (.mk (.path ⟨.of "depth" 5 8, []⟩)
            (.next .lt (.of "<" 5 14) (.literal (.integer (.of depth 5 16))) .done))
          ⟨some (.of ":" 5 (16 + width)), .of "" 5 (17 + width)⟩
          (.mk (.of "" 6 1) (.next (.call (.given (.of "emit" 6 9) (.of "(" 6 13)
            (.next (.mk (.literal (.string (.of "Step" 6 14))) .done) (.of "," 6 20)
              (.last (.mk (.path ⟨.of "depth" 6 22, []⟩)
                (.next .add (.of "+" 6 28) (.literal (.integer (.of "1" 6 30))) .done))))
            (.of ")" 6 31)) (.of "" 6 32)) .done) (.of "" 7 1)))) .done) (.of "" 7 1) },
    .system (.of "system" 7 1) {
      name := .of "count" 7 8
      start := .of "(" 7 13
      parameter := ⟨.of "c" 7 14, .of "<" 7 15, some (.last (.of "Counter" 7 16)), .of ">" 7 23⟩
      named := rfl
      stop := .of ")" 7 24
      event := some ⟨.of "event" 7 26, .of "Step" 7 32, .given (.of "(" 7 36)
        (.last (.payload (.of "Integer" 7 37) (.of "depth" 7 45))) (by decide) (.of ")" 7 50)⟩
      opening := ⟨some (.of ":" 7 51), .of "" 7 52⟩
      body := .mk (.of "" 8 1) (.next (.assignment
        ⟨.of "c" 8 5, [(.of "." 8 6, .of "Counter" 8 7)]⟩ (.of "=" 8 15)
        (.mk (.path ⟨.of "c" 8 17, [(.of "." 8 18, .of "Counter" 8 19)]⟩)
          (.next .add (.of "+" 8 27) (.literal (.integer (.of "1" 8 29))) .done))
        (.of "" 8 30)) .done) (.of "" 9 1) }]
  stop := some (.of "" 9 1)

/-- The tokens that stand in some of the lines, whatever the depth. -/
def tokensIn (lines : Nat → Bool) : List Token :=
  (chain "" 0).tokens.filter fun t => lines t.line

def headTokens : List Token := tokensIn (· < 5)

def tailTokens : List Token := tokensIn fun line => decide (5 < line ∧ line < 9)

theorem head_read : Layout.readLines {} 1 (headLines.map String.toList) =
    .ok (headTokens, ⟨[], some ' '⟩) := by
  decide +kernel

theorem tail_read : Layout.readLines ⟨[4], some ' '⟩ 6 (tailLines.map String.toList) =
    .ok (tailTokens, ⟨[4], some ' '⟩) := by
  decide +kernel

/-- The tokens of the line with the depth. -/
def conditionTokens (depth : String) : List Token :=
  [Layout.mark .indent 5, ⟨.keyword .ifWord, "if", 5, 5⟩, ⟨.identifier, "depth", 5, 8⟩,
    ⟨.operator .lt, "<", 5, 14⟩, ⟨.integer, depth, 5, 16⟩, ⟨.colon, ":", 5, 16 + depth.length⟩,
    ⟨.newline, "", 5, 17 + depth.length⟩]

theorem chain_tokens (depth : String) : (chain depth depth.length).tokens =
    headTokens ++ (conditionTokens depth ++ (tailTokens ++
      [Layout.mark .dedent 9, Layout.mark .eof 9])) := by
  rfl

/-- The line with the depth, as a line that counts. -/
def conditionRow (depth : String) : Layout.Row where
  number := 5
  blanks := [' ', ' ', ' ', ' ']
  first := 'i'
  rest := "f depth < ".toList ++ (depth.toList ++ [':'])
  isBlank_of_mem := by simp [Line.isBlank]
  first_not_blank := rfl
  first_not_comment := by decide

theorem conditionRow_tokens (n : Int64) : (conditionRow (toString n.toInt)).tokens =
    .ok [⟨.keyword .ifWord, "if", 5, 5⟩, ⟨.identifier, "depth", 5, 8⟩,
      ⟨.operator .lt, "<", 5, 14⟩, ⟨.integer, toString n.toInt, 5, 16⟩,
      ⟨.colon, ":", 5, 16 + (toString n.toInt).length⟩] := by
  let rest : List Char := (toString n.toInt).toList ++ [':']
  have hlength : (conditionRow (toString n.toInt)).content.length =
      (toString n.toInt).toList.length + 12 := by
    simp [conditionRow, Layout.Row.content]
  have hif : Line.lexeme true 'i' ("f depth < ".toList ++ rest) =
      .ok ⟨.keyword .ifWord, "if", 2, " depth < ".toList ++ rest⟩ := rfl
  have hname : Line.lexeme true 'd' ("epth < ".toList ++ rest) =
      .ok ⟨.identifier, "depth", 5, " < ".toList ++ rest⟩ := rfl
  have hless : Line.lexeme false '<' (' ' :: rest) = .ok ⟨.operator .lt, "<", 1, ' ' :: rest⟩ := rfl
  have hblank : Line.isBlank ' ' = true := rfl
  rw [Layout.Row.tokens, Line.tokens, hlength]
  refine Line.tokensFrom_lexeme rfl (by decide) hif ?_
  refine Line.tokensFrom_blank hblank ?_
  refine Line.tokensFrom_lexeme rfl (by decide) hname ?_
  refine Line.tokensFrom_blank hblank ?_
  refine Line.tokensFrom_lexeme rfl (by decide) hless ?_
  refine Line.tokensFrom_blank hblank ?_
  exact Line.tokensFrom_integer n (by decide) (by decide) rfl

theorem condition_read (n : Int64) :
    Layout.lineTokens ⟨[], some ' '⟩ 5
      (conditionStart.toList ++ (toString n.toInt).toList ++ [':']) =
        .ok (conditionTokens (toString n.toInt), ⟨[4], some ' '⟩) := by
  have htext : conditionStart.toList ++ (toString n.toInt).toList ++ [':'] =
      (conditionRow (toString n.toInt)).text := by
    rw [List.append_assoc]
    rfl
  have hindent : Layout.indent ⟨[], some ' '⟩ 5 (conditionRow (toString n.toInt)).blanks =
      .ok ([Layout.mark .indent 5], ⟨[4], some ' '⟩) := rfl
  have hfeed : (conditionRow (toString n.toInt)).feed =
      ⟨.newline, "", 5, 17 + (toString n.toInt).length⟩ := by
    have hlength : (conditionRow (toString n.toInt)).text.length =
        16 + (toString n.toInt).length := by
      simp [conditionRow, Layout.Row.text, Layout.Row.content, String.length_toList]
      omega
    rw [Layout.Row.feed, hlength, Nat.add_right_comm]
    rfl
  have hline := Layout.lineTokens_row ⟨[], some ' '⟩ (conditionRow (toString n.toInt))
  rw [conditionRow_tokens, hfeed] at hline
  rw [htext]
  exact hline

theorem source_tokens (c : Cascade) :
    tokenize scriptFile c.source =
      .ok (chain (toString c.depth.toInt) (toString c.depth.toInt).length).tokens := by
  have hend : Layout.fileTokens scriptFile ⟨[4], some ' '⟩ 9 [] =
      .ok [Layout.mark .dedent 9, Layout.mark .eof 9] := rfl
  have htail : Layout.fileTokens scriptFile ⟨[4], some ' '⟩ 6 (tailLines.map String.toList) =
      .ok (tailTokens ++ [Layout.mark .dedent 9, Layout.mark .eof 9]) := by
    have happend := Layout.fileTokens_append scriptFile tail_read []
    rw [List.append_nil] at happend
    exact happend.trans (congrArg (Except.map _) hend)
  rw [tokenize, source_lines, sourceLines, Layout.fileTokens_append _ head_read, chain_tokens]
  have hcondition := (Layout.fileTokens_ok _ (condition_read c.depth)).trans
    (congrArg (Except.map _) htail)
  exact congrArg (Except.map _) hcondition

theorem source_parsed (c : Cascade) : Node.ofSource scriptFile c.source =
    .ok ((chain (toString c.depth.toInt) (toString c.depth.toInt).length).node scriptFile) := by
  rw [Node.ofSource, source_tokens, Result.ok_bind]
  exact Node.ofTokens_complete ..

/-! ### The systems -/

def literal (line column : Nat) (text : String) : Node := .mk .integer text line column []

/-- A path of one name. -/
def nameNode (line column : Nat) (name : String) : Node :=
  .mk .path name line column [.mk .identifier name line column []]

def counterNode (column : Nat) : Node :=
  .mk .path "c.Counter" 8 column
    [.mk .identifier "c" 8 column [], .mk .identifier "Counter" 8 (column + 2) []]

/-- A call that emits a step. -/
def emitNode (line column : Nat) (depth : Node) : Node :=
  .mk .call "emit" line column
    [.mk .expression "" line (column + 5) [.mk .string "Step" line (column + 5) []], depth]

def firstNode : Node := .mk .expression "" 3 18 [literal 3 18 "1"]

/-- The condition on the depth, with the text of its bound. -/
def conditionNode (depth : String) : Node :=
  .mk .expression "" 5 8
    [nameNode 5 8 "depth", literal 5 16 depth, .mk .operator "<" 5 14 []]

def nextNode : Node :=
  .mk .expression "" 6 22 [nameNode 6 22 "depth", literal 6 30 "1", .mk .operator "+" 6 28 []]

def sumNode : Node :=
  .mk .expression "" 8 17 [counterNode 17, literal 8 29 "1", .mk .operator "+" 8 27 []]

def startBody : Node := .mk .block "" 3 1 [emitNode 3 5 firstNode]

def stepBody (depth : String) : Node :=
  .mk .block "" 5 1 [.mk .conditional "if" 5 5
    [conditionNode depth, .mk .block "" 6 1 [emitNode 6 9 nextNode]]]

def countBody : Node := .mk .block "" 8 1 [.mk .assignment "=" 8 5 [counterNode 5, sumNode]]

/-- The event of a step, which carries its number. -/
def stepped : EventDescription := ⟨"Step", [], some ⟨"depth", .integer⟩⟩

def start : System := systemOf {} startBody ⟨"start", "e", ["Tag"], .tick⟩

def step (depth : String) : System := systemOf {} (stepBody depth) ⟨"step", "e", ["Tag"], stepped⟩

def count : System := systemOf {} countBody ⟨"count", "c", ["Counter"], stepped⟩

def counter : ComponentDescription :=
  { ComponentDescription.ofShape "Counter" .integer with provenance := .file scriptFile }

def scriptIndex (depth : String) : Index :=
  ⟨[.tag, .transform, counter], [.tick, stepped], [start, step depth, count]⟩

def payloadNode (line column : Nat) : Node :=
  .mk .eventDeclaration "Step" line column
    [.mk .payload "depth" line (column + 13) [.mk .type "Integer" line (column + 5) []]]

def componentNode : Node :=
  .mk .componentDeclaration "Counter" 1 1 [.mk .type "Integer" 1 19 []]

def startNode : Node :=
  .mk .systemDeclaration "start" 2 1
    [.mk .entityParameter "e" 2 14 [.mk .identifier "Tag" 2 16 []], startBody]

def stepNode (depth : String) : Node :=
  .mk .systemDeclaration "step" 4 1
    [.mk .entityParameter "e" 4 13 [.mk .identifier "Tag" 4 15 []], payloadNode 4 27,
      stepBody depth]

def countNode : Node :=
  .mk .systemDeclaration "count" 7 1
    [.mk .entityParameter "c" 7 14 [.mk .identifier "Counter" 7 16 []], payloadNode 7 32,
      countBody]

theorem node_chain (depth : String) (width : Nat) : (chain depth width).node scriptFile =
    .mk .file scriptFile 1 1 [componentNode, startNode, stepNode depth, countNode] := by
  rfl

/-- The file declares the component and the three systems, whatever the depth. -/
theorem source_declared (depth : String) (width : Nat) : ∃ records,
    declare {} ((chain depth width).node scriptFile) .initial =
      ⟨.ok [start, step depth, count], scriptIndex depth, records⟩ := by
  let counted : Index := ⟨[.tag, .transform, counter], [.tick], []⟩
  let started : Index := { counted with systems := [start] }
  let chained : Index := ⟨[.tag, .transform, counter], [.tick, stepped], [start, step depth]⟩
  obtain ⟨_, hcomponent⟩ : ∃ log, Declaring.component scriptFile componentNode .initial =
      ⟨.ok (), counted, log⟩ := ⟨_, rfl⟩
  obtain ⟨_, hstart⟩ : ∃ log, Declaring.system {} scriptFile startNode counted =
      ⟨.ok start, started, log⟩ := ⟨_, rfl⟩
  obtain ⟨_, hstep⟩ : ∃ log, Declaring.system {} scriptFile (stepNode depth) started =
      ⟨.ok (step depth), chained, log⟩ := ⟨_, rfl⟩
  obtain ⟨_, hcount⟩ : ∃ log, Declaring.system {} scriptFile countNode chained =
      ⟨.ok count, scriptIndex depth, log⟩ := ⟨_, rfl⟩
  have hdone : Declaring.all {} scriptFile [] (scriptIndex depth) =
      ⟨.ok [], scriptIndex depth, []⟩ := rfl
  rw [node_chain]
  exact ⟨_, Declaring.all_component rfl hcomponent (Declaring.all_system rfl hstart
    (Declaring.all_system rfl hstep (Declaring.all_system rfl hcount hdone)))⟩

/-- The script can be loaded for every depth. -/
theorem source_loaded (c : Cascade) : ∃ records,
    (loadSource {} scriptFile c.source).run .initial =
      ⟨.ok [start, step (toString c.depth.toInt), count], scriptIndex (toString c.depth.toInt),
        records⟩ := by
  obtain ⟨_, hdeclare⟩ :=
    source_declared (toString c.depth.toInt) (toString c.depth.toInt).length
  obtain ⟨records, hload⟩ := loadSource_declare (source_parsed c) (by rw [hdeclare])
  rw [hdeclare] at hload
  exact ⟨records, hload⟩

end SceneScript.Scenario.Cascade
