import BslInsight.Indent
import BslInsight.Proofs.LineIndents

/-!
# Indented texts

A line gets its depth from the tokens of the lines above and from its own, and
tokens do not depend on indents.  So the depth of a line is the same after the
lines are indented, and there is nothing left to edit.
-/

namespace BslInsight

open List

variable {line : List Char} {nesting : Nesting} {range : Option (Nat × Nat)} {number depth : Nat}
  {style : IndentStyle} {edits : List IndentEdit} {edit : IndentEdit} {lines : List (List Char)}

/-! ## Depths do not depend on indents -/

lemma LineShape.addTokens_unplaced
    (shape : LineShape) (first afterDot : Bool) (tokens : List Token) :
    shape.addTokens first afterDot (tokens.map Token.unplaced) =
      shape.addTokens first afterDot tokens := by
  induction tokens generalizing shape first afterDot with
  | nil => rfl
  | cons token rest ih =>
    rw [map_cons, LineShape.addTokens, LineShape.addTokens, ih]
    rfl

lemma LineShape.ofTokens_unplaced (tokens : List Token) :
    LineShape.ofTokens (tokens.map Token.unplaced) = LineShape.ofTokens tokens := by
  unfold LineShape.ofTokens
  rw [takeWhile_map]
  exact LineShape.addTokens_unplaced _ _ _ _

lemma Nesting.step_congr {other : List Char} (hline : '\n' ∉ line) (hoth : '\n' ∉ other)
    (hbody : trimStart line = trimStart other) (nesting : Nesting) :
    nesting.step line = nesting.step other := by
  have hlexed : unplacedLine nesting.inString line = unplacedLine nesting.inString other := by
    rw [unplacedLine_trimStart hline, unplacedLine_trimStart hoth, hbody]
  obtain ⟨htoks, hstr⟩ := Prod.mk.inj hlexed
  have hshape : LineShape.ofTokens (lexLine nesting.inString line).1 =
      LineShape.ofTokens (lexLine nesting.inString other).1 := by
    rw [← LineShape.ofTokens_unplaced, htoks, LineShape.ofTokens_unplaced]
  simp only [Nesting.step, hbody, hshape, hstr]

def Nesting.ownDepth? (nesting : Nesting) (range : Option (Nat × Nat)) (number : Nat)
    (line : List Char) : Option Nat :=
  if inLineRange range number then (nesting.step line).1 else none

lemma Nesting.body_ne_nil_of_ownDepth? (hdepth : nesting.ownDepth? range number line = some depth)
    : trimStart line ≠ [] := by
  intro hbody
  simp [Nesting.ownDepth?, Nesting.step, hbody] at hdepth

/-! ## Indents -/

lemma IndentStyle.isBlank_of_mem_indent {c : Char} (hc : c ∈ style.indent depth) : isBlank c := by
  unfold IndentStyle.indent at hc
  split at hc
  · rw [eq_of_mem_replicate hc]; decide
  · rw [eq_of_mem_replicate hc]; decide

lemma IndentStyle.break_not_mem_indent (style : IndentStyle) (depth : Nat) :
    '\n' ∉ style.indent depth := by
  unfold IndentStyle.indent
  split
  · simp [mem_replicate]
  · simp [mem_replicate]

lemma takeWhile_isBlank_append {gap body : List Char} (hgap : ∀ c ∈ gap, isBlank c)
    (hbody : body.head?.any isBlank = false) : (gap ++ body).takeWhile isBlank = gap := by
  rw [takeWhile_append_of_pos hgap]
  cases body with
  | nil => simp
  | cons c body => simpa using hbody

/-! ## What the edits do to lines -/

def indentedLine (style : IndentStyle) (line : List Char) (depth : Option Nat) : List Char :=
  match depth with
  | none => line
  | some depth => style.indent depth ++ trimStart line

def indentedLines (style : IndentStyle) (range : Option (Nat × Nat)) (number : Nat)
    (nesting : Nesting) : List (List Char) → List (List Char)
  | [] => []
  | line :: rest =>
    indentedLine style line (nesting.ownDepth? range number (dropReturn line)) ::
      indentedLines style range (number + 1) (nesting.step (dropReturn line)).2 rest

lemma editsFrom_cons
    (style : IndentStyle) (range : Option (Nat × Nat)) (number : Nat) (nesting : Nesting)
    (line : List Char) (rest : List (List Char)) :
    editsFrom style range number nesting (line :: rest) =
      ((nesting.ownDepth? range number line).bind (lineEdit? style number line)).toList ++
        editsFrom style range (number + 1) (nesting.step line).2 rest := by
  cases hrange : inLineRange range number with
  | true => simp only [editsFrom, Nesting.ownDepth?, hrange, if_true]
  | false => simp [editsFrom, Nesting.ownDepth?, hrange]

lemma applyToLines_nil (number : Nat) (lines : List (List Char)) :
    applyToLines number [] lines = lines := by
  cases lines <;> rfl

lemma applyToLines_later (hlater : ∀ edit ∈ edits, number < edit.line) (line : List Char)
    (rest : List (List Char)) :
    applyToLines number edits (line :: rest) = line :: applyToLines (number + 1) edits rest := by
  cases edits with
  | nil => rw [applyToLines, applyToLines_nil]
  | cons edit edits =>
    have hedit := hlater edit mem_cons_self
    rw [applyToLines, if_neg (by omega)]

lemma line_eq_of_lineEdit? (hedit : lineEdit? style number line depth = some edit) :
    edit.line = number := by
  simp only [lineEdit?] at hedit
  split at hedit
  · cases hedit
  · rw [← Option.some.inj hedit]

lemma le_line_of_mem_editsFrom (hedit : edit ∈ editsFrom style range number nesting lines) :
    number ≤ edit.line := by
  induction lines generalizing number nesting with
  | nil => cases hedit
  | cons line rest ih =>
    rw [editsFrom_cons, mem_append, Option.mem_toList] at hedit
    rcases hedit with hhere | hlater
    · obtain ⟨depth, -, hline⟩ := Option.bind_eq_some_iff.mp hhere
      exact (line_eq_of_lineEdit? hline).ge
    · have hnext := ih hlater
      omega

lemma applyToLines_lineEdit (hbody : trimStart (dropReturn line) ≠ [])
    (hlater : ∀ edit ∈ edits, number < edit.line) (rest : List (List Char)) :
    applyToLines number ((lineEdit? style number (dropReturn line) depth).toList ++ edits)
        (line :: rest) =
      (style.indent depth ++ trimStart line) :: applyToLines (number + 1) edits rest := by
  obtain ⟨hsplit, hgap⟩ := indent_split line
  have htrimmed := trimStart_ne_nil_of_dropReturn hbody
  have hblks : (dropReturn line).takeWhile isBlank = line.takeWhile isBlank := by
    conv => lhs; rw [← hsplit, dropReturn_append _ htrimmed, ← trimStart_dropReturn]
    exact takeWhile_isBlank_append hgap (head_trimStart _)
  simp only [lineEdit?, hblks]
  split
  next hindent =>
    rw [← hindent, hsplit]
    exact applyToLines_later hlater line rest
  next =>
    have hdrop : line.drop (line.takeWhile isBlank).length = trimStart line :=
      drop_length_takeWhile isBlank line
    simp [applyToLines, hdrop]

lemma applyToLines_editsFrom
    (style : IndentStyle) (range : Option (Nat × Nat)) (number : Nat) (nesting : Nesting)
    (lines : List (List Char)) :
    applyToLines number (editsFrom style range number nesting (lines.map dropReturn)) lines =
      indentedLines style range number nesting lines := by
  induction lines generalizing number nesting with
  | nil => rfl
  | cons line rest ih =>
    have hlater : ∀ edit ∈ editsFrom style range (number + 1)
        (nesting.step (dropReturn line)).2 (rest.map dropReturn), number < edit.line :=
      fun edit hedit => le_line_of_mem_editsFrom hedit
    rw [map_cons, editsFrom_cons, indentedLines, ← ih]
    cases hdepth : nesting.ownDepth? range number (dropReturn line) with
    | none => exact applyToLines_later hlater line rest
    | some depth =>
      exact applyToLines_lineEdit (Nesting.body_ne_nil_of_ownDepth? hdepth) hlater rest

/-! ## Lines before and after -/

lemma trimStart_indentedLine (style : IndentStyle) (line : List Char) (depth : Option Nat) :
    trimStart (indentedLine style line depth) = trimStart line := by
  cases depth with
  | none => rfl
  | some depth =>
    rw [indentedLine, trimStart_append_of_blank fun c hc => style.isBlank_of_mem_indent hc,
      trimStart_of_head (head_trimStart line)]

lemma break_not_mem_indentedLine (style : IndentStyle) (hline : '\n' ∉ line) (depth : Option Nat) :
    '\n' ∉ indentedLine style line depth := by
  cases depth with
  | none => exact hline
  | some depth =>
    rw [indentedLine, mem_append, not_or]
    exact ⟨style.break_not_mem_indent depth, break_not_mem_trimStart hline⟩

lemma indentedLines_sameBodies
    (style : IndentStyle) (range : Option (Nat × Nat)) (number : Nat) (nesting : Nesting)
    (lines : List (List Char)) :
    SameBodies lines (indentedLines style range number nesting lines) := by
  induction lines generalizing number nesting with
  | nil => exact .nil
  | cons line rest ih => exact .cons (trimStart_indentedLine style line _).symm (ih _ _)

lemma break_not_mem_indentedLines (hlines : ∀ line ∈ lines, '\n' ∉ line) :
    ∀ line ∈ indentedLines style range number nesting lines, '\n' ∉ line := by
  induction lines generalizing number nesting with
  | nil => exact fun line hline => by cases hline
  | cons line rest ih =>
    obtain ⟨hline, hrest⟩ := forall_mem_cons.mp hlines
    exact forall_mem_cons.mpr ⟨break_not_mem_indentedLine style hline _, ih hrest⟩

def indentedText (style : IndentStyle) (range : Option (Nat × Nat)) (text : List Char) :
    List Char :=
  applyIndentEdits text (indentEdits style range text)

lemma splitOn_indentedText (style : IndentStyle) (range : Option (Nat × Nat)) (text : List Char) :
    splitOn '\n' (indentedText style range text) =
      indentedLines style range 0 {} (splitOn '\n' text) := by
  have hbrks : ∀ line ∈ indentedLines style range 0 {} (splitOn '\n' text), '\n' ∉ line :=
    break_not_mem_indentedLines fun line hline => break_not_mem_of_mem_splitOn hline
  have hlines : indentedLines style range 0 {} (splitOn '\n' text) ≠ [] := by
    intro hnil
    have hbds := indentedLines_sameBodies style range 0 {} (splitOn '\n' text)
    rw [hnil] at hbds
    exact splitOn_ne_nil '\n' text (forall₂_nil_right_iff.mp hbds)
  rw [indentedText, applyIndentEdits, indentEdits, splitLines, applyToLines_editsFrom]
  exact splitOn_joinWith hbrks hlines

/-! ## Lines at their depths -/

/-- Every line of the range that may be moved has the indent of its depth. -/
def AtDepths (style : IndentStyle) (range : Option (Nat × Nat)) (number : Nat)
    (nesting : Nesting) : List (List Char) → Prop
  | [] => True
  | line :: rest =>
    (∀ depth, nesting.ownDepth? range number line = some depth →
      line.takeWhile isBlank = style.indent depth) ∧
      AtDepths style range (number + 1) (nesting.step line).2 rest

lemma editsFrom_eq_nil_iff
    (style : IndentStyle) (range : Option (Nat × Nat)) (number : Nat) (nesting : Nesting)
    (lines : List (List Char)) :
    editsFrom style range number nesting lines = [] ↔
      AtDepths style range number nesting lines := by
  induction lines generalizing number nesting with
  | nil => simp [editsFrom, AtDepths]
  | cons line rest ih =>
    rw [editsFrom_cons, AtDepths, append_eq_nil_iff, ih, Option.toList_eq_nil_iff,
      Option.bind_eq_none_iff]
    simp [lineEdit?]

lemma takeWhile_indentedLine (hbody : trimStart (dropReturn line) ≠ []) (depth : Nat) :
    (dropReturn (indentedLine style line (some depth))).takeWhile isBlank = style.indent depth := by
  have htrimmed := trimStart_ne_nil_of_dropReturn hbody
  rw [indentedLine, dropReturn_append _ htrimmed, ← trimStart_dropReturn]
  exact takeWhile_isBlank_append (fun c hc => style.isBlank_of_mem_indent hc) (head_trimStart _)

lemma indentedLines_atDepths (style : IndentStyle) (range : Option (Nat × Nat))
    (hlines : ∀ line ∈ lines, '\n' ∉ line) :
    AtDepths style range number nesting
      ((indentedLines style range number nesting lines).map dropReturn) := by
  induction lines generalizing number nesting with
  | nil => trivial
  | cons line rest ih =>
    obtain ⟨hline, hrest⟩ := forall_mem_cons.mp hlines
    -- The new line has the body of the old one, so the step over it is the same.
    have hstep (depth : Option Nat) : nesting.step (dropReturn (indentedLine style line depth)) =
          nesting.step (dropReturn line) := by
      apply Nesting.step_congr
      · exact break_not_mem_dropReturn (break_not_mem_indentedLine style hline depth)
      · exact break_not_mem_dropReturn hline
      · rw [trimStart_dropReturn, trimStart_dropReturn, trimStart_indentedLine]
    rw [indentedLines, map_cons, AtDepths, Nesting.ownDepth?, hstep]
    refine ⟨fun depth hdepth => ?_, ih hrest⟩
    have hown : nesting.ownDepth? range number (dropReturn line) = some depth := hdepth
    rw [hown]
    exact takeWhile_indentedLine (Nesting.body_ne_nil_of_ownDepth? hown) depth

lemma editsFrom_range
    (style : IndentStyle) (range : Option (Nat × Nat)) (number : Nat) (nesting : Nesting)
    (lines : List (List Char)) :
    editsFrom style range number nesting lines =
      (editsFrom style none number nesting lines).filter fun edit =>
        inLineRange range edit.line := by
  induction lines generalizing number nesting with
  | nil => rfl
  | cons line rest ih =>
    rw [editsFrom_cons, editsFrom_cons, filter_append, ih]
    congr 1
    cases hedit : (nesting.step line).1.bind (lineEdit? style number line) with
    | none =>
      have hnone (range : Option (Nat × Nat)) :
          (nesting.ownDepth? range number line).bind (lineEdit? style number line) = none := by
        unfold Nesting.ownDepth?
        split
        · exact hedit
        · rfl
      rw [hnone, hnone]
      rfl
    | some edit =>
      obtain ⟨depth, -, hdepth⟩ := Option.bind_eq_some_iff.mp hedit
      have hall : nesting.ownDepth? none number line = (nesting.step line).1 := rfl
      rw [hall, hedit, Nesting.ownDepth?]
      by_cases hrange : inLineRange range number
      · simp [hrange, hedit, line_eq_of_lineEdit? hdepth]
      · simp [hrange, line_eq_of_lineEdit? hdepth]

/-- Every line of an indented text that may be moved is at its depth, so that nothing is left to
edit.  The edits of a range are those edits of the whole text that are in the range. -/
theorem indentEdits_settle (style : IndentStyle) (range : Option (Nat × Nat)) (text : List Char) :
    let formatted := applyIndentEdits text (indentEdits style range text)
    AtDepths style range 0 {} (splitLines formatted) ∧ indentEdits style range formatted = [] ∧
      ∀ first last, indentEdits style (some (first, last)) text =
        (indentEdits style none text).filter fun edit => first ≤ edit.line && edit.line ≤ last := by
  intro formatted
  have hdepths : AtDepths style range 0 {} (splitLines formatted) := by
    have hlines := splitOn_indentedText style range text
    rw [splitLines, show formatted = indentedText style range text from rfl, hlines]
    exact indentedLines_atDepths style range fun line hline => break_not_mem_of_mem_splitOn hline
  refine ⟨hdepths, (editsFrom_eq_nil_iff _ _ _ _ _).mpr hdepths, fun first last => ?_⟩
  exact editsFrom_range style (some (first, last)) 0 {} (splitLines text)

end BslInsight
