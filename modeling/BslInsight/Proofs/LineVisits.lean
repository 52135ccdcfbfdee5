import BslInsight.Proofs.HeaderGrammar
import BslInsight.Proofs.MethodTrail

/-!
# The lines that the scanner comes to

The scanner takes the lines of a parameter list along with their header.  Which lines it comes to
depends on the text and on whether a string is open.  A visit holds what is needed to say how a
line is read; the visits of a text determine the trail of methods.
-/

namespace BslInsight

open List

variable {c : Char} {header : Header} {text line : List Char} {depth index : Nat}
  {inQuote inString : Bool} {before after : ScanState} {lines following : List (List Char)}
  {visit : LineVisit}

/-! ## Blank ends of lines -/

lemma trimEnd_cons (hc : isBlank c = false) (rest : List Char) :
    trimEnd (c :: rest) = c :: trimEnd rest := by
  unfold trimEnd trimEndBy
  rw [reverse_cons, dropWhile_append]
  by_cases hrest : (rest.reverse.dropWhile isBlank).isEmpty
  · rw [if_pos hrest, isEmpty_iff.mp hrest]
    simp [hc]
  · rw [if_neg hrest]
    simp

lemma trimEnd_prefix (text : List Char) : trimEnd text <+: text := by
  have hsuffix : text.reverse.dropWhile isBlank <:+ text.reverse := dropWhile_suffix isBlank
  have hprefix := reverse_prefix.mpr hsuffix
  rwa [reverse_reverse] at hprefix

def passesOver (line : List Char) : Bool := match trimStart line with
  | [] | '&' :: _ | '#' :: _ | '/' :: '/' :: _ => true
  | _ => false

lemma passesOver_iff_of_cons {rest : List Char} {c : Char} (htrim : trimStart line = c :: rest) :
    passesOver line ↔ c = '&' ∨ c = '#' ∨ c = '/' ∧ rest.head? = some '/' := by
  unfold passesOver
  rw [htrim]
  split
  case h_1 hnil => cases hnil
  case h_2 heq | h_3 heq | h_4 heq =>
    cases heq
    simp
  case h_5 hamp hnum hcom =>
    have hslash : ¬(c = '/' ∧ rest.head? = some '/') := by
      rintro ⟨rfl, hfirst⟩
      obtain ⟨tail, rfl⟩ := head?_eq_some_iff.mp hfirst
      exact hcom tail rfl
    have hamp : c ≠ '&' := fun hc => hamp rest (by rw [hc])
    have hnum : c ≠ '#' := fun hc => hnum rest (by rw [hc])
    simp [hslash, hamp, hnum]

lemma passesOver_iff : passesOver line ↔
      trim line = [] ∨ (trim line).take 2 = ['/', '/'] ∨ (trim line).head? = some '&' ∨
        (trim line).head? = some '#' := by
  have hhead := head_trimStart line
  cases htext : trimStart line with
  | nil => simp [passesOver, trim, htext, trimEnd, trimEndBy]
  | cons c rest =>
    have hc : isBlank c = false := by simpa [htext] using hhead
    have hslash : (trimEnd rest).head? = some '/' ↔ rest.head? = some '/' := by
      constructor
      · intro hfirst
        obtain ⟨tail, htail⟩ := head?_eq_some_iff.mp hfirst
        obtain ⟨more, hmore⟩ := trimEnd_prefix rest
        rw [← hmore, htail]
        rfl
      · intro hfirst
        obtain ⟨tail, rfl⟩ := head?_eq_some_iff.mp hfirst
        rw [trimEnd_cons (by decide)]
        rfl
    have htake (text : List Char) :
        (c :: text).take 2 = ['/', '/'] ↔ c = '/' ∧ text.head? = some '/' := by
      cases text <;> simp
    have hmark (d : Char) : (c :: trimEnd rest).head? = some d ↔ c = d := by simp
    rw [passesOver_iff_of_cons htext, trim, htext, trimEnd_cons hc, htake, hslash, hmark, hmark]
    rw [or_iff_right (cons_ne_nil _ _), ← or_assoc, or_comm]

lemma passesOver_of_letter (hline : (trimStart line).head?.any isIdentStart) :
    passesOver line = false := by
  cases htext : trimStart line with
  | nil => simp [htext] at hline
  | cons c rest =>
    rw [htext, head?_cons, Option.any_some] at hline
    rw [Bool.eq_false_iff, ne_eq, passesOver_iff_of_cons htext]
    rintro (rfl | rfl | ⟨rfl, -⟩) <;> exact absurd hline (by decide)

lemma passesOver_of_header (hhdr : Header.ofLine? line = some header) :
    passesOver line = false := by
  refine passesOver_of_letter (head_of_isMethodBoundary ?_)
  rw [isMethodBoundary, hhdr, Option.isSome_some, Bool.true_or]

/-! ## Visits -/

structure LineVisit where
  number : Nat
  inString : Bool
  line : List Char
  following : List (List Char)
deriving DecidableEq

namespace LineVisit

def header? (visit : LineVisit) : Option Header :=
  if visit.inString then none else Header.ofLine? visit.line

def paramList? (visit : LineVisit) : Option ParamList := visit.header?.map fun header =>
    ParamList.read (visit.line.drop header.paramsStart) visit.following

def extraLines (visit : LineVisit) : Nat := (visit.paramList?.map (·.extraLines)).getD 0

def tokenLine (visit : LineVisit) : Nat := visit.number + visit.extraLines

def lexed (visit : LineVisit) : List Token × Bool := match visit.paramList? with
  | some list => lexLine false list.tail
  | none =>
    if visit.inString = false ∧ passesOver visit.line then ([], false)
    else lexLine visit.inString visit.line

def hasTerminator (visit : LineVisit) : Bool := visit.lexed.1.any Token.isTerminator

variable {visit : LineVisit}

lemma extraLines_of_header (hhdr : visit.header? = some header) : visit.extraLines =
      (ParamList.read (visit.line.drop header.paramsStart) visit.following).extraLines := by
  simp [extraLines, paramList?, hhdr]

lemma extraLines_of_no_header (hhdr : visit.header? = none) : visit.extraLines = 0 := by
  simp [extraLines, paramList?, hhdr]

lemma extraLines_le (visit : LineVisit) : visit.extraLines ≤ visit.following.length := by
  cases hhdr : visit.header? with
  | none =>
    rw [extraLines_of_no_header hhdr]
    exact Nat.zero_le _
  | some header =>
    rw [extraLines_of_header hhdr]
    exact ParamList.extraLines_read_le _ _

lemma lexed_of_header (hhdr : visit.header? = some header) : visit.lexed = lexLine false
      (ParamList.read (visit.line.drop header.paramsStart) visit.following).tail := by
  simp [lexed, paramList?, hhdr]

lemma lexed_of_no_header (hhdr : visit.header? = none) : visit.lexed =
      if visit.inString = false ∧ passesOver visit.line then ([], false)
      else lexLine visit.inString visit.line := by
  simp [lexed, paramList?, hhdr]

end LineVisit

def visits (inString : Bool) (number : Nat) : List (List Char) → List LineVisit
  | [] => []
  | line :: rest =>
    let visit : LineVisit := ⟨number, inString, line, rest⟩
    visit :: visits visit.lexed.2 (number + 1 + visit.extraLines) (rest.drop visit.extraLines)
termination_by lines => lines.length
decreasing_by
  rw [length_drop, length_cons]
  omega

def Trail.follow (trail : Trail) (visit : LineVisit) : Trail :=
  ((if visit.header?.isSome then trail.begin visit.number else trail).closeIf
    visit.hasTerminator visit.tokenLine).withString visit.lexed.2

/-! ## Tokens of a line -/

lemma commentsLast_tokensFrom (hbreak : '\n' ∉ text) (column : Nat) :
    CommentsLast (tokensFrom column text) := by
  induction text using lexeme_induction generalizing column with
  | nil =>
    rw [tokensFrom]
    exact .nil
  | cons c body rest kind hlex ih =>
    have hrest : '\n' ∉ rest := fun h => hbreak (mem_cons_of_mem _ (mem_append_right _ h))
    have hlater := ih hrest (column + body.length + 1)
    rw [tokensFrom_append hlex]
    cases kind with
    | none => exact hlater
    | some kind =>
      refine pairwise_cons.mpr ⟨?_, hlater⟩
      rintro later hmem rfl
      obtain rfl := rest_eq_nil_of_lexeme hlex (.inr rfl) hrest
      rw [tokensFrom] at hmem
      cases hmem

lemma commentsLast_lexLine (hbreak : '\n' ∉ line) (inString : Bool) :
    CommentsLast (lexLine inString line).1 := by
  unfold lexLine
  split
  · exact .nil
  · exact commentsLast_tokensFrom (fun h => hbreak (mem_of_mem_drop h)) _

lemma mem_tail_continued (hc : c ∈ (ParamList.continued depth inQuote following).tail) :
    ∃ line ∈ following, c ∈ line := by
  fun_induction ParamList.continued depth inQuote following with
  | case1 | case2 => cases hc
  | case3 depth inQuote line rest _ length _ => exact ⟨line, mem_cons_self, mem_of_mem_drop hc⟩
  | case4 depth inQuote line rest _ _ _ _ more ih =>
    obtain ⟨other, hoth, hmem⟩ := ih hc
    exact ⟨other, mem_cons_of_mem _ hoth, hmem⟩

lemma not_mem_tail_read {first : List Char} (hfirst : c ∉ first)
    (hfoll : ∀ line ∈ following, c ∉ line) : c ∉ (ParamList.read first following).tail := by
  intro hc
  unfold ParamList.read at hc
  split at hc
  next => exact hfirst (mem_of_mem_drop hc)
  next =>
    obtain ⟨line, hline, hmem⟩ := mem_tail_continued hc
    exact hfoll line hline hmem

lemma count_issues (issues : List Issue) (line : Nat) (kind : IssueKind) :
    issues.count ⟨line, kind⟩ = ((issues.filter (·.kind = kind)).map (·.line)).count line := by
  rw [List.count, List.count, countP_map, countP_filter]
  refine countP_congr fun issue _ => ?_
  obtain ⟨place, other⟩ := issue
  simp

/-! ## The trail of a line -/

def IssueKind.isAboutRegions (kind : IssueKind) : Bool :=
  kind == .unclosedRegion || kind == .unexpectedRegionEnd

namespace ScanState

variable (state : ScanState) (number : Nat)

/-- Nothing changed but what belongs to directives and comments, and the new reports are
about regions. -/
def FramedFrom (before after : ScanState) : Prop :=
  ∃ reports : List Issue, (∀ report ∈ reports, report.kind.isAboutRegions = true) ∧
    after = { before with
      frames := after.frames, comments := after.comments, directive := after.directive
      table := { before.table with
        regions := after.table.regions, directives := after.table.directives
        issues := before.table.issues ++ reports } }

lemma FramedFrom.trans {between : ScanState} (hfirst : before.FramedFrom between)
    (hsnd : between.FramedFrom after) : before.FramedFrom after := by
  obtain ⟨first, habout, hbetween⟩ := hfirst
  obtain ⟨second, habout', hafter⟩ := hsnd
  refine ⟨first ++ second, forall_mem_append.mpr ⟨habout, habout'⟩, ?_⟩
  rw [← append_assoc, hafter, hbetween]

lemma framedFrom_of_issues_eq (hafter : after = { before with
      frames := after.frames, comments := after.comments, directive := after.directive
      table := { before.table with
        regions := after.table.regions, directives := after.table.directives } }) :
    before.FramedFrom after :=
  ⟨[], by simp, by rw [append_nil]; exact hafter⟩

lemma framedFrom_note (comments : List (List Char)) (directive : Option String) :
    state.FramedFrom { state with comments, directive } :=
  framedFrom_of_issues_eq rfl

lemma framedFrom_addDirective (kind : DirectiveKind) (text : List Char) :
    state.FramedFrom (state.addDirective kind number text) :=
  framedFrom_of_issues_eq rfl

lemma framedFrom_closeRegion : state.FramedFrom (state.closeRegion number) := by
  unfold closeRegion
  split
  next => exact ⟨[⟨number, .unexpectedRegionEnd⟩], by simp [IssueKind.isAboutRegions], rfl⟩
  next above frame below _ =>
    exact ⟨(above.map Frame.line).map (⟨·, .unclosedRegion⟩), by simp [IssueKind.isAboutRegions],
      rfl⟩

lemma framedFrom_closeConditional : state.FramedFrom (state.closeConditional number) := by
  unfold closeConditional
  split
  · exact ⟨[⟨number, .unexpectedRegionEnd⟩], by simp [IssueKind.isAboutRegions], rfl⟩
  · exact framedFrom_of_issues_eq rfl

lemma framedFrom_preprocessorLine (trimmed : List Char) :
    state.FramedFrom (state.preprocessorLine number trimmed) := by
  have hopen (frame : Frame) : state.FramedFrom { state with frames := frame :: state.frames } :=
    framedFrom_of_issues_eq rfl
  unfold preprocessorLine
  simp only
  split
  · exact (hopen _).trans (framedFrom_addDirective _ number _ _)
  · exact (state.framedFrom_closeRegion number).trans (framedFrom_addDirective _ number _ _)
  · exact (hopen _).trans (framedFrom_addDirective _ number _ _)
  · exact (state.framedFrom_closeConditional number).trans (framedFrom_addDirective _ number _ _)
  · exact state.framedFrom_addDirective number _ _
  · exact state.framedFrom_addDirective number _ _

lemma trail_statementLine (hbreak : '\n' ∉ line) : (state.statementLine number line).trail =
      (state.trail.closeIf ((lexLine state.inString line).1.any Token.isTerminator)
        number).withString (lexLine state.inString line).2 := by
  rw [← Trail.closeIf_withString]
  exact trail_processTokens _ number true (commentsLast_lexLine hbreak state.inString)

def leadsWithExport : List Token → Bool
  | token :: _ => token.kind == .identifier && Keyword.ofWord? token.text == some .«export»
  | [] => false

def afterExport (tokens : List Token) : List Token :=
  if leadsWithExport tokens then tokens.tail else tokens

def beforeMethod (list : ParamList) : ScanState :=
  let ended := state.abandonMethod (number - 1)
  if list.closed then ended else ended.addIssue number .malformedHeader

def paramSymbols
    (line : List Char) (header : Header) (list : ParamList) (following : List (List Char)) :
    List Symbol :=
  (parseParams list.text).map fun param =>
    let (place, column) := (findWordInLines? param.name
      (if line.contains '(' then runLength (· != '(') line else 0) number
      (line :: following.take list.extraLines)).getD (number, header.nameColumn)
    { name := param.name, kind := .parameter, range := state.range place place column : Symbol }

def headerMethod
    (line : List Char) (header : Header) (list : ParamList) (following : List (List Char))
    (tokens : List Token) : OpenMethod where
  symbol := {
    name := header.name
    kind := header.kind
    range := state.range number (number + list.extraLines) header.nameColumn
    exported := leadsWithExport tokens
    params := parseParams list.text
    documentation := state.commentBlock
    directive := state.directive
    region := state.currentRegion }
  params := state.paramSymbols number line header list following

lemma beginMethod_eq
    (line : List Char) (header : Header) (list : ParamList) (following : List (List Char)) :
    state.beginMethod number line header list following =
      let before := state.beforeMethod number list
      let (tokens, inString) := lexLine before.inString list.tail
      processTokens { before with
          inString
          comments := []
          directive := none
          current := some (before.headerMethod number line header list following tokens) }
        (number + list.extraLines) true (afterExport tokens) :=
  rfl

lemma afterExport_suffix (tokens : List Token) : afterExport tokens <:+ tokens := by
  unfold afterExport
  split
  · exact tokens.tail_suffix
  · exact suffix_refl tokens

lemma keywordActions_afterExport (tokens : List Token) :
    (afterExport tokens).flatMap Token.keywordActions = tokens.flatMap Token.keywordActions := by
  unfold afterExport
  split
  next hexp =>
    cases tokens with
    | nil => rfl
    | cons token rest =>
      have hword : token.kind = .identifier ∧ Keyword.ofWord? token.text = some .«export» := by
        simpa [leadsWithExport] using hexp
      simp [Token.keywordActions, hword.2, Keyword.actions]
  next => rfl

lemma trail_beforeMethod (list : ParamList) :
    (state.beforeMethod number list).trail = state.trail.abandon (number - 1) := by
  unfold beforeMethod
  simp only
  split
  · exact trail_abandonMethod state _
  · rw [trail_addIssue _ _ (by decide), trail_abandonMethod]

lemma inString_beforeMethod (list : ParamList) :
    (state.beforeMethod number list).inString = state.inString := by
  have htrail := congrArg Trail.inString (state.trail_beforeMethod number list)
  rwa [Trail.inString_abandon] at htrail

lemma current_beforeMethod (list : ParamList) :
    (state.beforeMethod number list).current = none := by
  unfold beforeMethod
  simp only
  split <;> exact current_abandonMethod state _

lemma trail_beginMethod
    (hstr : state.inString = false) (line : List Char) (header : Header) {list : ParamList}
    (hbreak : '\n' ∉ list.tail) (following : List (List Char)) :
    (state.beginMethod number line header list following).trail =
      ((state.trail.begin number).closeIf ((lexLine false list.tail).1.any Token.isTerminator)
        (number + list.extraLines)).withString (lexLine false list.tail).2 := by
  let before := state.beforeMethod number list
  have htrail := state.trail_beforeMethod number list
  have hbef : before.inString = false := (state.inString_beforeMethod number list).trans hstr
  have htoks := (commentsLast_lexLine hbreak false).of_suffix (afterExport_suffix _)
  rw [← Trail.closeIf_withString, ← any_isEnd_keywordActions, ← keywordActions_afterExport,
    any_isEnd_keywordActions, Trail.begin, ← htrail, beginMethod_eq]
  simp only [before, hbef]
  exact trail_processTokens _ _ true htoks

/-! ## What is done with a line -/

def passLine (line : List Char) : ScanState :=
  let trimmed := trim line
  if trimmed = [] then { state with comments := [] }
  else if trimmed.take 2 = ['/', '/'] then { state with comments := state.comments ++ [line] }
  else if trimmed.head? = some '&' then state.directiveLine number trimmed
  else { state.preprocessorLine number trimmed with comments := [] }

variable {state} {line : List Char} (following : List (List Char))

lemma scanLine_of_inString (hstr : state.inString) :
    state.scanLine number line following = (state.statementLine number line, 0) := by
  rw [scanLine, if_pos hstr]

section

variable (hstr : state.inString = false)
include hstr

lemma scanLine_of_passesOver (hpass : passesOver line) :
    state.scanLine number line following = (state.passLine number line, 0) := by
  rw [scanLine, if_neg (by simp [hstr])]
  rw [passesOver_iff] at hpass
  unfold passLine
  simp only
  split_ifs with hblank hcom hdir hinstr
  · rfl
  · rfl
  · rfl
  · rfl
  · simp [hblank, hcom, hdir, hinstr] at hpass

lemma scanLine_of_not_passesOver (hpass : passesOver line = false) :
    state.scanLine number line following = match Header.ofLine? line with
      | some header =>
        let list := ParamList.read (line.drop header.paramsStart) following
        (state.beginMethod number line header list following, list.extraLines)
      | none =>
        ({ state.statementLine number line with comments := [], directive := none }, 0) := by
  have hnot : ¬_ := fun h => Bool.false_ne_true (hpass.symm.trans (passesOver_iff.mpr h))
  simp only [not_or] at hnot
  obtain ⟨hblank, hcom, hdir, hinstr⟩ := hnot
  rw [scanLine, if_neg (by simp [hstr])]
  exact (if_neg hblank).trans ((if_neg hcom).trans ((if_neg hdir).trans (if_neg hinstr)))

lemma scanLine_of_header (hhdr : Header.ofLine? line = some header) :
    let list := ParamList.read (line.drop header.paramsStart) following
    state.scanLine number line following =
      (state.beginMethod number line header list following, list.extraLines) := by
  have hpass := passesOver_of_header hhdr
  rw [scanLine_of_not_passesOver number following hstr hpass, hhdr]

lemma scanLine_of_statements (hpass : passesOver line = false) (hhdr : Header.ofLine? line = none) :
    state.scanLine number line following =
      ({ state.statementLine number line with comments := [], directive := none }, 0) := by
  rw [scanLine_of_not_passesOver number following hstr hpass, hhdr]

end

lemma trail_note (state : ScanState) (comments : List (List Char)) (directive : Option String) :
    { state with comments, directive }.trail = state.trail :=
  rfl

lemma framedFrom_passLine : state.FramedFrom (state.passLine number line) := by
  unfold passLine
  simp only
  split_ifs
  · exact framedFrom_of_issues_eq rfl
  · exact framedFrom_of_issues_eq rfl
  · unfold directiveLine
    simp only
    split <;> exact framedFrom_of_issues_eq rfl
  · exact (state.framedFrom_preprocessorLine number _).trans (framedFrom_note _ [] _)

lemma framedFrom_finishFrames (lastLine : Nat) (frames : List Frame) (state : ScanState) :
    state.FramedFrom (frames.foldl (finishFrame lastLine) state) := by
  induction frames generalizing state with
  | nil => exact framedFrom_of_issues_eq rfl
  | cons frame frames ih =>
    refine .trans ⟨[⟨frame.line, .unclosedRegion⟩], by simp [IssueKind.isAboutRegions], ?_⟩
      (ih (finishFrame lastLine state frame))
    cases frame <;> rfl

lemma FramedFrom.filter_issues (hframed : before.FramedFrom after) {kind : IssueKind}
    (hkind : kind.isAboutRegions = false) :
    after.table.issues.filter (·.kind = kind) = before.table.issues.filter (·.kind = kind) := by
  obtain ⟨reports, habout, hafter⟩ := hframed
  have hnone : reports.filter (·.kind = kind) = [] := by
    refine filter_eq_nil_iff.mpr fun report hrep heq => ?_
    rw [← of_decide_eq_true heq, habout report hrep] at hkind
    cases hkind
  rw [hafter, filter_append, hnone, append_nil]

lemma FramedFrom.trail_eq (hframed : before.FramedFrom after) : after.trail = before.trail := by
  have hregs : IssueKind.unterminatedMethod.isAboutRegions = false := rfl
  have hissues := hframed.filter_issues hregs
  obtain ⟨reports, -, hafter⟩ := hframed
  simp only [trail, hissues]
  rw [hafter]

@[elab_as_elim]
lemma scanLine_cases
    {motive : ScanState × Nat → Prop} (state : ScanState) (number : Nat) (line : List Char)
    (following : List (List Char))
    (passed : let visit : LineVisit := ⟨number, state.inString, line, following⟩
      state.inString = false → visit.header? = none → visit.lexed = ([], false) →
        motive (state.passLine number line, 0))
    (header : ∀ header, let visit : LineVisit := ⟨number, state.inString, line, following⟩
      state.inString = false → visit.header? = some header →
        motive (state.beginMethod number line header
          (ParamList.read (line.drop header.paramsStart) following) following, visit.extraLines))
    (statements : ∀ comments directive,
      let visit : LineVisit := ⟨number, state.inString, line, following⟩
      visit.header? = none → visit.lexed = lexLine state.inString line →
        motive ({ state.statementLine number line with comments, directive }, 0)) :
    motive (state.scanLine number line following) := by
  let visit : LineVisit := ⟨number, state.inString, line, following⟩
  have hlexed (hhdr : visit.header? = none) := LineVisit.lexed_of_no_header hhdr
  by_cases hstr : state.inString
  · have hhdr : visit.header? = none := if_pos hstr
    rw [scanLine_of_inString number following hstr]
    exact statements _ _ hhdr ((hlexed hhdr).trans (if_neg (by simp [visit, hstr])))
  rw [Bool.not_eq_true] at hstr
  have hfound : visit.header? = Header.ofLine? line := if_neg (by simp [visit, hstr])
  cases hhdr : Header.ofLine? line with
  | some found =>
    have hextra := visit.extraLines_of_header (hfound.trans hhdr)
    have hcase := header found hstr (hfound.trans hhdr)
    rwa [hextra, ← scanLine_of_header number following hstr hhdr] at hcase
  | none =>
    have hnone := hfound.trans hhdr
    cases hpass : passesOver line with
    | true =>
      rw [scanLine_of_passesOver number following hstr hpass]
      exact passed hstr hnone ((hlexed hnone).trans (if_pos ⟨hstr, hpass⟩))
    | false =>
      rw [scanLine_of_statements number following hstr hpass hhdr]
      exact statements _ _ hnone ((hlexed hnone).trans (if_neg (by simp [visit, hpass])))

lemma trail_scanLine (state : ScanState) (number : Nat) (following : List (List Char))
    (hline : '\n' ∉ line) (hfoll : ∀ other ∈ following, '\n' ∉ other) :
    let visit : LineVisit := ⟨number, state.inString, line, following⟩
    (state.scanLine number line following).2 = visit.extraLines ∧
      (state.scanLine number line following).1.trail = state.trail.follow visit := by
  refine scanLine_cases state number line following ?_ ?_ ?_
  · intro visit hstr hhdr hlexed
    refine ⟨(LineVisit.extraLines_of_no_header hhdr).symm, ?_⟩
    rw [(framedFrom_passLine number).trail_eq, Trail.follow, hhdr, LineVisit.hasTerminator,
      hlexed, ← hstr]
    rfl
  · intro header visit hstr hhdr
    have hdrop : '\n' ∉ line.drop header.paramsStart := fun h => hline (mem_of_mem_drop h)
    refine ⟨rfl, ?_⟩
    rw [trail_beginMethod state number hstr line header (not_mem_tail_read hdrop hfoll),
      Trail.follow, LineVisit.hasTerminator, LineVisit.tokenLine,
      LineVisit.lexed_of_header hhdr, visit.extraLines_of_header hhdr, hhdr]
    rfl
  · intro comments directive visit hhdr hlexed
    refine ⟨(LineVisit.extraLines_of_no_header hhdr).symm, ?_⟩
    rw [trail_note (state.statementLine number line), trail_statementLine _ _ hline, Trail.follow,
      hhdr, LineVisit.hasTerminator, LineVisit.tokenLine,
      LineVisit.extraLines_of_no_header hhdr, hlexed]
    rfl

lemma scanLines_visits {α : Type} (holds : α → Nat → ScanState → Prop)
    (step : α → LineVisit → α) (account : α) {state : ScanState} {number : Nat}
    (hlines : ∀ line ∈ lines, '\n' ∉ line) (hstart : holds account number state)
    (hstep : ∀ visit ∈ visits state.inString number lines, ∀ account before,
      before.inString = visit.inString → '\n' ∉ visit.line →
      (∀ other ∈ visit.following, '\n' ∉ other) → holds account visit.number before →
        holds (step account visit) (visit.tokenLine + 1)
          (before.scanLine visit.number visit.line visit.following).1) :
    holds ((visits state.inString number lines).foldl step account) (number + lines.length)
      (state.scanLines number lines) := by
  fun_induction scanLines state number lines generalizing account with
  | case1 state number =>
    rw [visits]
    exact hstart
  | case2 state number line rest next extra hscan ih =>
    obtain ⟨hline, hrest⟩ := forall_mem_cons.mp hlines
    obtain ⟨hextra, htrail⟩ := state.trail_scanLine number rest hline hrest
    rw [visits] at hstep ⊢
    obtain ⟨hfirst, hlater⟩ := forall_mem_cons.mp hstep
    have hnext := hfirst account state rfl hline hrest hstart
    rw [hscan] at hextra htrail hnext
    have hstr : next.inString = (LineVisit.mk number state.inString line rest).lexed.2 :=
      congrArg Trail.inString htrail
    have hle := LineVisit.extraLines_le ⟨number, state.inString, line, rest⟩
    rw [← hextra] at hle
    have hcount : number + 1 + extra + (rest.drop extra).length =
        number + (line :: rest).length := by
      rw [length_drop, length_cons]
      change extra ≤ rest.length at hle
      omega
    rw [LineVisit.tokenLine, Nat.add_right_comm, ← hextra] at hnext
    rw [← hextra, ← hstr] at hlater ⊢
    rw [← hcount]
    exact ih _ (fun other hoth => hrest other (mem_of_mem_drop hoth)) hnext hlater

lemma trail_scanLines (state : ScanState) (number : Nat) (hlines : ∀ line ∈ lines, '\n' ∉ line) :
    (state.scanLines number lines).trail =
      (visits state.inString number lines).foldl Trail.follow state.trail := by
  refine scanLines_visits (fun trail _ state => state.trail = trail) Trail.follow _ hlines rfl ?_
  rintro ⟨number, inString, line, following⟩ - _ before rfl hline hfoll rfl
  exact (before.trail_scanLine number following hline hfoll).2

end ScanState

/-! ## Which lines are visited -/

lemma drop_of_mem_visits {number : Nat} (hvisit : visit ∈ visits inString number lines) :
    number ≤ visit.number ∧ lines.drop (visit.number - number) = visit.line :: visit.following := by
  fun_induction visits inString number lines with
  | case1 => cases hvisit
  | case2 inString number line rest first ih =>
    rcases mem_cons.mp hvisit with rfl | hlater
    · simp [first]
    · obtain ⟨hle, hdrop⟩ := ih hlater
      refine ⟨by omega, ?_⟩
      have hsplit : visit.number - number =
          first.extraLines + (visit.number - (number + 1 + first.extraLines)) + 1 := by
        omega
      rw [hsplit, drop_succ_cons, ← drop_drop]
      exact hdrop

lemma not_isMethodBoundary_of_continued
    (hindex : index < (ParamList.continued depth inQuote following).extraLines)
    (hline : following[index]? = some line) : isMethodBoundary line = false := by
  fun_induction ParamList.continued depth inQuote following generalizing index with
  | case1 => cases hline
  | case2 => cases hindex
  | case3 depth inQuote first rest hbdry length _ =>
    obtain rfl : index = 0 := Nat.lt_one_iff.mp hindex
    obtain rfl : first = line := by simpa using hline
    simpa using hbdry
  | case4 depth inQuote first rest hbdry _ _ _ more =>
    rename_i ih
    cases index with
    | zero =>
      obtain rfl : first = line := by simpa using hline
      simpa using hbdry
    | succ index =>
      refine ih (Nat.lt_of_succ_lt_succ hindex) ?_
      simpa using hline

lemma LineVisit.not_isMethodBoundary (hindex : index < visit.extraLines)
    (hline : visit.following[index]? = some line) :
    isMethodBoundary line = false := by
  cases hhdr : visit.header? with
  | none =>
    rw [extraLines_of_no_header hhdr] at hindex
    cases hindex
  | some header =>
    rw [extraLines_of_header hhdr] at hindex
    unfold ParamList.read at hindex
    split at hindex
    · cases hindex
    · exact not_isMethodBoundary_of_continued hindex hline

lemma exists_visit_of_isMethodBoundary (inString : Bool) (number : Nat)
    (hline : lines[index]? = some line) (hbdry : isMethodBoundary line) :
    ∃ visit ∈ visits inString number lines, visit.number = number + index ∧ visit.line = line := by
  fun_induction visits inString number lines generalizing index with
  | case1 => cases hline
  | case2 inString number first rest visit =>
    rename_i ih
    cases index with
    | zero =>
      obtain rfl : first = line := by simpa using hline
      exact ⟨visit, mem_cons_self, rfl, rfl⟩
    | succ index =>
      have hrest : visit.following[index]? = some line := by simpa using hline
      have hpassed : visit.extraLines ≤ index := by
        rw [← Nat.not_lt]
        intro hindex
        rw [LineVisit.not_isMethodBoundary hindex hrest] at hbdry
        cases hbdry
      have hlater : (rest.drop visit.extraLines)[index - visit.extraLines]? = some line := by
        rw [getElem?_drop, Nat.add_sub_cancel' hpassed]
        exact hrest
      obtain ⟨other, hoth, hnum, hsame⟩ := ih hlater
      exact ⟨other, mem_cons_of_mem _ hoth, by omega, hsame⟩

lemma mem_of_openString {column : Nat} {token : Token} (htoken : token ∈ tokensFrom column text)
    (hkind : token.kind = .openString) : '"' ∈ text := by
  obtain ⟨before, c, body, rest, rfl, hlex, -⟩ := exists_lexeme_of_mem_tokensFrom htoken
  have hhead := (fitsLexeme c (body ++ rest)).head .openString (by rw [hlex, hkind])
  rw [beq_iff_eq.mp hhead]
  exact mem_append_right _ mem_cons_self

lemma lexLine_of_no_quote (hquote : '"' ∉ line) : (lexLine false line).2 = false := by
  rw [lexLine, Bool.eq_false_iff]
  intro hopen
  obtain ⟨token, htoken, hkind⟩ := any_eq_true.mp hopen
  exact hquote (mem_of_openString htoken (beq_iff_eq.mp hkind))

lemma LineVisit.lexed_of_no_quote (hstr : visit.inString = false) (hline : '"' ∉ visit.line)
    (hfoll : ∀ line ∈ visit.following, '"' ∉ line) : visit.lexed.2 = false := by
  cases hhdr : visit.header? with
  | some header =>
    rw [lexed_of_header hhdr]
    apply lexLine_of_no_quote
    exact not_mem_tail_read (fun h => hline (mem_of_mem_drop h)) hfoll
  | none =>
    rw [lexed_of_no_header hhdr]
    split
    · rfl
    · rw [hstr]
      exact lexLine_of_no_quote hline

lemma inString_of_mem_visits (hstr : inString = false) {number : Nat}
    (hquote : ∀ line ∈ lines, '"' ∉ line) (hvisit : visit ∈ visits inString number lines) :
    visit.inString = false := by
  fun_induction visits inString number lines with
  | case1 => cases hvisit
  | case2 inString number line rest first ih =>
    obtain ⟨hline, hrest⟩ := forall_mem_cons.mp hquote
    rcases mem_cons.mp hvisit with rfl | hlater
    · exact hstr
    · refine ih (LineVisit.lexed_of_no_quote hstr hline hrest) ?_ hlater
      exact fun other hoth => hrest other (mem_of_mem_drop hoth)

end BslInsight
