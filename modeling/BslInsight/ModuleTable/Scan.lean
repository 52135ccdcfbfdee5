import BslInsight.Declaration
import BslInsight.ModuleTable

/-!
# From text to module table

Two stacks are kept apart: the blocks of the open method, and the preprocessor frames, which may
wrap several methods.  A terminator closes the open method whatever is left on its block stack.
Reading never fails: problems become issues of the table.
-/

namespace BslInsight

inductive BlockKind where
  | condition | cycle | attempt
deriving DecidableEq, Repr

structure Block where
  kind : BlockKind
  line : Nat
deriving DecidableEq, Repr

inductive Frame where
  | region (name : String) (line : Nat)
  | conditional (line : Nat)
deriving DecidableEq, Repr

namespace Frame

def line : Frame → Nat
  | .region _ line => line
  | .conditional line => line

def isRegion : Frame → Bool
  | .region _ _ => true
  | .conditional _ => false

def regionName? : Frame → Option String
  | .region name _ => some name
  | .conditional _ => none

end Frame

/-- The method that is being read.  `blocks` has the innermost block first. -/
structure OpenMethod where
  symbol : Symbol
  params : List Symbol
  locals : List Symbol := []
  assignments : List Assignment := []
  blocks : List Block := []
deriving DecidableEq, Repr

def OpenMethod.knows (method : OpenMethod) (lowerName : String) : Bool :=
  method.params.any (·.lowerName == lowerName) || method.locals.any (·.lowerName == lowerName)

/-- The state between two lines.  `frames` has the innermost frame first; `comments` are the
comment lines directly above, and `directive` the compilation directive directly above. -/
structure ScanState where
  table : ModuleTable
  inString : Bool := false
  frames : List Frame := []
  comments : List (List Char) := []
  directive : Option String := none
  current : Option OpenMethod := none
deriving DecidableEq, Repr

/-- The stack cut at its innermost element that satisfies `p`: what lies above it, outermost
first, the element, and what lies below. -/
def cutAt? {α : Type} (p : α → Bool) : List α → Option (List α × α × List α)
  | [] => none
  | top :: below =>
    if p top then some ([], top, below)
    else (cutAt? p below).map fun (above, found, rest) => (above ++ [top], found, rest)

def newExpressionType? : List Token → Option String
  | keyword :: next :: rest =>
    if Keyword.ofWord? keyword.text = some .new then
      match next.kind with
      | .identifier => some next.text
      | .leftParen =>
        match rest with
        | literal :: _ =>
          if literal.kind = .stringLiteral then
            some (String.ofList (trimQuotes literal.text.toList))
          else none
        | [] => none
      | _ => none
    else none
  | _ => none

/-- The tokens after the parenthesis that closes the innermost of `depth + 1` open ones. -/
def afterCall? (depth : Nat) : List Token → Option (List Token)
  | [] => none
  | token :: rest =>
    match token.kind with
    | .leftParen => afterCall? (depth + 1) rest
    | .rightParen =>
      match depth with
      | 0 => some rest
      | depth + 1 => afterCall? depth rest
    | _ => afterCall? depth rest

theorem length_afterCall? {depth : Nat} {tokens rest : List Token}
    (h : afterCall? depth tokens = some rest) : rest.length < tokens.length := by
  induction tokens generalizing depth with
  | nil => simp [afterCall?] at h
  | cons token tokens ih =>
    simp only [afterCall?] at h
    split at h
    · exact Nat.lt_succ_of_lt (ih h)
    · split at h
      · simp_all
      · exact Nat.lt_succ_of_lt (ih h)
    · exact Nat.lt_succ_of_lt (ih h)

/-- What follows a name in a chain: the tokens after its arguments, and whether there are any. -/
def callTail? (tokens : List Token) : Option (List Token × Bool) :=
  match tokens with
  | [] => some ([], false)
  | paren :: arguments =>
    if paren.kind = TokenKind.leftParen then (afterCall? 0 arguments).map (·, true)
    else some (tokens, false)

theorem length_callTail? {tokens rest : List Token} {isCall : Bool}
    (h : callTail? tokens = some (rest, isCall)) : rest.length ≤ tokens.length := by
  unfold callTail? at h
  split at h
  · simp_all
  · split at h
    · simp only [Option.map_eq_some_iff, Prod.mk.injEq] at h
      obtain ⟨found, hfound, rfl, -⟩ := h
      have := length_afterCall? hfound
      simp
      omega
    · simp only [Option.some.injEq, Prod.mk.injEq] at h
      simp [← h.1]

def chainLinks? : List Token → Option (List ChainLink)
  | [] => none
  | name :: rest =>
    if name.kind = .identifier ∧ isKeyword name.text = false then
      match _h : callTail? rest with
      | none => none
      | some ([], isCall) => some [⟨name.text, isCall⟩]
      | some (next :: more, isCall) =>
        if next.kind = .dot then (chainLinks? more).map (⟨name.text, isCall⟩ :: ·)
        else if next.kind = .semicolon ∨ next.kind = .comment then some [⟨name.text, isCall⟩]
        else none
    else none
termination_by tokens => tokens.length
decreasing_by
  have := length_callTail? _h
  simp at *
  omega

/-- The chain on the right side of an assignment.  A bare name is none: its type is found by
name. -/
def valueChain (tokens : List Token) : List ChainLink :=
  match chainLinks? tokens with
  | none => []
  | some [link] => if link.isCall then [link] else []
  | some links => links

/-- The word stands at the head of the text, character by character in lower case, and ends
there. -/
def startsWithWord : List Char → List Char → Bool
  | [], [] => true
  | [], c :: _ => !isWordChar c
  | _ :: _, [] => false
  | w :: word, c :: text => lowerChar c == [w] && startsWithWord word text

/-- Column of a whole word in a text of which the first `skip` characters do not count.  `before`
says that the text stands after a word character, and `column` is the column of its first
character. -/
def findWordFrom? (word : List Char) (skip : Nat) (before : Bool) (column : Nat) :
    List Char → Option Nat
  | [] => none
  | c :: rest =>
    if skip ≤ column ∧ before = false ∧ startsWithWord word (c :: rest) then some column
    else findWordFrom? word skip (isWordChar c) (column + 1) rest

def findWord? (line : List Char) (word : String) (skip : Nat) : Option Nat :=
  let needle := word.toList.flatMap lowerChar
  if needle = [] then none else findWordFrom? needle skip false 0 line

/-- Line and column of a whole word in consecutive lines, of which the first has the number
`line` and counts only from column `skip`. -/
def findWordInLines? (word : String) (skip line : Nat) : List (List Char) → Option (Nat × Nat)
  | [] => none
  | text :: rest =>
    match findWord? text word skip with
    | some column => some (line, column)
    | none => findWordInLines? word 0 (line + 1) rest

namespace ScanState

def range (state : ScanState) (startLine endLine nameColumn : Nat) : SourceRange :=
  ⟨state.table.file, startLine, endLine, nameColumn⟩

def addIssue (state : ScanState) (line : Nat) (kind : IssueKind) : ScanState :=
  { state with table := { state.table with issues := state.table.issues ++ [⟨line, kind⟩] } }

def addIssues (state : ScanState) (lines : List Nat) (kind : IssueKind) : ScanState :=
  { state with
    table := { state.table with issues := state.table.issues ++ lines.map (⟨·, kind⟩) } }

def currentRegion (state : ScanState) : Option String :=
  state.frames.findSome? Frame.regionName?

def commentBlock (state : ScanState) : Option String :=
  if state.comments = [] then none
  else some (String.ofList (joinWith ['\n'] state.comments))

def closeMethod (state : ScanState) (line : Nat) : ScanState :=
  match state.current with
  | none => state
  | some method =>
    let table := state.table
    let start := method.symbol.range.startLine
    let stop := max line start
    let symbol := { method.symbol with range := { method.symbol.range with endLine := stop } }
    let index := table.symbols.length
    { state with
      current := none
      table := { table with
        symbols := table.symbols ++ [symbol]
        methodIndex :=
          (symbol.lowerName, index) :: table.methodIndex.filter (·.1 != symbol.lowerName)
        scopes := table.scopes ++
          [⟨index, start, stop, method.params, method.locals, method.assignments⟩] } }

def abandonMethod (state : ScanState) (line : Nat) : ScanState :=
  match state.current with
  | none => state
  | some method =>
    (state.addIssue method.symbol.range.startLine .unterminatedMethod).closeMethod line

def terminate (state : ScanState) (line : Nat) (kind : SymbolKind) : ScanState :=
  match state.current with
  | none => state.addIssue line .unexpectedTerminator
  | some method =>
    let state := if method.symbol.kind = kind then state
      else state.addIssue line .mismatchedTerminator
    (state.addIssues (method.blocks.reverse.map Block.line) .unclosedBlock).closeMethod line

def pushBlock (state : ScanState) (kind : BlockKind) (line : Nat) : ScanState :=
  match state.current with
  | none => state
  | some method =>
    { state with current := some { method with blocks := ⟨kind, line⟩ :: method.blocks } }

def popBlock (state : ScanState) (kind : BlockKind) : ScanState :=
  match state.current with
  | none => state
  | some method =>
    match cutAt? (fun block : Block => block.kind == kind) method.blocks with
    | none => state
    | some (above, _, below) =>
      { state with current := some { method with blocks := below } }.addIssues
        (above.map Block.line) .unclosedBlock

def declareImplicit (state : ScanState) (line : Nat) (token : Token) : ScanState :=
  match state.current with
  | none => state
  | some method =>
    let name := lower token.text
    if state.table.moduleVariables.any (lower · == name) || method.knows name then state
    else
      let symbol : Symbol := {
        name := token.text, kind := .variable, range := state.range line line token.column }
      { state with current := some { method with locals := method.locals ++ [symbol] } }

def declareVariable (state : ScanState) (line : Nat) (token : Token) (exported : Bool) :
    ScanState :=
  let symbol : Symbol := {
    name := token.text, kind := .variable, range := state.range line line token.column }
  match state.current with
  | some method => { state with current := some { method with locals := method.locals ++ [symbol] } }
  | none =>
    let symbol := { symbol with
      exported, documentation := state.commentBlock, region := state.currentRegion }
    { state with
      comments := []
      table := { state.table with
        symbols := state.table.symbols ++ [symbol]
        moduleVariables := state.table.moduleVariables ++ [symbol.name] } }

def nextIsExport : List Token → Bool
  | [] => false
  | token :: _ => Keyword.ofWord? token.text == some .«export»

/-- The names of a variable declaration; what remains begins with the first token that cannot
belong to it. -/
def declareVariables (state : ScanState) (line : Nat) : List Token → ScanState × List Token
  | [] => (state, [])
  | token :: rest =>
    if token.kind = .identifier ∧ isKeyword token.text = false then
      (state.declareVariable line token (nextIsExport rest)).declareVariables line
        (if nextIsExport rest then rest.drop 1 else rest)
    else if token.kind = .comma then state.declareVariables line rest
    else (state, token :: rest)
termination_by tokens => tokens.length
decreasing_by
  · split
    · rw [List.length_drop, List.length_cons]
      omega
    · exact Nat.lt_succ_self _
  · exact Nat.lt_succ_self _

def recordAssignment (state : ScanState) (line : Nat) (target : Token) (right : List Token) :
    ScanState :=
  let valueType := newExpressionType? right
  let assignment : Assignment := {
    name := target.text, line, valueType
    valueChain := if valueType.isSome then [] else valueChain right }
  let state := state.declareImplicit line target
  match state.current with
  | some method =>
    { state with
      current := some { method with assignments := method.assignments ++ [assignment] } }
  | none =>
    { state with
      table := { state.table with
        moduleAssignments := state.table.moduleAssignments ++ [assignment] } }

def afterEach : List Token → List Token
  | [] => []
  | token :: rest => if Keyword.ofWord? token.text = some .each then rest else token :: rest

def loopHead (state : ScanState) (line : Nat) (tokens : List Token) : ScanState × List Token :=
  let state := state.pushBlock .cycle line
  match afterEach tokens with
  | [] => (state, tokens)
  | counter :: rest =>
    if counter.kind = .identifier ∧ isKeyword counter.text = false then
      (state.declareImplicit line counter, rest)
    else (state, tokens)

def keyword (state : ScanState) (line : Nat) (word : Keyword) (rest : List Token) :
    ScanState × List Token :=
  match word with
  | .var => state.declareVariables line rest
  | .endProcedure => (state.terminate line .procedure, rest)
  | .endFunction => (state.terminate line .function, rest)
  | .«if» => (state.pushBlock .condition line, rest)
  | .endIf => (state.popBlock .condition, rest)
  | .«while» => (state.pushBlock .cycle line, rest)
  | .«for» => state.loopHead line rest
  | .endDo => (state.popBlock .cycle, rest)
  | .«try» => (state.pushBlock .attempt line, rest)
  | .endTry => (state.popBlock .attempt, rest)
  | _ => (state, rest)

theorem length_declareVariables (state : ScanState) (line : Nat) (tokens : List Token) :
    (state.declareVariables line tokens).2.length ≤ tokens.length := by
  fun_induction declareVariables state line tokens with
  | case1 => simp
  | case2 state token rest _ ih =>
    refine Nat.le_trans ih ?_
    split
    · rw [List.length_drop, List.length_cons]
      omega
    · exact Nat.le_succ _
  | case3 state token rest _ _ ih => simpa using Nat.le_succ_of_le ih
  | case4 => simp

theorem length_afterEach (tokens : List Token) : (afterEach tokens).length ≤ tokens.length := by
  unfold afterEach
  split
  · simp
  · split <;> simp

theorem length_loopHead (state : ScanState) (line : Nat) (tokens : List Token) :
    (state.loopHead line tokens).2.length ≤ tokens.length := by
  have bound := length_afterEach tokens
  unfold loopHead
  dsimp only
  split
  · simp
  · next h =>
    rw [h] at bound
    split
    · exact Nat.le_of_succ_le bound
    · simp

theorem length_keyword (state : ScanState) (line : Nat) (word : Keyword) (rest : List Token) :
    (state.keyword line word rest).2.length ≤ rest.length := by
  unfold keyword
  split <;> simp [length_declareVariables, length_loopHead]

def nextIsAssign : List Token → Bool
  | [] => false
  | token :: _ => token.kind == .assign

/-- The tokens of a line.  `atStart` says that a statement begins at the first of them. -/
def processTokens (state : ScanState) (line : Nat) (atStart : Bool) : List Token → ScanState
  | [] => state
  | token :: rest =>
    match token.kind with
    | .comment => state
    | .semicolon => state.processTokens line true rest
    | .identifier =>
      match Keyword.ofWord? token.text with
      | some word =>
        (state.keyword line word rest).1.processTokens line word.opensStatement
          (state.keyword line word rest).2
      | none =>
        if atStart = true ∧ nextIsAssign rest = true then
          (state.recordAssignment line token rest.tail).processTokens line false rest
        else state.processTokens line false rest
    | _ => state.processTokens line false rest
termination_by tokens => tokens.length
decreasing_by
  · simp
  · exact Nat.lt_succ_of_le (length_keyword state line word rest)
  · simp
  · simp
  · simp

def statementLine (state : ScanState) (number : Nat) (line : List Char) : ScanState :=
  let (tokens, inString) := lexLine state.inString line
  ({ state with inString }).processTokens number true tokens

def addDirective (state : ScanState) (kind : DirectiveKind) (line : Nat) (text : List Char) :
    ScanState :=
  { state with
    table := { state.table with
      directives := state.table.directives ++ [⟨kind, line, String.ofList text⟩] } }

def directiveLine (state : ScanState) (number : Nat) (trimmed : List Char) : ScanState :=
  let text := withoutComment trimmed
  let name := String.ofList ((text.drop 1).takeWhile isWordChar)
  let state := if isCompilationDirective name then { state with directive := some ("&" ++ name) }
    else state
  state.addDirective .compilation number text

def closeRegion (state : ScanState) (number : Nat) : ScanState :=
  match cutAt? Frame.isRegion state.frames with
  | none => state.addIssue number .unexpectedRegionEnd
  | some (above, frame, below) =>
    let state := { state with frames := below }.addIssues (above.map Frame.line) .unclosedRegion
    { state with
      table := { state.table with
        regions := state.table.regions ++
          [⟨frame.regionName?.getD "", frame.line, number⟩] } }

def closeConditional (state : ScanState) (number : Nat) : ScanState :=
  match cutAt? (fun frame : Frame => !frame.isRegion) state.frames with
  | none => state.addIssue number .unexpectedRegionEnd
  | some (above, _, below) => { state with frames := above.reverse ++ below }

def preprocessorLine (state : ScanState) (number : Nat) (trimmed : List Char) : ScanState :=
  let text := withoutComment trimmed
  let word := (text.drop 1).takeWhile isWordChar
  let argument := trim (text.drop (1 + word.length))
  match Instruction.ofWord? (String.ofList word) with
  | some .region =>
    let name := String.ofList ((firstWord? argument).getD [])
    ({ state with frames := .region name number :: state.frames }).addDirective
      .preprocessor number text
  | some .endRegion => (state.closeRegion number).addDirective .preprocessor number text
  | some .«if» =>
    ({ state with frames := .conditional number :: state.frames }).addDirective
      .preprocessor number text
  | some .endIf => (state.closeConditional number).addDirective .preprocessor number text
  | some .use => state.addDirective .«import» number (trimQuotes argument)
  | _ => state.addDirective .preprocessor number text

/-- A declaration header.  `line` is its line, `list` its parameter list and `following` the lines
after the header. -/
def beginMethod (state : ScanState) (number : Nat) (line : List Char) (header : Header)
    (list : ParamList) (following : List (List Char)) : ScanState :=
  let state := state.abandonMethod (number - 1)
  let state := if list.closed then state else state.addIssue number .malformedHeader
  let last := number + list.extraLines
  let params := parseParams list.text
  let skip := if line.contains '(' then runLength (· != '(') line else 0
  let paramSymbols := params.map fun param =>
    let (place, column) := (findWordInLines? param.name skip number
      (line :: following.take list.extraLines)).getD (number, header.nameColumn)
    { name := param.name, kind := .parameter, range := state.range place place column : Symbol }
  let (tokens, inString) := lexLine state.inString list.tail
  let exported := match tokens with
    | token :: _ => token.kind == .identifier && Keyword.ofWord? token.text == some .«export»
    | [] => false
  let symbol : Symbol := {
    name := header.name
    kind := header.kind
    range := state.range number last header.nameColumn
    exported
    params
    documentation := state.commentBlock
    directive := state.directive
    region := state.currentRegion }
  let state := { state with
    inString
    comments := []
    directive := none
    current := some { symbol, params := paramSymbols } }
  state.processTokens last true (if exported then tokens.tail else tokens)

def scanLine (state : ScanState) (number : Nat) (line : List Char)
    (following : List (List Char)) : ScanState × Nat :=
  if state.inString then (state.statementLine number line, 0)
  else
    let trimmed := trim line
    if trimmed = [] then ({ state with comments := [] }, 0)
    else if trimmed.take 2 = ['/', '/'] then
      ({ state with comments := state.comments ++ [line] }, 0)
    else if trimmed.head? = some '&' then (state.directiveLine number trimmed, 0)
    else if trimmed.head? = some '#' then
      ({ state.preprocessorLine number trimmed with comments := [] }, 0)
    else match Header.ofLine? line with
      | some header =>
        let list := ParamList.read (line.drop header.paramsStart) following
        (state.beginMethod number line header list following, list.extraLines)
      | none => ({ state.statementLine number line with comments := [], directive := none }, 0)

def scanLines (state : ScanState) (number : Nat) : List (List Char) → ScanState
  | [] => state
  | line :: rest =>
    let (next, extra) := state.scanLine number line rest
    next.scanLines (number + 1 + extra) (rest.drop extra)
termination_by lines => lines.length
decreasing_by
  rw [List.length_drop, List.length_cons]
  omega

def finishFrame (lastLine : Nat) (state : ScanState) (frame : Frame) : ScanState :=
  let state := state.addIssue frame.line .unclosedRegion
  match frame with
  | .region name line =>
    { state with
      table := { state.table with regions := state.table.regions ++ [⟨name, line, lastLine⟩] } }
  | .conditional _ => state

def finish (state : ScanState) (lastLine : Nat) : ModuleTable :=
  let state := state.abandonMethod lastLine
  let table := (state.frames.reverse.foldl (finishFrame lastLine) state).table
  { table with regions := table.regions.mergeSort fun a b => decide (a.startLine ≤ b.startLine) }

end ScanState

def parseModule (file : Path) (dialect : Dialect) (text : String) : ModuleTable :=
  let chars := dropByteOrderMark text.toList
  let lines := splitLines chars
  let start : ScanState := { table := { file, dialect, text := String.ofList chars } }
  (start.scanLines 0 lines).finish (lines.length - 1)

end BslInsight
