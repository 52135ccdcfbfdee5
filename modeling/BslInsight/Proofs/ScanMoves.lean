import BslInsight.Proofs.TokenActions
import Mathlib.Logic.Relation

/-!
# What reading a line can do

Every function of the scanner is a sequence of a few moves, most of them at one line.  A property
of the state that survives these moves holds after the last line, whatever the text is.
-/

namespace BslInsight

open List

variable {α : Type} {method : OpenMethod} {before after : ScanState} {token : Token}

/-! ## Stacks -/

lemma cutAt?_eq_none_iff {p : α → Bool} {stack : List α} :
    cutAt? p stack = none ↔ ∀ item ∈ stack, p item = false := by
  induction stack with
  | nil => simp [cutAt?]
  | cons top below ih =>
    unfold cutAt?
    split
    next htop => simp [htop]
    next htop => simp [htop, ih]

lemma cutAt?_eq_some {p : α → Bool} {stack above below : List α} {found : α}
    (hcut : cutAt? p stack = some (above, found, below)) :
    stack.reverse = below.reverse ++ found :: above ∧ p found ∧ ∀ item ∈ above, p item = false := by
  induction stack generalizing above with
  | nil => cases hcut
  | cons top rest ih =>
    unfold cutAt? at hcut
    split at hcut
    next htop =>
      obtain ⟨rfl, rfl, rfl⟩ : [] = above ∧ top = found ∧ rest = below := by simpa using hcut
      exact ⟨by simp, htop, by simp⟩
    next htop =>
      obtain ⟨⟨inner, other, tail⟩, hinner, heq⟩ := Option.map_eq_some_iff.mp hcut
      obtain ⟨rfl, rfl, rfl⟩ : inner ++ [top] = above ∧ other = found ∧ tail = below := by
        simpa using heq
      obtain ⟨hstack, hfound, habove⟩ := ih hinner
      refine ⟨by simp [hstack], hfound, forall_mem_append.mpr ⟨habove, ?_⟩⟩
      simpa using htop

lemma cutAt?_map {β : Type} (p : β → Bool) (f : α → β) (stack : List α) : cutAt? p (stack.map f) =
      (cutAt? (fun item => p (f item)) stack).map fun cut =>
        (cut.1.map f, f cut.2.1, cut.2.2.map f) := by
  induction stack with
  | nil => rfl
  | cons top below ih =>
    rw [map_cons, cutAt?, cutAt?, ih]
    split
    · rfl
    · rw [Option.map_map, Option.map_map]
      congr 1
      funext cut
      simp

/-! ## Moves -/

namespace ScanState

def HasOpenLine (state : ScanState) (line : Nat) : Prop :=
  (∃ method, state.current = some method ∧ (method.symbol.range.startLine = line ∨
      ∃ block ∈ method.blocks, block.line = line)) ∨
    ∃ frame ∈ state.frames, frame.line = line

def KnowsName (state : ScanState) (method : OpenMethod) (lowerName : String) : Prop :=
  (state.table.moduleVariables.any (lower · == lowerName) || method.knows lowerName) = true

end ScanState

structure Symbol.IsOf (symbol : Symbol) (token : Token) : Prop where
  kind : symbol.kind = .variable
  name : symbol.name = token.text
  column : symbol.range.nameColumn = token.column

inductive ScanMove (origin : Token → Prop) (line : Nat) : ScanState → ScanState → Prop
  | note (state : ScanState) (inString : Bool) (comments : List (List Char))
      (directive : Option String) :
      ScanMove origin line state { state with inString, comments, directive }
  | issue (state : ScanState) {place : Nat} (kind : IssueKind)
      (hplace : place = line ∨ state.HasOpenLine place) :
      ScanMove origin line state (state.addIssue place kind)
  | region (state : ScanState) (regions : List Region) :
      ScanMove origin line state { state with table := { state.table with regions } }
  | frames (state : ScanState) {frames : List Frame}
      (hfrs : ∀ frame ∈ frames, frame ∈ state.frames ∨ frame.line = line) :
      ScanMove origin line state { state with frames }
  | blocks (state : ScanState) {method : OpenMethod}
      (hcur : state.current = some method) {blocks : List Block}
      (hblocs : ∀ block ∈ blocks, block ∈ method.blocks ∨ block.line = line) :
      ScanMove origin line state { state with current := some { method with blocks } }
  | declareLocal (state : ScanState) {method : OpenMethod}
      (hcur : state.current = some method) {symbol : Symbol}
      (hstart : symbol.range.startLine = line)
      (hend : symbol.range.endLine = line) (htoken : ∃ token, origin token ∧ symbol.IsOf token) :
      ScanMove origin line state { state with
          current := some { method with locals := method.locals ++ [symbol] } }
  | declareVariable (state : ScanState) (hcur : state.current = none)
      {symbol : Symbol} (hkind : symbol.kind = .variable)
      (hstart : symbol.range.startLine = line)
      (hend : symbol.range.endLine = line) (htoken : ∃ token, origin token ∧ symbol.IsOf token) :
      ScanMove origin line state { state with
          table := { state.table with
            symbols := state.table.symbols ++ [symbol]
            moduleVariables := state.table.moduleVariables ++ [symbol.name] } }
  | assign (state : ScanState) {method : OpenMethod}
      (hcur : state.current = some method) {assignment : Assignment}
      (hline : assignment.line = line)
      (hknown : state.KnowsName method (lower assignment.name)) :
      ScanMove origin line state { state with
          current := some { method with assignments := method.assignments ++ [assignment] } }
  | assignOutside (state : ScanState) (hcur : state.current = none)
      {assignment : Assignment} (hline : assignment.line = line) :
      ScanMove origin line state { state with
          table := { state.table with
            moduleAssignments := state.table.moduleAssignments ++ [assignment] } }
  | close (state : ScanState) {method : OpenMethod} (hcur : state.current = some method) :
      ScanMove origin line state (state.closeMethod line)

def anyToken (_token : Token) : Prop := True

abbrev ScanMoves (origin : Token → Prop) (line : Nat) : ScanState → ScanState → Prop :=
  Relation.ReflTransGen (ScanMove origin line)

def OpenMethod.closedSymbol (method : OpenMethod) (line : Nat) : Symbol := { method.symbol with
    range := { method.symbol.range with
      endLine := max line method.symbol.range.startLine } }

def OpenMethod.closedScope (method : OpenMethod) (index line : Nat) : MethodScope where
  methodIndex := index
  startLine := method.symbol.range.startLine
  endLine := max line method.symbol.range.startLine
  params := method.params
  locals := method.locals
  assignments := method.assignments

namespace ScanState

variable {state : ScanState} {line : Nat}

lemma closeMethod_of_current (hcur : state.current = some method) (line : Nat) :
    state.closeMethod line = { state with
        current := none
        table := { state.table with
          symbols := state.table.symbols ++ [method.closedSymbol line]
          methodIndex := ((method.closedSymbol line).lowerName, state.table.symbols.length) ::
              state.table.methodIndex.filter (·.1 != (method.closedSymbol line).lowerName)
          scopes := state.table.scopes ++
            [method.closedScope state.table.symbols.length line] } } := by
  unfold closeMethod
  rw [hcur]
  rfl

structure KeepsMethods (before after : ScanState) : Prop where
  methods : after.table.methods = before.table.methods
  scopes : after.table.scopes = before.table.scopes
  symbol : after.current.map (·.symbol) = before.current.map (·.symbol)

lemma KeepsMethods.exists_symbol (hkeeps : before.KeepsMethods after)
    (hmeth : after.current = some method) :
    ∃ old, before.current = some old ∧ old.symbol = method.symbol := by
  have hsym := hkeeps.symbol
  rw [hmeth, Option.map_some, eq_comm, Option.map_eq_some_iff] at hsym
  exact hsym

lemma keepsMethods_or_closes {line : Nat} (hmove : ScanMove origin line before after) :
    before.KeepsMethods after ∨
      ∃ method, before.current = some method ∧ after = before.closeMethod line := by
  cases hmove with
  | close hmeth => exact .inr ⟨_, hmeth, rfl⟩
  | blocks hmeth | declareLocal hmeth | assign hmeth => exact .inl ⟨rfl, rfl, by rw [hmeth]; rfl⟩
  | declareVariable _ hkind =>
    refine .inl ⟨?_, rfl, rfl⟩
    simp [ModuleTable.methods, hkind, SymbolKind.isMethod]
  | _ => exact .inl ⟨rfl, rfl, rfl⟩

/-! ## Issues -/

lemma addIssues_cons (state : ScanState) (place : Nat) (places : List Nat) (kind : IssueKind) :
    state.addIssues (place :: places) kind = (state.addIssue place kind).addIssues places kind := by
  simp [addIssues, addIssue]

lemma moves_addIssues {places : List Nat} (kind : IssueKind)
    (hplaces : ∀ place ∈ places, place = line ∨ state.HasOpenLine place) :
    ScanMoves origin line state (state.addIssues places kind) := by
  induction places generalizing state with
  | nil =>
    have hsame : state.addIssues [] kind = state := by
      simp [addIssues]
    rw [hsame]
  | cons place places ih =>
    have hrest : ScanMoves origin line (state.addIssue place kind)
        ((state.addIssue place kind).addIssues places kind) :=
      ih fun other hoth => hplaces other (mem_cons_of_mem _ hoth)
    rw [addIssues_cons]
    exact hrest.head (.issue state kind (hplaces place mem_cons_self))

lemma hasOpenLine_of_block (hcur : state.current = some method) {block : Block}
    (hblock : block ∈ method.blocks) : state.HasOpenLine block.line :=
  .inl ⟨method, hcur, .inr ⟨block, hblock, rfl⟩⟩

lemma mem_of_cutAt? {p : α → Bool} {stack above below : List α} {found : α}
    (hcut : cutAt? p stack = some (above, found, below)) :
    (∀ item ∈ above, item ∈ stack) ∧ found ∈ stack ∧ ∀ item ∈ below, item ∈ stack := by
  have hmem (item : α) : item ∈ stack ↔ item ∈ below ∨ item = found ∨ item ∈ above := by
    rw [← mem_reverse, (cutAt?_eq_some hcut).1]
    simp
  refine ⟨fun item habove => ?_, (hmem found).mpr (.inr (.inl rfl)), fun item hbelow => ?_⟩
  · exact (hmem item).mpr (.inr (.inr habove))
  · exact (hmem item).mpr (.inl hbelow)

/-! ## Methods and blocks -/

lemma moves_terminate (state : ScanState) (line : Nat) (kind : SymbolKind) :
    ScanMoves origin line state (state.terminate line kind) := by
  unfold terminate
  split
  next => exact .single (.issue state _ (.inl rfl))
  next method hcur =>
    have hmismatch : ScanMoves origin line state (if method.symbol.kind = kind then state
          else state.addIssue line .mismatchedTerminator) := by
      split
      · exact .refl
      · exact .single (.issue state _ (.inl rfl))
    have hstill : (if method.symbol.kind = kind then state
        else state.addIssue line .mismatchedTerminator).current = some method := by
      split <;> exact hcur
    refine hmismatch.trans (.tail (moves_addIssues _ ?_) (.close _ hstill))
    intro place hplace
    obtain ⟨block, hblock, rfl⟩ := mem_map.mp hplace
    exact .inr (hasOpenLine_of_block hstill (mem_reverse.mp hblock))

lemma moves_pushBlock (state : ScanState) (kind : BlockKind) (line : Nat) :
    ScanMoves origin line state (state.pushBlock kind line) := by
  unfold pushBlock
  split
  next => exact .refl
  next method hcur =>
    refine .single (.blocks state hcur ?_)
    intro block hblock
    rcases mem_cons.mp hblock with rfl | hold
    · exact .inr rfl
    · exact .inl hold

lemma moves_popBlock (state : ScanState) (kind : BlockKind) (line : Nat) :
    ScanMoves origin line state (state.popBlock kind) := by
  unfold popBlock
  split
  next => exact .refl
  next method hcur =>
    split
    next => exact .refl
    next above block below hcut =>
      obtain ⟨habove, -, hbelow⟩ := mem_of_cutAt? hcut
      -- The blocks are reported while they are still open, and then forgotten.
      have hissues : ScanMoves origin line state
          (state.addIssues (above.map Block.line) .unclosedBlock) := by
        refine moves_addIssues _ ?_
        intro place hplace
        obtain ⟨inner, hinner, rfl⟩ := mem_map.mp hplace
        exact .inr (hasOpenLine_of_block hcur (habove inner hinner))
      let reported := state.addIssues (above.map Block.line) .unclosedBlock
      have hforget : ScanMove origin line reported
          { reported with current := some { method with blocks := below } } :=
        .blocks reported hcur fun inner hinner => .inl (hbelow inner hinner)
      exact hissues.tail hforget

/-! ## Names -/

lemma moves_declareImplicit (state : ScanState) (line : Nat) (htoken : origin token) :
    ScanMoves origin line state (state.declareImplicit line token) := by
  unfold declareImplicit
  split
  next => exact .refl
  next method hcur =>
    simp only
    split
    · exact .refl
    · exact .single (.declareLocal state hcur rfl rfl ⟨token, htoken, rfl, rfl, rfl⟩)

lemma moves_declareVariable (state : ScanState) (line : Nat) (htoken : origin token)
    (exported : Bool) :
    ScanMoves origin line state (state.declareVariable line token exported) := by
  unfold declareVariable
  simp only
  split
  next method hcur =>
    exact .single (.declareLocal state hcur rfl rfl ⟨token, htoken, rfl, rfl, rfl⟩)
  next hcur =>
    have hcleared : ScanMoves origin line state { state with comments := [] } :=
      .single (.note state state.inString [] state.directive)
    exact hcleared.tail (.declareVariable { state with comments := [] } hcur rfl rfl rfl
      ⟨token, htoken, rfl, rfl, rfl⟩)

lemma knowsName_declareImplicit (hcur : (state.declareImplicit line token).current = some method) :
    (state.declareImplicit line token).KnowsName method (lower token.text) := by
  cases hmeth : state.current with
  | none => simp [declareImplicit, hmeth] at hcur
  | some old =>
    unfold declareImplicit at hcur ⊢
    simp only [hmeth] at hcur ⊢
    split at hcur
    next hknown =>
      obtain rfl := Option.some.inj (hmeth.symm.trans hcur)
      rwa [if_pos hknown]
    next hnew =>
      cases hcur
      rw [if_neg hnew]
      simp [KnowsName, OpenMethod.knows, Symbol.lowerName]

lemma moves_recordAssignment
    (state : ScanState) (line : Nat) {target : Token} (htgt : origin target)
    (right : List Token) :
    ScanMoves origin line state (state.recordAssignment line target right) := by
  have himplicit := state.moves_declareImplicit line htgt
  unfold recordAssignment
  simp only
  split
  next method hcur => exact himplicit.tail (.assign _ hcur rfl (knowsName_declareImplicit hcur))
  next hcur => exact himplicit.tail (.assignOutside _ hcur rfl)

lemma moves_perform (state : ScanState) (line : Nat) {action : TokenAction}
    (hac : ∀ token ∈ action.token?, origin token) :
    ScanMoves origin line state (state.perform line action) := by
  cases action with
  | declare token exported => exact state.moves_declareVariable line (hac token rfl) exported
  | count token => exact state.moves_declareImplicit line (hac token rfl)
  | assign target right => exact state.moves_recordAssignment line (hac target rfl) right
  | openBlock kind => exact state.moves_pushBlock kind line
  | closeBlock kind => exact state.moves_popBlock kind line
  | endMethod kind => exact state.moves_terminate line kind

lemma moves_processTokens (state : ScanState) (line : Nat) (atStart : Bool) {tokens : List Token}
    (htoks : ∀ token ∈ tokens, origin token) :
    ScanMoves origin line state (state.processTokens line atStart tokens) := by
  rw [processTokens_eq_foldl]
  refine foldlRecOn _ (perform line) .refl fun after hmoves action hac => ?_
  refine hmoves.trans (after.moves_perform line fun token htoken => htoks token ?_)
  refine (Pending.mem_of_mem_actions hac htoken).resolve_right ?_
  cases atStart <;> simp [Pending.token?]

lemma moves_statementLine (state : ScanState) (number : Nat) (text : List Char)
    (htoks : ∀ token ∈ (lexLine state.inString text).1, origin token) :
    ScanMoves origin number state (state.statementLine number text) := by
  unfold statementLine
  simp only
  have hlexed : ScanMove origin number state
      { state with inString := (lexLine state.inString text).2 } :=
    .note state _ state.comments state.directive
  exact (moves_processTokens _ number true htoks).head hlexed

/-! ## Directives -/

lemma exists_moves_directiveLine (state : ScanState) (number : Nat) (trimmed : List Char) :
    ∃ kind text, ScanMoves anyToken number (state.addDirective kind number text)
      (state.directiveLine number trimmed) := by
  refine ⟨.compilation, withoutComment trimmed, ?_⟩
  unfold directiveLine
  simp only
  split
  · exact .single (.note _ state.inString state.comments _)
  · exact .refl

lemma moves_closeRegion (state : ScanState) (number : Nat) :
    ScanMoves origin number state (state.closeRegion number) := by
  unfold closeRegion
  split
  next => exact .single (.issue state _ (.inl rfl))
  next above frame below hcut =>
    obtain ⟨habove, -, hbelow⟩ := mem_of_cutAt? hcut
    let reported := state.addIssues (above.map Frame.line) .unclosedRegion
    have hissues : ScanMoves origin number state reported := by
      refine moves_addIssues _ ?_
      intro place hplace
      obtain ⟨inner, hinner, rfl⟩ := mem_map.mp hplace
      exact .inr (.inr ⟨inner, habove inner hinner, rfl⟩)
    have hforget : ScanMove origin number reported { reported with frames := below } :=
      .frames reported fun inner hinner => .inl (hbelow inner hinner)
    exact (hissues.tail hforget).tail (.region _ _)

lemma moves_closeConditional (state : ScanState) (number : Nat) :
    ScanMoves origin number state (state.closeConditional number) := by
  unfold closeConditional
  split
  next => exact .single (.issue state _ (.inl rfl))
  next above frame below hcut =>
    obtain ⟨habove, -, hbelow⟩ := mem_of_cutAt? hcut
    refine .single (.frames state ?_)
    intro inner hinner
    rcases mem_append.mp hinner with hins | hrest
    · exact .inl (habove inner (mem_reverse.mp hins))
    · exact .inl (hbelow inner hrest)

lemma closeRegion_addDirective
    (state : ScanState) (number : Nat) (kind : DirectiveKind) (text : List Char) :
    (state.closeRegion number).addDirective kind number text =
      (state.addDirective kind number text).closeRegion number := by
  have hfrs : (state.addDirective kind number text).frames =
      state.frames := rfl
  unfold closeRegion
  rw [hfrs]
  cases cutAt? Frame.isRegion state.frames with
  | none | some cut => rfl

lemma closeConditional_addDirective
    (state : ScanState) (number : Nat) (kind : DirectiveKind) (text : List Char) :
    (state.closeConditional number).addDirective kind number text =
      (state.addDirective kind number text).closeConditional number := by
  have hfrs : (state.addDirective kind number text).frames =
      state.frames := rfl
  unfold closeConditional
  rw [hfrs]
  cases cutAt? (fun frame : Frame => !frame.isRegion) state.frames with
  | none | some cut => rfl

lemma exists_moves_preprocessorLine (state : ScanState) (number : Nat) (trimmed : List Char) :
    ∃ kind text, ScanMoves anyToken number (state.addDirective kind number text)
      (state.preprocessorLine number trimmed) := by
  have hopen {frame : Frame} (hline : frame.line = number) (other : ScanState) :
      ScanMoves anyToken number other { other with frames := frame :: other.frames } := by
    refine .single (.frames other ?_)
    intro inner hinner
    rcases mem_cons.mp hinner with rfl | hold
    · exact .inr hline
    · exact .inl hold
  unfold preprocessorLine
  simp only
  split
  next => exact ⟨_, _, hopen rfl (state.addDirective _ number _)⟩
  next =>
    rw [closeRegion_addDirective]
    exact ⟨_, _, moves_closeRegion _ number⟩
  next => exact ⟨_, _, hopen rfl (state.addDirective _ number _)⟩
  next =>
    rw [closeConditional_addDirective]
    exact ⟨_, _, moves_closeConditional _ number⟩
  next => exact ⟨_, _, .refl⟩
  next => exact ⟨_, _, .refl⟩

end ScanState

end BslInsight
