import BslInsight.Proofs.MethodExtents
import BslInsight.Proofs.Rewording
import Mathlib.Data.List.Forall2

/-!
# Two readings that agree

Two states agree if they differ only in the columns of names, in the text, in assignments that are
related in a given way, and in what a view leaves out of comments and default values.
Corresponding tokens and related assignments preserve this.
-/

namespace BslInsight

open List ScanState

variable {method : OpenMethod} {others token : Token} {pending second : Pending} (lastLine : Nat)

def Symbol.unplaced (symbol : Symbol) : Symbol :=
  { symbol with range := { symbol.range with nameColumn := 0 } }

/-! ## Views -/

/-- What counts of the comments and default values of a module.  The lines of a comment
are looked at one by one. -/
structure View where
  comment : List Char → List Char
  value : String → String
  comment_joinWith : ∀ lines, comment (joinWith ['\n'] lines) = joinWith ['\n'] (lines.map comment)

namespace View

variable (view : View)

def block (block : String) : String := String.ofList (view.comment block.toList)

def param (param : Parameter) : Parameter :=
  { param with default? := param.default?.map view.value }

def symbol (symbol : Symbol) : Symbol := { symbol.unplaced with
    params := symbol.params.map view.param
    documentation := symbol.documentation.map view.block }

def whole : View where
  comment := id
  value := id
  comment_joinWith lines := by rw [map_id, id_eq]

lemma symbol_whole : whole.symbol = Symbol.unplaced := by
  funext symbol
  have hpars : whole.param = id := by
    funext param
    simp [View.param, whole]
  have hblock : whole.block = id := by
    funext block
    exact String.ofList_toList
  rw [View.symbol, hpars, hblock, map_id, Option.map_id]
  rfl

end View

section

variable (related : Assignment → Assignment → Prop)

structure MethodScope.Agrees (scope other : MethodScope) : Prop where
  methodIndex : scope.methodIndex = other.methodIndex
  startLine : scope.startLine = other.startLine
  endLine : scope.endLine = other.endLine
  params : scope.params.map Symbol.unplaced = other.params.map Symbol.unplaced
  locals : scope.locals.map Symbol.unplaced = other.locals.map Symbol.unplaced
  assignments : Forall₂ related scope.assignments other.assignments

/-- Tables that differ only in their texts, in the columns of names, and in related
assignments. -/
structure ModuleTable.Agrees (table other : ModuleTable) : Prop where
  file : table.file = other.file
  dialect : table.dialect = other.dialect
  symbols : table.symbols.map Symbol.unplaced = other.symbols.map Symbol.unplaced
  methodIndex : table.methodIndex = other.methodIndex
  moduleVariables : table.moduleVariables = other.moduleVariables
  scopes : Forall₂ (MethodScope.Agrees related) table.scopes other.scopes
  moduleAssignments : Forall₂ related table.moduleAssignments other.moduleAssignments
  regions : table.regions = other.regions
  directives : table.directives = other.directives
  issues : table.issues = other.issues

variable (view : View)

structure ModuleTable.AgreesIn (table other : ModuleTable) : Prop where
  file : table.file = other.file
  dialect : table.dialect = other.dialect
  symbols : table.symbols.map view.symbol = other.symbols.map view.symbol
  methodIndex : table.methodIndex = other.methodIndex
  moduleVariables : table.moduleVariables = other.moduleVariables
  scopes : Forall₂ (MethodScope.Agrees related) table.scopes other.scopes
  moduleAssignments : Forall₂ related table.moduleAssignments other.moduleAssignments
  regions : table.regions = other.regions
  directives : table.directives = other.directives
  issues : table.issues = other.issues

structure OpenMethod.Agrees (method other : OpenMethod) : Prop where
  symbol : view.symbol method.symbol = view.symbol other.symbol
  params : method.params.map Symbol.unplaced = other.params.map Symbol.unplaced
  locals : method.locals.map Symbol.unplaced = other.locals.map Symbol.unplaced
  assignments : Forall₂ related method.assignments other.assignments
  blocks : method.blocks = other.blocks

structure ScanState.Agrees (state other : ScanState) : Prop where
  table : state.table.AgreesIn related view other.table
  inString : state.inString = other.inString
  frames : state.frames = other.frames
  comments : state.comments.map view.comment = other.comments.map view.comment
  directive : state.directive = other.directive
  current : Option.Rel (OpenMethod.Agrees related view) state.current other.current

def assignmentOf (line : Nat) (target : Token) (right : List Token) : Assignment where
  name := target.text
  line := line
  valueType := newExpressionType? right
  valueChain := if (newExpressionType? right).isSome then [] else valueChain right

def ScanState.addAssignment (state : ScanState) (assignment : Assignment) : ScanState :=
  match state.current with
  | some method =>
    { state with
      current := some { method with assignments := method.assignments ++ [assignment] } }
  | none =>
    { state with
      table := { state.table with
        moduleAssignments := state.table.moduleAssignments ++ [assignment] } }

lemma ScanState.recordAssignment_eq
    (state : ScanState) (line : Nat) (target : Token) (right : List Token) :
    state.recordAssignment line target right =
      (state.declareImplicit line target).addAssignment (assignmentOf line target right) :=
  rfl

/-- The keyword changes the state or takes tokens that follow it. -/
def Keyword.acts : Keyword → Bool
  | .var | .endProcedure | .endFunction | .«if» | .endIf | .«while» | .«for» | .endDo | .«try»
  | .endTry => Bool.true
  | _ => Bool.false

/-- Words that lead to the same action and the same place in a statement, unless
something is assigned to them. -/
structure SameReading (word other : String) : Prop where
  act : (Keyword.ofWord? word).filter Keyword.acts = (Keyword.ofWord? other).filter Keyword.acts
  opens : (Keyword.ofWord? word).any Keyword.opensStatement =
      (Keyword.ofWord? other).any Keyword.opensStatement

/-- Tokens that are read alike when a dot may stand before them: they spell the same
keywords and names, and make related assignments.  The word after a dot can be another
one with the same reading. -/
inductive MembersAlike (line : Nat) : Bool → List Token → List Token → Prop
  | nil (afterDot : Bool) : MembersAlike line afterDot [] []
  | cons {afterDot isDot : Bool} {token other : Token} {rest others : List Token}
      (halike : token.Alike other)
      (hasg : token.kind = .identifier → isKeyword token.text = false → nextIsAssign rest = true →
          related (assignmentOf line token rest.tail) (assignmentOf line other others.tail))
      (hdot : isDot = true → token.kind = .dot ∧ Keyword.ofWord? token.text = none)
      (hrest : MembersAlike line isDot rest others) :
      MembersAlike line afterDot (token :: rest) (other :: others)
  | member {member renamed : Token} {rest others : List Token}
      (hmbr : member.kind = .identifier) (hren : renamed.kind = .identifier)
      (hreading : SameReading member.text renamed.text)
      (hrest : MembersAlike line false rest others) :
      MembersAlike line true (member :: rest) (renamed :: others)

end

/-! ## Symbols -/

namespace Symbol

variable {symbol other : Symbol}

lemma kind_of_unplaced {view : View} (hsame : view.symbol symbol = view.symbol other) :
    symbol.kind = other.kind :=
  congrArg (·.kind) hsame

lemma startLine_of_unplaced {view : View} (hsame : view.symbol symbol = view.symbol other) :
    symbol.range.startLine = other.range.startLine :=
  congrArg (·.range.startLine) hsame

lemma any_lowerName
    {symbols others : List Symbol} (hsame : symbols.map unplaced = others.map unplaced)
    (name : String) : symbols.any (·.lowerName == name) = others.any (·.lowerName == name) := by
  have hany (list : List Symbol) :
      list.any (·.lowerName == name) = (list.map unplaced).any (·.lowerName == name) := by
    rw [any_map]
    rfl
  rw [hany symbols, hany others, hsame]

lemma map_concat {view : Symbol → Symbol} {symbols others : List Symbol}
    (hsame : symbols.map view = others.map view) (hlast : view symbol = view other) :
    (symbols ++ [symbol]).map view = (others ++ [other]).map view := by
  rw [map_append, map_append, hsame, map_singleton, map_singleton, hlast]

end Symbol

lemma forall₂_concat
    {α : Type} {r : α → α → Prop} {items others : List α} (hitems : Forall₂ r items others)
    {item other : α} (hlast : r item other) : Forall₂ r (items ++ [item]) (others ++ [other]) :=
  rel_append hitems (.cons hlast .nil)

/-! ## What is done at a token -/

section

variable {related : Assignment → Assignment → Prop} {view : View}

lemma ModuleTable.AgreesIn.agrees
    {table other : ModuleTable} (hagr : table.AgreesIn related .whole other) :
    table.Agrees related other :=
  { hagr with symbols := View.symbol_whole ▸ hagr.symbols }

lemma OpenMethod.Agrees.knows_eq {other : OpenMethod} (hagr : method.Agrees related view other)
    (name : String) :
    method.knows name = other.knows name := by
  unfold OpenMethod.knows
  rw [Symbol.any_lowerName hagr.params, Symbol.any_lowerName hagr.locals]

lemma OpenMethod.Agrees.closedSymbol {other : OpenMethod}
    (hagr : method.Agrees related view other) (line : Nat) :
    view.symbol (method.closedSymbol line) = view.symbol (other.closedSymbol line) := by
  let close (symbol : Symbol) : Symbol := { symbol with
      range := { symbol.range with endLine := max line symbol.range.startLine } }
  calc
    _ = close (view.symbol method.symbol) := rfl
    _ = close (view.symbol other.symbol) := by rw [hagr.symbol]

namespace ScanState

variable {state other : ScanState} (hagr : state.Agrees related view other) (line : Nat)
include hagr

lemma Agrees.current_cases : (state.current = none ∧ other.current = none) ∨
      ∃ method others, state.current = some method ∧ other.current = some others ∧
        method.Agrees related view others := by
  have hcur := hagr.current
  generalize state.current = first at hcur
  generalize other.current = second at hcur
  cases hcur with
  | none => exact .inl ⟨rfl, rfl⟩
  | some hmeth => exact .inr ⟨_, _, rfl, rfl, hmeth⟩

lemma Agrees.addIssue (kind : IssueKind) :
    (state.addIssue line kind).Agrees related view (other.addIssue line kind) :=
  { hagr with
    table := { hagr.table with issues := congrArg (· ++ _) hagr.table.issues } }

lemma Agrees.addIssues (lines : List Nat) (kind : IssueKind) :
    (state.addIssues lines kind).Agrees related view (other.addIssues lines kind) :=
  { hagr with
    table := { hagr.table with issues := congrArg (· ++ _) hagr.table.issues } }

lemma Agrees.withCurrent {others : OpenMethod} (hmeth : method.Agrees related view others) :
    Agrees related view { state with current := some method } { other with current := some others } :=
  { hagr with current := .some hmeth }

lemma Agrees.closeMethod : (state.closeMethod line).Agrees related view (other.closeMethod line) := by
  rcases hagr.current_cases with ⟨hnone, hnones⟩ | ⟨method, others, hsome, hsomes, hmeth⟩
  · simpa only [ScanState.closeMethod, hnone, hnones] using hagr
  · have hsym := hmeth.closedSymbol line
    have hlower : (method.closedSymbol line).lowerName = (others.closedSymbol line).lowerName :=
      congrArg (·.lowerName) hsym
    have hlen : state.table.symbols.length = other.table.symbols.length := by
      have hlengths := congrArg List.length hagr.table.symbols
      simpa using hlengths
    have hstart := Symbol.startLine_of_unplaced hmeth.symbol
    have hscope : MethodScope.Agrees related (method.closedScope state.table.symbols.length line)
        (others.closedScope other.table.symbols.length line) :=
      { methodIndex := hlen
        startLine := hstart
        endLine := congrArg (max line) hstart
        params := hmeth.params
        locals := hmeth.locals
        assignments := hmeth.assignments }
    rw [closeMethod_of_current hsome, closeMethod_of_current hsomes]
    exact { hagr with
        current := .none
        table := { hagr.table with
            symbols := Symbol.map_concat hagr.table.symbols hsym
            methodIndex := by rw [hlower, hlen, hagr.table.methodIndex]
            scopes := forall₂_concat hagr.table.scopes hscope } }

lemma Agrees.abandonMethod :
    (state.abandonMethod line).Agrees related view (other.abandonMethod line) := by
  unfold ScanState.abandonMethod
  rcases hagr.current_cases with ⟨hnone, hnones⟩ | ⟨method, others, hsome, hsomes, hmeth⟩
  · simpa only [hnone, hnones] using hagr
  · simp only [hsome, hsomes, Symbol.startLine_of_unplaced hmeth.symbol]
    exact (hagr.addIssue _ _).closeMethod line

lemma Agrees.terminate (kind : SymbolKind) :
    (state.terminate line kind).Agrees related view (other.terminate line kind) := by
  unfold ScanState.terminate
  rcases hagr.current_cases with ⟨hnone, hnones⟩ | ⟨method, others, hsome, hsomes, hmeth⟩
  · simp only [hnone, hnones]
    exact hagr.addIssue line _
  · simp only [hsome, hsomes, Symbol.kind_of_unplaced hmeth.symbol, hmeth.blocks]
    split
    · exact (hagr.addIssues _ _).closeMethod line
    · exact ((hagr.addIssue _ _).addIssues _ _).closeMethod line

lemma Agrees.pushBlock (kind : BlockKind) :
    (state.pushBlock kind line).Agrees related view (other.pushBlock kind line) := by
  unfold ScanState.pushBlock
  rcases hagr.current_cases with ⟨hnone, hnones⟩ | ⟨method, others, hsome, hsomes, hmeth⟩
  · simpa only [hnone, hnones] using hagr
  · simp only [hsome, hsomes]
    exact hagr.withCurrent { hmeth with blocks := congrArg (_ :: ·) hmeth.blocks }

lemma Agrees.popBlock (kind : BlockKind) :
    (state.popBlock kind).Agrees related view (other.popBlock kind) := by
  unfold ScanState.popBlock
  rcases hagr.current_cases with ⟨hnone, hnones⟩ | ⟨method, others, hsome, hsomes, hmeth⟩
  · simpa only [hnone, hnones] using hagr
  · simp only [hsome, hsomes, hmeth.blocks]
    split
    next => exact hagr
    next above found below _ =>
      have hbelow : OpenMethod.Agrees related view { method with blocks := below }
          { others with blocks := below } :=
        { hmeth with blocks := rfl }
      exact (hagr.withCurrent hbelow).addIssues _ _

lemma Agrees.variable_unplaced (htext : token.text = others.text) : Symbol.unplaced
        { name := token.text, kind := .variable, range := state.range line line token.column } =
      Symbol.unplaced
        { name := others.text, kind := .variable, range := other.range line line others.column } := by
  simp only [Symbol.unplaced, ScanState.range, htext, hagr.table.file]

lemma Agrees.declareImplicit (htext : token.text = others.text) :
    (state.declareImplicit line token).Agrees related view (other.declareImplicit line others) := by
  unfold ScanState.declareImplicit
  rcases hagr.current_cases with ⟨hnone, hnones⟩ | ⟨method, second, hsome, hsomes, hmeth⟩
  · simpa only [hnone, hnones] using hagr
  · have hsym := hagr.variable_unplaced line htext
    simp only [hsome, hsomes, htext, hmeth.knows_eq, hagr.table.moduleVariables] at hsym ⊢
    split
    · exact hagr
    · exact hagr.withCurrent { hmeth with locals := Symbol.map_concat hmeth.locals hsym }

lemma Agrees.commentBlock_eq :
    state.commentBlock.map view.block = other.commentBlock.map view.block := by
  have hblock (state : ScanState) : state.commentBlock.map view.block =
      if state.comments.map view.comment = [] then none
      else some (String.ofList (joinWith ['\n'] (state.comments.map view.comment))) := by
    simp only [commentBlock, map_eq_nil_iff, ← view.comment_joinWith]
    split
    · rfl
    · rw [Option.map_some, View.block, String.toList_ofList]
  rw [hblock, hblock, hagr.comments]

lemma Agrees.currentRegion_eq : state.currentRegion = other.currentRegion := by
  unfold ScanState.currentRegion
  rw [hagr.frames]

lemma Agrees.declareVariable (htext : token.text = others.text) (exported : Bool) :
    (state.declareVariable line token exported).Agrees related view
      (other.declareVariable line others exported) := by
  unfold ScanState.declareVariable
  rcases hagr.current_cases with ⟨hnone, hnones⟩ | ⟨method, second, hsome, hsomes, hmeth⟩
  · simp only [hnone, hnones, hagr.currentRegion_eq, htext]
    refine { hagr with
        comments := rfl
        current := .none
        table := { hagr.table with
            symbols := Symbol.map_concat hagr.table.symbols ?_
            moduleVariables := congrArg (· ++ _) hagr.table.moduleVariables } }
    simp only [View.symbol, Symbol.unplaced, ScanState.range, hagr.table.file, hagr.commentBlock_eq]
  · have hsym := hagr.variable_unplaced line htext
    simp only [hsome, hsomes]
    exact hagr.withCurrent { hmeth with locals := Symbol.map_concat hmeth.locals hsym }

lemma Agrees.addAssignment {assignment second : Assignment} (hasg : related assignment second) :
    (state.addAssignment assignment).Agrees related view (other.addAssignment second) := by
  unfold ScanState.addAssignment
  rcases hagr.current_cases with ⟨hnone, hnones⟩ | ⟨method, others, hsome, hsomes, hmeth⟩
  · simp only [hnone, hnones]
    exact { hagr with
        current := .none
        table := { hagr.table with
            moduleAssignments := forall₂_concat hagr.table.moduleAssignments hasg } }
  · simp only [hsome, hsomes]
    exact hagr.withCurrent { hmeth with assignments := forall₂_concat hmeth.assignments hasg }

lemma Agrees.recordAssignment {target : Token} (htext : target.text = others.text)
    {right rights : List Token}
    (hasg : related (assignmentOf line target right) (assignmentOf line others rights)) :
    (state.recordAssignment line target right).Agrees related view
      (other.recordAssignment line others rights) := by
  rw [recordAssignment_eq, recordAssignment_eq]
  exact (hagr.declareImplicit line htext).addAssignment hasg

end ScanState

/-! ## Actions that agree -/

variable {line : Nat} {tokens others : List Token}

section

variable (related) (line : Nat)

inductive TokenAction.Alike : TokenAction → TokenAction → Prop
  | declare {token other : Token} (htext : token.text = other.text) (exported : Bool) :
      TokenAction.Alike (.declare token exported) (.declare other exported)
  | count {token other : Token} (htext : token.text = other.text) :
      TokenAction.Alike (.count token) (.count other)
  | assign {token other : Token} {right others : List Token} (htext : token.text = other.text)
      (hrelated : related (assignmentOf line token right) (assignmentOf line other others)) :
      TokenAction.Alike (.assign token right) (.assign other others)
  | same {action : TokenAction} (hnone : action.token? = none) : TokenAction.Alike action action

/-- What is pending before tokens that may go on with an assignment. -/
inductive Pending.Alike (tokens others : List Token) : Pending → Pending → Prop
  | named {token other : Token} (htext : token.text = other.text)
      (hasg : nextIsAssign tokens = true →
        related (assignmentOf line token tokens.tail) (assignmentOf line other others.tail)) :
      Pending.Alike tokens others (.named token) (.named other)
  | variable {token other : Token} (htext : token.text = other.text) :
      Pending.Alike tokens others (.variable token) (.variable other)
  | same {pending : Pending} (hnone : pending.token? = none) :
      Pending.Alike tokens others pending pending

def ReadsAlike (tokens others : List Token) (read second : List TokenAction × Pending) : Prop :=
  Forall₂ (TokenAction.Alike related line) read.1 second.1 ∧
    Pending.Alike related line tokens others read.2 second.2

end

lemma Token.Alike.isKeyword_eq {other : Token} (halike : token.Alike other) :
    isKeyword token.text = isKeyword other.text := by
  unfold isKeyword
  rw [halike.keyword]

namespace Pending

lemma atEnd_alike (hpend : Alike related line [] [] pending second) :
    Forall₂ (TokenAction.Alike related line) pending.atEnd second.atEnd := by
  cases hpend with
  | named => exact .nil
  | «variable» htext => exact .cons (.declare htext false) .nil
  | same hnone =>
    induction pending with
    | each otherwise ih => exact ih hnone
    | named | «variable» => cases hnone
    | _ => exact .nil

lemma token?_readPlain (token : Token) :
    (∀ action ∈ (readPlain false token).1, action.token? = none) ∧
      (readPlain false token).2.token? = none := by
  unfold readPlain
  split
  next => exact ⟨by simp, rfl⟩
  next => exact ⟨by simp, rfl⟩
  next =>
    split
    next word _ => exact token?_of_keyword word
    next => exact ⟨by simp, rfl⟩
  next => exact ⟨by simp, rfl⟩

variable {token other : Token} (halike : token.Alike other)
include halike

lemma isName_iff_of_alike : token.IsName ↔ other.IsName := by
  rw [Token.IsName, Token.IsName, halike.kind, halike.isKeyword_eq]

section

variable (hasg : token.kind = .identifier → isKeyword token.text = false →
    nextIsAssign tokens = true →
      related (assignmentOf line token tokens.tail) (assignmentOf line other others.tail))
include hasg

lemma readPlain_alike (atStart : Bool) :
    ReadsAlike related line tokens others (readPlain atStart token) (readPlain atStart other) := by
  unfold readPlain
  rw [← halike.kind, ← halike.keyword]
  split
  next => exact ⟨.nil, .same rfl⟩
  next => exact ⟨.nil, .same rfl⟩
  next hkind =>
    split
    next word _ =>
      obtain ⟨hacts, hpend⟩ := token?_of_keyword word
      exact ⟨forall₂_same.mpr fun action hac => .same (hacts action hac), .same hpend⟩
    next hword =>
      have hname : isKeyword token.text = false := by simp [isKeyword, hword]
      cases atStart with
      | false => exact ⟨.nil, .same rfl⟩
      | true => exact ⟨.nil, .named (halike.name hkind hname) (hasg hkind hname)⟩
  next => exact ⟨.nil, .same rfl⟩

lemma readVariable_alike :
    ReadsAlike related line tokens others (readVariable token) (readVariable other) := by
  have hplain := readPlain_alike halike hasg false
  unfold readVariable
  rw [← halike.kind]
  simp only [← isName_iff_of_alike halike]
  split_ifs with hname
  · exact ⟨.nil, .variable (halike.name hname.1 hname.2)⟩
  · exact ⟨.nil, .same rfl⟩
  · exact hplain

lemma read_alike (hpend : Alike related line (token :: tokens) (other :: others) pending second) :
    ReadsAlike related line tokens others (pending.read token tokens)
      (second.read other others) := by
  have hplain := readPlain_alike halike hasg
  have hvar := readVariable_alike halike hasg
  have hcount (hname : token.IsName) : ReadsAlike related line tokens others
      ([.count token], .inside) ([.count other], .inside) :=
    ⟨.cons (.count (halike.name hname.1 hname.2)) .nil, .same rfl⟩
  cases hpend with
  | named htext hrelated =>
    unfold read
    rw [← halike.kind]
    split
    next heq =>
      have hright := hrelated (by simp [nextIsAssign, heq])
      exact ⟨.cons (.assign htext hright) .nil, .same rfl⟩
    next => exact hplain false
  | «variable» htext =>
    unfold read
    rw [← halike.keyword]
    split
    next => exact ⟨.cons (.declare htext true) .nil, .same rfl⟩
    next => exact ⟨.cons (.declare htext false) hvar.1, hvar.2⟩
  | same hnone =>
    induction pending with
    | statement => exact hplain true
    | inside => exact hplain false
    | named => cases hnone
    | «variables» => exact hvar
    | «variable» => cases hnone
    | loop =>
      have hsame : readPlain false other = readPlain false token := by
        simp [readPlain, halike.kind, halike.keyword]
      unfold read
      rw [← halike.keyword]
      simp only [← isName_iff_of_alike halike, hsame]
      split_ifs with heach hname
      · exact ⟨.nil, .same (token?_readPlain token).2⟩
      · exact hcount hname
      · exact hsame ▸ hplain false
    | each otherwise ih =>
      unfold read
      simp only [← isName_iff_of_alike halike]
      split_ifs with hname
      · exact hcount hname
      · exact ih hnone
    | comment => exact ⟨.nil, .same rfl⟩

end

omit halike in
lemma read_dot
    (hdot : token.kind = .dot) (hword : Keyword.ofWord? token.text = none) (pending : Pending)
    (rest : List Token) :
    (pending.read token rest).2 = .inside ∨ (pending.read token rest).2 = .comment := by
  have hname : ¬token.IsName := by simp [Token.IsName, hdot]
  induction pending with
  | each otherwise ih =>
    rw [read, if_neg hname]
    exact ih
  | comment => exact .inr rfl
  | _ => simp [read, readVariable, readPlain, hdot, hword, hname]

omit halike in
lemma readPlain_eq (hidf : token.kind = .identifier) : readPlain false token =
      match (Keyword.ofWord? token.text).filter Keyword.acts with
      | some word => (word.actions, word.pending)
      | none => ([], if (Keyword.ofWord? token.text).any Keyword.opensStatement then .statement
          else .inside) := by
  unfold readPlain
  rw [hidf]
  cases Keyword.ofWord? token.text with
  | none => rfl
  | some word => cases word <;> rfl

end Pending

lemma MembersAlike.actions_alike {afterDot : Bool}
    (halike : MembersAlike related line afterDot tokens others)
    (hpend : Pending.Alike related line tokens others pending second)
    (hdot : afterDot → pending = .inside ∨ pending = .comment) :
    Forall₂ (TokenAction.Alike related line) (pending.actions tokens) (second.actions others) := by
  induction halike generalizing pending second with
  | nil => exact Pending.atEnd_alike hpend
  | cons htoken hasg hisDot _ ih =>
    obtain ⟨hacts, hnext⟩ := Pending.read_alike htoken hasg hpend
    refine rel_append hacts (ih hnext fun hmbr => ?_)
    exact Pending.read_dot (hisDot hmbr).1 (hisDot hmbr).2 _ _
  | member hmbr hren hreading _ ih =>
    obtain rfl | rfl := hdot rfl
    · cases hpend
      have hsame := Pending.readPlain_eq hren
      rw [← hreading.act, ← hreading.opens, ← Pending.readPlain_eq hmbr] at hsame
      obtain ⟨hacts, hnext⟩ := Pending.token?_readPlain _
      unfold Pending.actions Pending.read
      rw [hsame]
      exact rel_append (forall₂_same.mpr fun action hac =>
        .same (hacts action hac)) (ih (.same hnext) (by simp))
    · cases hpend
      rw [actions_comment, actions_comment]
      exact .nil

namespace ScanState

variable {state other : ScanState}

lemma Agrees.perform (hagr : state.Agrees related view other) {action second : TokenAction}
    (halike : TokenAction.Alike related line action second) :
    (state.perform line action).Agrees related view (other.perform line second) := by
  cases halike with
  | declare htext exported => exact hagr.declareVariable line htext exported
  | count htext => exact hagr.declareImplicit line htext
  | assign htext hrelated => exact hagr.recordAssignment line htext hrelated
  | same hnone =>
    cases action with
    | openBlock kind => exact hagr.pushBlock line kind
    | closeBlock kind => exact hagr.popBlock kind
    | endMethod kind => exact hagr.terminate line kind
    | _ => cases hnone

lemma Agrees.processMembers (hagr : state.Agrees related view other) (atStart : Bool)
    (halike : MembersAlike related line false tokens others) :
    (state.processTokens line atStart tokens).Agrees related view
      (other.processTokens line atStart others) := by
  have hpend : (if atStart then Pending.statement else .inside).token? = none := by
    cases atStart <;> rfl
  have hacts := halike.actions_alike (.same hpend) (by simp)
  rw [processTokens_eq_foldl, processTokens_eq_foldl]
  exact rel_foldl (fun _ _ hstates _ _ hac => hstates.perform hac) hagr hacts

/-! ## Lines that are passed over -/

variable (hagr : state.Agrees related view other) (number : Nat)
include hagr

lemma Agrees.addDirective (kind : DirectiveKind) (text : List Char) :
    (state.addDirective kind number text).Agrees related view (other.addDirective kind number text) :=
  { hagr with
    table := { hagr.table with directives := congrArg (· ++ _) hagr.table.directives } }

lemma Agrees.withFrames (frames : List Frame) :
    Agrees related view { state with frames } { other with frames } :=
  { hagr with frames := rfl }

lemma Agrees.withComments (comments : List (List Char)) :
    Agrees related view { state with comments } { other with comments } :=
  { hagr with comments := rfl }

lemma Agrees.withDirective (directive : Option String) :
    Agrees related view { state with directive } { other with directive } :=
  { hagr with directive := rfl }

lemma Agrees.directiveLine (trimmed : List Char) :
    (state.directiveLine number trimmed).Agrees related view (other.directiveLine number trimmed) := by
  unfold ScanState.directiveLine
  simp only
  split
  · exact (hagr.withDirective _).addDirective number _ _
  · exact hagr.addDirective number _ _

lemma Agrees.closeRegion :
    (state.closeRegion number).Agrees related view (other.closeRegion number) := by
  unfold ScanState.closeRegion
  rw [hagr.frames]
  split
  next => exact hagr.addIssue number _
  next above frame below _ =>
    have hshut := (hagr.withFrames below).addIssues (above.map Frame.line) .unclosedRegion
    exact { hshut with
        table := { hshut.table with regions := congrArg (· ++ _) hshut.table.regions } }

lemma Agrees.closeConditional :
    (state.closeConditional number).Agrees related view (other.closeConditional number) := by
  unfold ScanState.closeConditional
  rw [hagr.frames]
  split
  · exact hagr.addIssue number _
  · exact hagr.withFrames _

lemma Agrees.preprocessorLine (trimmed : List Char) :
    (state.preprocessorLine number trimmed).Agrees related view
      (other.preprocessorLine number trimmed) := by
  unfold ScanState.preprocessorLine
  simp only [hagr.frames]
  split
  · exact (hagr.withFrames _).addDirective number _ _
  · exact (hagr.closeRegion number).addDirective number _ _
  · exact (hagr.withFrames _).addDirective number _ _
  · exact (hagr.closeConditional number).addDirective number _ _
  · exact hagr.addDirective number _ _
  · exact hagr.addDirective number _ _

lemma Agrees.passLine {line second : List Char} (htrim : trim line = trim second)
    (hcom : trim line ≠ [] → view.comment line = view.comment second) :
    (state.passLine number line).Agrees related view (other.passLine number second) := by
  unfold ScanState.passLine
  simp only [← htrim]
  split_ifs with hblank
  · exact hagr.withComments []
  · refine { hagr with comments := ?_ }
    rw [map_append, map_append, hagr.comments, map_singleton, map_singleton, hcom hblank]
  · exact hagr.directiveLine number _
  · exact (hagr.preprocessorLine number _).withComments []

/-! ## After the last line -/

lemma Agrees.finishFrame (frame : Frame) :
    (finishFrame lastLine state frame).Agrees related view (finishFrame lastLine other frame) := by
  have hissue := hagr.addIssue frame.line .unclosedRegion
  unfold ScanState.finishFrame
  cases frame with
  | region name line =>
    exact { hissue with
        table := { hissue.table with regions := congrArg (· ++ _) hissue.table.regions } }
  | conditional line => exact hissue

lemma Agrees.finishFrames (frames : List Frame) :
    (frames.foldl (ScanState.finishFrame lastLine) state).Agrees related view
      (frames.foldl (ScanState.finishFrame lastLine) other) := by
  induction frames generalizing state other with
  | nil => exact hagr
  | cons frame frames ih => exact ih (hagr.finishFrame lastLine frame)

lemma Agrees.finish : (state.finish lastLine).AgreesIn related view (other.finish lastLine) := by
  have habandoned := hagr.abandonMethod lastLine
  have hfinished := habandoned.finishFrames lastLine (state.abandonMethod lastLine).frames.reverse
  unfold ScanState.finish
  simp only [← habandoned.frames]
  exact { hfinished.table with regions := by rw [hfinished.table.regions] }

end ScanState

lemma agreesIn_parseModule
    {text other : String} (hlen : (moduleLines text).length = (moduleLines other).length)
    (hscan : ∀ first second : ScanState, first.inString = false → first.Agrees related view second →
      (first.scanLines 0 (moduleLines text)).Agrees related view
        (second.scanLines 0 (moduleLines other))) (file : Path) (dialect : Dialect) :
    (parseModule file dialect text).AgreesIn related view (parseModule file dialect other) := by
  let start (text : String) : ScanState :=
    { table := { file, dialect, text := String.ofList (dropByteOrderMark text.toList) } }
  have htable : (start text).table.AgreesIn related view (start other).table :=
    ⟨rfl, rfl, rfl, rfl, rfl, .nil, .nil, rfl, rfl, rfl⟩
  have hscanned := hscan (start text) (start other) rfl ⟨htable, rfl, rfl, rfl, rfl, .none⟩
  change (ScanState.finish _ _).AgreesIn related view
    (ScanState.finish ((start other).scanLines 0 (moduleLines other))
      ((moduleLines other).length - 1))
  rw [← hlen]
  exact hscanned.finish _

end

end BslInsight
