import BslInsight.Proofs.ScanAgreement

/-!
# The lists of names of a module

The lists of names in a table depend on nothing but the headers, parameter lists and tokens of the
lines that the scanner visits.  Where a line stands and what is assigned does not matter.
-/

namespace BslInsight

open List

variable {related : Assignment → Assignment → Prop}

structure ModuleNames where
  symbols : List (String × SymbolKind × Bool) := []
  moduleVariables : List String := []
  methods : List (List String × List String) := []
deriving DecidableEq

/-- The symbols by name, kind and export, the variables, and the locals and assignments of
each method. -/
def ModuleTable.names (table : ModuleTable) : ModuleNames where
  symbols := table.symbols.map fun symbol => (symbol.name, symbol.kind, symbol.exported)
  moduleVariables := table.moduleVariables
  methods := table.scopes.map fun scope =>
    (scope.locals.map (·.name), scope.assignments.map (·.name))

structure MethodNames where
  symbol : String × SymbolKind × Bool
  params : List String
  locals : List String := []
  assignments : List String := []

structure NamesRead where
  names : ModuleNames := {}
  closed : List (List String × List String) := []
  current : Option MethodNames := none

namespace NamesRead

def close (read : NamesRead) : NamesRead := match read.current with
  | none => read
  | some method =>
    { names := { read.names with
        symbols := read.names.symbols ++ [method.symbol]
        methods := read.names.methods ++ [(method.locals, method.assignments)] }
      closed := read.closed ++ [(method.params, method.locals)] }

def declare (read : NamesRead) (name : String) (exported : Bool) : NamesRead :=
  match read.current with
  | none =>
    { read with names := { read.names with
        symbols := read.names.symbols ++ [(name, .variable, exported)]
        moduleVariables := read.names.moduleVariables ++ [name] } }
  | some method => { read with current := some { method with locals := method.locals ++ [name] } }

def count (read : NamesRead) (name : String) : NamesRead := match read.current with
  | none => read
  | some method =>
    let known := read.names.moduleVariables ++ method.params ++ method.locals
    if known.any (lower · == lower name) then read
    else { read with current := some { method with locals := method.locals ++ [name] } }

def assign (read : NamesRead) (name : String) : NamesRead :=
  let read := read.count name
  { read with current := read.current.map fun method =>
      { method with assignments := method.assignments ++ [name] } }

def perform (read : NamesRead) : TokenAction → NamesRead
  | .declare token exported => read.declare token.text exported
  | .count token => read.count token.text
  | .assign target _ => read.assign target.text
  | .endMethod _ => read.close
  | _ => read

def begin (read : NamesRead) (header : Header) (list : ParamList) (tokens : List Token) :
    NamesRead :=
  let method : MethodNames :=
    { symbol := (header.name, header.kind, ScanState.leadsWithExport tokens)
      params := (parseParams list.text).map (·.name) }
  { read.close with current := some method }

def follow (read : NamesRead) (reading : Option (Header × ParamList) × List Token) : NamesRead :=
  match reading.1 with
  | none => (Pending.statement.actions reading.2).foldl perform read
  | some (header, list) =>
    (Pending.statement.actions (ScanState.afterExport reading.2)).foldl perform
      (read.begin header list reading.2)

lemma perform_eq_of_alike {line : Nat} {action other : TokenAction}
    (halike : TokenAction.Alike related line action other) (read : NamesRead) :
    read.perform action = read.perform other := by
  cases halike with
  | declare htext | count htext | assign htext => simp only [perform, htext]
  | same => rfl

lemma foldl_perform_eq_of_alike {line : Nat} {actions others : List TokenAction}
    (halike : Forall₂ (TokenAction.Alike related line) actions others) (read : NamesRead) :
    actions.foldl perform read = others.foldl perform read := by
  induction halike generalizing read with
  | nil => rfl
  | cons hac _ ih => rw [foldl_cons, foldl_cons, perform_eq_of_alike hac, ih]

end NamesRead

def LineVisit.reading (visit : LineVisit) : Option (Header × ParamList) × List Token :=
  (visit.header?.map fun header =>
    (header, ParamList.read (visit.line.drop header.paramsStart) visit.following), visit.lexed.1)

def MethodScope.names (scope : MethodScope) : List String × List String :=
  (scope.params.map (·.name), scope.locals.map (·.name))

def OpenMethod.names (method : OpenMethod) : MethodNames where
  symbol := (method.symbol.name, method.symbol.kind, method.symbol.exported)
  params := method.params.map (·.name)
  locals := method.locals.map (·.name)
  assignments := method.assignments.map (·.name)

namespace ScanState

def namesRead (state : ScanState) : NamesRead where
  names := state.table.names
  closed := state.table.scopes.map MethodScope.names
  current := state.current.map OpenMethod.names

variable (state : ScanState) (line : Nat)

lemma namesRead_closeMethod : (state.closeMethod line).namesRead = state.namesRead.close := by
  cases hcur : state.current with
  | none => simp [closeMethod, hcur, namesRead, NamesRead.close]
  | some method =>
    rw [closeMethod_of_current hcur]
    simp [namesRead, NamesRead.close, hcur, ModuleTable.names, OpenMethod.names,
      OpenMethod.closedSymbol, OpenMethod.closedScope, MethodScope.names]

lemma namesRead_abandonMethod : (state.abandonMethod line).namesRead = state.namesRead.close := by
  unfold abandonMethod
  split
  next hcur => simp [namesRead, NamesRead.close, hcur]
  next => exact namesRead_closeMethod (state.addIssue _ _) line

lemma namesRead_terminate (kind : SymbolKind) :
    (state.terminate line kind).namesRead = state.namesRead.close := by
  unfold terminate
  split
  next hcur => simp [addIssue, namesRead, NamesRead.close, hcur, ModuleTable.names]
  next =>
    simp only [namesRead_closeMethod]
    split <;> rfl

lemma namesRead_pushBlock (kind : BlockKind) :
    (state.pushBlock kind line).namesRead = state.namesRead := by
  unfold pushBlock
  split
  next => rfl
  next method hcur => simp [namesRead, hcur, OpenMethod.names]

lemma namesRead_popBlock (kind : BlockKind) :
    (state.popBlock kind).namesRead = state.namesRead := by
  unfold popBlock
  split
  next => rfl
  next method hcur =>
    split
    · rfl
    · simp [namesRead, hcur, OpenMethod.names, addIssues, ModuleTable.names]

lemma namesRead_declareImplicit (token : Token) :
    (state.declareImplicit line token).namesRead = state.namesRead.count token.text := by
  unfold declareImplicit NamesRead.count
  cases hcur : state.current with
  | none => simp [namesRead, hcur]
  | some method =>
    have hknown : (state.table.moduleVariables ++ method.names.params ++ method.names.locals).any
        (lower · == lower token.text) =
          (state.table.moduleVariables.any (lower · == lower token.text) ||
            method.knows (lower token.text)) := by
      simp only [OpenMethod.names, any_append, any_map, OpenMethod.knows, Bool.or_assoc]
      rfl
    simp only [namesRead, hcur, Option.map_some, ModuleTable.names, hknown]
    split <;> simp [hcur, OpenMethod.names]

lemma namesRead_declareVariable (token : Token) (exported : Bool) :
    (state.declareVariable line token exported).namesRead =
      state.namesRead.declare token.text exported := by
  unfold declareVariable NamesRead.declare
  cases hcur : state.current with
  | none => simp [namesRead, hcur, ModuleTable.names]
  | some method => simp [namesRead, hcur, ModuleTable.names, OpenMethod.names]

lemma namesRead_recordAssignment (target : Token) (right : List Token) :
    (state.recordAssignment line target right).namesRead = state.namesRead.assign target.text := by
  rw [NamesRead.assign, ← namesRead_declareImplicit state line, recordAssignment_eq, addAssignment]
  generalize state.declareImplicit line target = declared
  cases hcur : declared.current with
  | none => simp [namesRead, hcur, ModuleTable.names]
  | some method => simp [namesRead, hcur, OpenMethod.names, assignmentOf]

lemma namesRead_perform (action : TokenAction) :
    (state.perform line action).namesRead = state.namesRead.perform action := by
  cases action with
  | declare token exported => exact state.namesRead_declareVariable line token exported
  | count token => exact state.namesRead_declareImplicit line token
  | assign target right => exact state.namesRead_recordAssignment line target right
  | openBlock kind => exact state.namesRead_pushBlock line kind
  | closeBlock kind => exact state.namesRead_popBlock kind
  | endMethod kind => exact state.namesRead_terminate line kind

lemma namesRead_processTokens (tokens : List Token) :
    (state.processTokens line true tokens).namesRead =
      (Pending.statement.actions tokens).foldl NamesRead.perform state.namesRead := by
  rw [processTokens_eq_foldl, if_pos rfl]
  symm
  exact foldl_hom namesRead fun state action => (state.namesRead_perform line action).symm

lemma FramedFrom.namesRead_eq {before after : ScanState} (hframed : before.FramedFrom after) :
    after.namesRead = before.namesRead := by
  obtain ⟨reports, -, hafter⟩ := hframed
  rw [hafter]
  rfl

lemma names_headerMethod (number : Nat) (line : List Char) (header : Header) (list : ParamList)
    (following : List (List Char)) (tokens : List Token) :
    (state.headerMethod number line header list following tokens).names =
      { symbol := (header.name, header.kind, leadsWithExport tokens)
        params := (parseParams list.text).map (·.name) } := by
  simp only [OpenMethod.names, headerMethod, paramSymbols, map_map]
  rfl

lemma namesRead_scanLine (number : Nat) (line : List Char) (following : List (List Char)) :
    (state.scanLine number line following).1.namesRead = state.namesRead.follow
        (LineVisit.mk number state.inString line following).reading := by
  refine scanLine_cases state number line following ?_ ?_ ?_
  · intro visit _ hhdr hlexed
    rw [(framedFrom_passLine number).namesRead_eq, NamesRead.follow, LineVisit.reading, hlexed,
      hhdr]
    rfl
  · intro header visit hstr hhdr
    let list := ParamList.read (line.drop header.paramsStart) following
    have hbef : (state.beforeMethod number list).namesRead = state.namesRead.close := by
      unfold beforeMethod
      simp only
      split
      · exact state.namesRead_abandonMethod _
      · exact state.namesRead_abandonMethod _
    rw [NamesRead.follow, LineVisit.reading, hhdr, LineVisit.lexed_of_header hhdr, beginMethod_eq]
    simp only [Option.map_some, inString_beforeMethod, hstr, namesRead_processTokens]
    rw [NamesRead.begin, ← hbef]
    congr 1
    exact congrArg (fun method => NamesRead.mk _ _ (some method)) (names_headerMethod _ _ _ _ _ _ _)
  · intro comments directive visit hhdr hlexed
    rw [NamesRead.follow, LineVisit.reading, hlexed, hhdr]
    exact namesRead_processTokens { state with inString := (lexLine state.inString line).2 } _ _

lemma names_finish (lastLine : Nat) : (state.finish lastLine).names = state.namesRead.close.names ∧
      (state.finish lastLine).scopes.map MethodScope.names = state.namesRead.close.closed := by
  have hended := (framedFrom_finishFrames lastLine (state.abandonMethod lastLine).frames.reverse
    (state.abandonMethod lastLine)).namesRead_eq
  rw [← namesRead_abandonMethod state lastLine, ← hended]
  exact ⟨rfl, rfl⟩

end ScanState

lemma exists_namesRead_eq (file : Path) (dialect : Dialect) (text : String) :
    ∃ (state : ScanState) (lastLine : Nat),
      state.namesRead = ((moduleVisits text).map LineVisit.reading).foldl NamesRead.follow {} ∧
        parseModule file dialect text = state.finish lastLine := by
  refine ⟨_, _, ?_, rfl⟩
  rw [foldl_map]
  refine ScanState.scanLines_visits (fun read _ state => state.namesRead = read) _ {}
    (fun _ => break_not_mem_moduleLines) rfl ?_
  rintro ⟨number, _, line, following⟩ - _ before rfl - - rfl
  exact before.namesRead_scanLine number line following

variable (file : Path) (dialect : Dialect) (text : String)

lemma names_parseModule : (parseModule file dialect text).names =
      (((moduleVisits text).map LineVisit.reading).foldl NamesRead.follow {}).close.names := by
  obtain ⟨state, lastLine, hread, htable⟩ := exists_namesRead_eq file dialect text
  rw [htable, ← hread]
  exact (state.names_finish lastLine).1

lemma scopes_names_parseModule : (parseModule file dialect text).scopes.map MethodScope.names =
      (((moduleVisits text).map LineVisit.reading).foldl NamesRead.follow {}).close.closed := by
  obtain ⟨state, lastLine, hread, htable⟩ := exists_namesRead_eq file dialect text
  rw [htable, ← hread]
  exact (state.names_finish lastLine).2

end BslInsight
