import BslInsight.Proofs.ScanInvariant
import Mathlib.Data.List.Pairwise

/-!
# The lines of a module table

Everything that a table records lies on lines of the text, in the order of the text, and its
methods do not overlap.  All that was read since the header of a method lies between its first and
its last line.
-/

namespace BslInsight

open List

variable {more lines place : Nat} {method : OpenMethod} {symbol : Symbol} {scope : MethodScope}
  {table : ModuleTable}

/-- What a method declares and assigns lies on its lines, and its locals and
assignments are in the order of the text. -/
structure Encloses (first last : Nat) (params locals : List Symbol)
    (assignments : List Assignment) : Prop where
  params_within : ∀ param ∈ params, param.range.endLine = param.range.startLine ∧
      first ≤ param.range.startLine ∧ param.range.startLine ≤ last
  locals_within : ∀ symbol ∈ locals, symbol.range.endLine = symbol.range.startLine ∧
      first ≤ symbol.range.startLine ∧ symbol.range.startLine ≤ last
  locals_sorted : locals.Pairwise fun earlier later =>
      earlier.range.startLine ≤ later.range.startLine
  assignments_within : ∀ assignment ∈ assignments, first ≤ assignment.line ∧ assignment.line ≤ last
  assignments_sorted : assignments.Pairwise fun earlier later => earlier.line ≤ later.line

structure ModuleTable.LaidOut (table : ModuleTable) (lines : Nat) : Prop where
  symbols : ∀ symbol ∈ table.symbols, symbol.range.startLine ≤ symbol.range.endLine ∧
      symbol.range.endLine < lines
  symbols_sorted : table.symbols.Pairwise fun earlier later =>
      earlier.range.startLine ≤ later.range.startLine
  scopes : ∀ scope ∈ table.scopes, scope.startLine ≤ scope.endLine ∧ scope.endLine < lines ∧
        Encloses scope.startLine scope.endLine scope.params scope.locals scope.assignments
  scopes_apart : table.scopes.Pairwise fun earlier later => earlier.endLine < later.startLine
  directives : ∀ directive ∈ table.directives, directive.line < lines
  directives_sorted : table.directives.Pairwise fun earlier later => earlier.line < later.line
  issues : ∀ issue ∈ table.issues, issue.line < lines

/-- An open method began after everything that is recorded. -/
structure OpenMethod.LaidOut (method : OpenMethod) (read : Nat) (table : ModuleTable) : Prop where
  start : method.symbol.range.startLine < read
  encloses : Encloses method.symbol.range.startLine (read - 1) method.params
      method.locals method.assignments
  blocks : ∀ block ∈ method.blocks, block.line < read
  after_symbols : ∀ symbol ∈ table.symbols, symbol.range.startLine ≤ method.symbol.range.startLine
  after_scopes : ∀ scope ∈ table.scopes, scope.endLine < method.symbol.range.startLine

structure ScanState.LaidOut (read : Nat) (state : ScanState) : Prop where
  table : state.table.LaidOut read
  frames : ∀ frame ∈ state.frames, frame.line < read
  current : ∀ method, state.current = some method → method.LaidOut read state.table

/-! ## More lines -/

lemma Encloses.mono {first last : Nat} {params locals : List Symbol}
    {assignments : List Assignment} (hlines : Encloses first last params locals assignments)
    (hmore : last ≤ more) : Encloses first more params locals assignments where
  params_within := fun param hparam => by
    have hold := hlines.params_within param hparam
    omega
  locals_within := fun symbol hsym => by
    have hold := hlines.locals_within symbol hsym
    omega
  locals_sorted := hlines.locals_sorted
  assignments_within := fun assignment hasgm => by
    have hold := hlines.assignments_within assignment hasgm
    omega
  assignments_sorted := hlines.assignments_sorted

lemma ModuleTable.LaidOut.mono (htable : table.LaidOut lines) (hmore : lines ≤ more) :
    table.LaidOut more where
  symbols := fun symbol hsym => by
    have hold := htable.symbols symbol hsym
    omega
  symbols_sorted := htable.symbols_sorted
  scopes := fun scope hscope => by
    obtain ⟨horder, hend, hlines⟩ := htable.scopes scope hscope
    exact ⟨horder, Nat.lt_of_lt_of_le hend hmore, hlines⟩
  scopes_apart := htable.scopes_apart
  directives := fun directive hdir => Nat.lt_of_lt_of_le (htable.directives directive hdir) hmore
  directives_sorted := htable.directives_sorted
  issues := fun issue hissue => Nat.lt_of_lt_of_le (htable.issues issue hissue) hmore

namespace ScanState

variable {state : ScanState} {read line : Nat}

variable (hstate : state.LaidOut read)
include hstate

lemma LaidOut.mono (hmore : read ≤ more) : state.LaidOut more where
  table := hstate.table.mono hmore
  frames := fun frame hframe => Nat.lt_of_lt_of_le (hstate.frames frame hframe) hmore
  current := fun method hmeth => by
    have hcur := hstate.current method hmeth
    exact {
      start := Nat.lt_of_lt_of_le hcur.start hmore
      encloses := hcur.encloses.mono (Nat.sub_le_sub_right hmore 1)
      blocks := fun block hblock => Nat.lt_of_lt_of_le (hcur.blocks block hblock) hmore
      after_symbols := hcur.after_symbols
      after_scopes := hcur.after_scopes }

lemma LaidOut.lt_of_hasOpenLine (hplace : state.HasOpenLine place) : place < read := by
  rcases hplace with
    ⟨method, hmeth, rfl | ⟨block, hblock, rfl⟩⟩ | ⟨frame, hframe, rfl⟩
  · exact (hstate.current method hmeth).start
  · exact (hstate.current method hmeth).blocks block hblock
  · exact hstate.frames frame hframe

lemma LaidOut.withTable (htable : table.LaidOut read)
    (hsyms : table.symbols = state.table.symbols) (hscps : table.scopes = state.table.scopes) :
    ({ state with table } : ScanState).LaidOut read where
  table := htable
  frames := hstate.frames
  current := fun method hmeth => by
    have hcur := hstate.current method hmeth
    exact { hcur with
      after_symbols := hsyms ▸ hcur.after_symbols
      after_scopes := hscps ▸ hcur.after_scopes }

lemma LaidOut.withCurrent (hmeth : method.LaidOut read state.table) :
    ({ state with current := some method } : ScanState).LaidOut read where
  table := hstate.table
  frames := hstate.frames
  current := fun _ hoth => Option.some.inj hoth ▸ hmeth

end ScanState

/-! ## One more entry -/

section Encloses

variable {first last : Nat} {params locals : List Symbol} {assignments : List Assignment}
  (hlines : Encloses first last params locals assignments) (hfirst : first ≤ last)

include hlines hfirst

lemma Encloses.declareLocal (hstart : symbol.range.startLine = last)
    (hend : symbol.range.endLine = last) :
    Encloses first last params (locals ++ [symbol]) assignments where
  params_within := hlines.params_within
  locals_within := forall_mem_concat hlines.locals_within (by omega)
  locals_sorted := pairwise_concat hlines.locals_sorted fun earlier hearl => by
    have hold := hlines.locals_within earlier hearl
    omega
  assignments_within := hlines.assignments_within
  assignments_sorted := hlines.assignments_sorted

lemma Encloses.assign {assignment : Assignment} (hline : assignment.line = last) :
    Encloses first last params locals (assignments ++ [assignment]) where
  params_within := hlines.params_within
  locals_within := hlines.locals_within
  locals_sorted := hlines.locals_sorted
  assignments_within := forall_mem_concat hlines.assignments_within (by omega)
  assignments_sorted := pairwise_concat hlines.assignments_sorted fun earlier hearl => by
      have hold := hlines.assignments_within earlier hearl
      omega

end Encloses

namespace ModuleTable.LaidOut

variable {table : ModuleTable} {read : Nat} (htable : table.LaidOut read)

include htable

lemma addIssue {issue : Issue} (hissue : issue.line < read) :
    ({ table with issues := table.issues ++ [issue] } : ModuleTable).LaidOut read :=
  { htable with issues := forall_mem_concat htable.issues hissue }

lemma addDirective {directive : Directive} (hline : directive.line = read) :
    ({ table with directives := table.directives ++ [directive] } :
      ModuleTable).LaidOut (read + 1) := by
  have hnext := htable.mono (Nat.le_succ read)
  refine { hnext with
    directives := forall_mem_concat hnext.directives (by omega)
    directives_sorted := ?_ }
  apply pairwise_concat htable.directives_sorted
  intro earlier hearl
  rw [hline]
  exact htable.directives earlier hearl

lemma addSymbol (hafter : ∀ earlier ∈ table.symbols,
      earlier.range.startLine ≤ symbol.range.startLine)
    (horder : symbol.range.startLine ≤ symbol.range.endLine) (hend : symbol.range.endLine < read)
    (moduleVariables : List String) (methodIndex : List (String × Nat)) :
    ({ table with
        symbols := table.symbols ++ [symbol]
        moduleVariables
        methodIndex } : ModuleTable).LaidOut read :=
  { htable with
    symbols := forall_mem_concat htable.symbols ⟨horder, hend⟩
    symbols_sorted := pairwise_concat htable.symbols_sorted hafter }

lemma addScope (hafter : ∀ earlier ∈ table.scopes, earlier.endLine < scope.startLine)
    (horder : scope.startLine ≤ scope.endLine) (hend : scope.endLine < read)
    (hlines : Encloses scope.startLine scope.endLine scope.params scope.locals scope.assignments) :
    ({ table with scopes := table.scopes ++ [scope] } : ModuleTable).LaidOut read :=
  { htable with
    scopes := forall_mem_concat htable.scopes ⟨horder, hend, hlines⟩
    scopes_apart := pairwise_concat htable.scopes_apart hafter }

end ModuleTable.LaidOut

/-! ## The invariant -/

namespace ScanState

variable {state : ScanState} {line : Nat}

lemma LaidOut.closeMethod (hstate : state.LaidOut (line + 1))
    (hcur : state.current = some method) : (state.closeMethod line).LaidOut (line + 1) := by
  have hmeth := hstate.current method hcur
  -- A method starts on a line that was read, so that it ends where it is closed.
  have hend := Nat.max_eq_left (Nat.le_of_lt_succ hmeth.start)
  let symbol := method.closedSymbol line
  let scope := method.closedScope state.table.symbols.length line
  have horder : method.symbol.range.startLine ≤
      max line method.symbol.range.startLine := Nat.le_max_right _ _
  have hread : max line method.symbol.range.startLine < line + 1 := by
    rw [hend]
    exact Nat.lt_succ_self line
  have hsyms : ∀ earlier ∈ state.table.symbols,
      earlier.range.startLine ≤ symbol.range.startLine := hmeth.after_symbols
  have hscps : ∀ earlier ∈ state.table.scopes,
      earlier.endLine < scope.startLine := hmeth.after_scopes
  have hlines : Encloses scope.startLine scope.endLine scope.params scope.locals
      scope.assignments :=
    hmeth.encloses.mono (Nat.le_max_left _ _)
  have htable := (hstate.table.addSymbol hsyms horder hread state.table.moduleVariables
    ((symbol.lowerName, state.table.symbols.length) ::
      state.table.methodIndex.filter (·.1 != symbol.lowerName))).addScope hscps horder hread hlines
  rw [closeMethod_of_current hcur]
  exact ⟨htable, hstate.frames, nofun⟩

lemma LaidOut.lt_of_place (hstate : state.LaidOut (line + 1))
    (hplace : place = line ∨ state.HasOpenLine place) : place < line + 1 := by
  rcases hplace with rfl | hopen
  · exact Nat.lt_succ_self _
  · exact hstate.lt_of_hasOpenLine hopen

lemma LaidOut.move {before after : ScanState} (hmove : ScanMove origin line before after)
    (hbef : before.LaidOut (line + 1)) : after.LaidOut (line + 1) := by
  cases hmove with
  | note inString comments directive => exact { hbef with }
  | issue kind hplace =>
    have hline := hbef.lt_of_place hplace
    exact hbef.withTable (hbef.table.addIssue hline) rfl rfl
  | region regions => exact hbef.withTable { hbef.table with } rfl rfl
  | frames hfrs =>
    refine { hbef with frames := ?_ }
    intro frame hframe
    rcases hfrs frame hframe with hold | hnew
    · exact hbef.frames frame hold
    · omega
  | blocks hcur hblocs =>
    have hmeth := hbef.current _ hcur
    refine hbef.withCurrent { hmeth with blocks := ?_ }
    intro block hblock
    rcases hblocs block hblock with hold | hnew
    · exact hmeth.blocks block hold
    · omega
  | declareLocal hcur hstart hend =>
    have hmeth := hbef.current _ hcur
    have hlines := hmeth.encloses.declareLocal (Nat.le_of_lt_succ hmeth.start) hstart hend
    exact hbef.withCurrent { hmeth with encloses := hlines }
  | declareVariable hcur hkind hstart hend =>
    have hafter : ∀ earlier ∈ before.table.symbols, earlier.range.startLine ≤ line := by
      intro earlier hearl
      have hold := hbef.table.symbols earlier hearl
      omega
    rw [← hstart] at hafter
    refine ⟨hbef.table.addSymbol hafter (by omega) (by omega) _ _, hbef.frames, ?_⟩
    intro method hmeth
    rw [hcur] at hmeth
    cases hmeth
  | assign hcur hline =>
    have hmeth := hbef.current _ hcur
    have hlines := hmeth.encloses.assign (Nat.le_of_lt_succ hmeth.start) hline
    exact hbef.withCurrent { hmeth with encloses := hlines }
  | assignOutside hcur hline => exact hbef.withTable { hbef.table with } rfl rfl
  | close hcur => exact hbef.closeMethod hcur

lemma LaidOut.openMethod {file : Path} {first last : Nat} (hstate : state.LaidOut first)
    (hlast : first ≤ last) (hopens : method.OpensAt file first last) :
    ({ state with current := some method } : ScanState).LaidOut (last + 1) := by
  have hread : first ≤ last + 1 := Nat.le_succ_of_le hlast
  have hlines : Encloses method.symbol.range.startLine last method.params
      method.locals method.assignments := by
    rw [hopens.start, hopens.locals, hopens.assignments]
    refine ⟨?_, nofun, .nil, nofun, .nil⟩
    intro param hparam
    obtain ⟨hfirst, hbef, hline⟩ := hopens.params param hparam
    exact ⟨hline, hfirst, hbef⟩
  refine ⟨hstate.table.mono hread, ?_, ?_⟩
  · intro frame hframe
    exact Nat.lt_of_lt_of_le (hstate.frames frame hframe) hread
  · intro other hoth
    obtain rfl := Option.some.inj hoth
    refine ⟨?_, hlines, ?_, ?_, ?_⟩
    · rw [hopens.start]
      exact Nat.lt_succ_of_le hlast
    · rw [hopens.blocks]
      nofun
    · intro symbol hsym
      have hbef := hstate.table.symbols symbol hsym
      rw [hopens.start]
      omega
    · intro scope hscope
      rw [hopens.start]
      exact (hstate.table.scopes scope hscope).2.1

lemma LaidOut.addDirective {number : Nat} (hstate : state.LaidOut number) (kind : DirectiveKind)
    (text : List Char) : (state.addDirective kind number text).LaidOut (number + 1) := by
  have hnext := hstate.mono (Nat.le_succ number)
  exact hnext.withTable (hstate.table.addDirective rfl) rfl rfl

lemma scanInvariant_laidOut : ScanInvariant fun read state => state.LaidOut read where
  mono := fun hstate hmore => hstate.mono hmore
  move := LaidOut.move
  directive := fun kind text hstate => hstate.addDirective kind text
  opening := fun hstate _ hlast hopens => hstate.openMethod hlast hopens

end ScanState

lemma ModuleTable.LaidOut.eq_of_containsLine {line : Nat} (htable : table.LaidOut lines)
    {other : MethodScope} (hscope : scope ∈ table.scopes) (hoth : other ∈ table.scopes)
    (hline : scope.containsLine line) (hotherLine : other.containsLine line) :
    scope = other := by
  simp only [MethodScope.containsLine, Bool.and_eq_true, decide_eq_true_eq] at hline hotherLine
  by_contra hne
  let apart (left right : MethodScope) : Prop :=
    left.endLine < right.startLine ∨ right.endLine < left.startLine
  have hsymm : Std.Symm apart := ⟨fun _ _ hleft => hleft.symm⟩
  have hapart : table.scopes.Pairwise apart := htable.scopes_apart.imp .inl
  rcases hapart.forall hscope hoth hne with hbelow | habove
  · omega
  · omega

lemma ModuleTable.LaidOut.scopeAt?_eq_some_iff (htable : table.LaidOut lines) (line : Nat)
    (scope : MethodScope) :
    table.scopeAt? line = some scope ↔ scope ∈ table.scopes ∧ scope.containsLine line := by
  constructor
  · intro hfound
    rw [scopeAt?] at hfound
    have hline := find?_some hfound
    exact ⟨mem_of_find?_eq_some hfound, hline⟩
  · rintro ⟨hscope, hline⟩
    cases hfound : table.scopeAt? line with
    | none =>
      have hnone := find?_eq_none.mp hfound scope hscope
      exact absurd hline hnone
    | some found =>
      have hfoundScope := mem_of_find?_eq_some hfound
      have hfoundLine := find?_some hfound
      rw [htable.eq_of_containsLine hscope hfoundScope hline hfoundLine]

/-- The table of every text is laid out on the lines of the text, of which there
is one more than line breaks. -/
theorem parseModule_laidOut (file : Path) (dialect : Dialect) (text : String) :
    (parseModule file dialect text).LaidOut (text.toList.count '\n' + 1) ∧
      ∀ line scope, (parseModule file dialect text).scopeAt? line = some scope ↔
        scope ∈ (parseModule file dialect text).scopes ∧ scope.containsLine line = true := by
  obtain ⟨state, hstate, -, htable⟩ := ScanState.scanInvariant_laidOut.parseModule
      (fun file dialect text => by
        refine ⟨?_, nofun, nofun⟩
        constructor <;> simp)
      file dialect text
  have hlaidOut := htable ▸ hstate.table
  exact ⟨hlaidOut, hlaidOut.scopeAt?_eq_some_iff⟩

end BslInsight
