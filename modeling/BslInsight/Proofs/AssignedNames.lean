import BslInsight.Proofs.AssignmentLines
import BslInsight.Proofs.CompletionAgreement
import BslInsight.Proofs.NameLists

/-!
# Assigned names are known

A method knows every name that it assigns to: a variable of the module above it, a parameter, or a
local, which the assignment itself declares.  So the name is found where it is assigned.  Only a
list of variables can give a name to two locals.
-/

namespace BslInsight

open List

variable {symbol : Symbol} {names : List String}
  {params locals : List Symbol} {assignments : List Assignment} {line : Nat}

/-! ## The names that a method assigns to -/

def AssignsKnown (names : List String) (params locals : List Symbol)
    (assignments : List Assignment) : Prop :=
  ∀ assignment ∈ assignments, (∃ name ∈ names, lower name = lower assignment.name) ∨
    ∃ symbol, (symbol ∈ params ∨ symbol ∈ locals ∧ symbol.range.startLine ≤ assignment.line) ∧
      symbol.lowerName = lower assignment.name

lemma AssignsKnown.mono (hknown : AssignsKnown names params locals assignments)
    {moreNames : List String} (hnames : names ⊆ moreNames)
    {moreLocals : List Symbol} (hlocals : locals ⊆ moreLocals) :
    AssignsKnown moreNames params moreLocals assignments := by
  intro assignment hasgm
  rcases hknown assignment hasgm with ⟨name, hname, hlower⟩ | ⟨symbol, hsym, hlower⟩
  · exact .inl ⟨name, hnames hname, hlower⟩
  · exact .inr ⟨symbol, hsym.imp_right fun hlocal => ⟨hlocals hlocal.1, hlocal.2⟩, hlower⟩

namespace ScanState

variable {state before after : ScanState}

structure AssignsKnown (state : ScanState) : Prop where
  scopes : ∀ scope ∈ state.table.scopes, BslInsight.AssignsKnown state.table.moduleVariables
    scope.params scope.locals scope.assignments
  current : ∀ method, state.current = some method → BslInsight.AssignsKnown
    state.table.moduleVariables method.params method.locals method.assignments

lemma AssignsKnown.move (hmove : ScanMove origin line before after) (hlaid : before.LaidOut (line + 1))
    (hbef : before.AssignsKnown) : after.AssignsKnown := by
  cases hmove with
  | note | issue | region | frames | assignOutside => exact ⟨hbef.scopes, hbef.current⟩
  | @blocks method hcur =>
    refine ⟨hbef.scopes, ?_⟩
    rintro _ ⟨⟩
    exact hbef.current method hcur
  | declareLocal hcur =>
    refine ⟨hbef.scopes, ?_⟩
    rintro _ ⟨⟩
    exact (hbef.current _ hcur).mono (List.Subset.refl _) (subset_append_left _ _)
  | declareVariable =>
    have hmore := subset_append_left before.table.moduleVariables
    exact ⟨fun scope hscope => (hbef.scopes scope hscope).mono (hmore _) (List.Subset.refl _),
      fun method hmeth => (hbef.current method hmeth).mono (hmore _) (List.Subset.refl _)⟩
  | @assign method hcur assignment hline hknown =>
    refine ⟨hbef.scopes, ?_⟩
    rintro _ ⟨⟩
    refine forall_mem_concat (hbef.current _ hcur) ?_
    simp only [KnowsName, OpenMethod.knows, Bool.or_eq_true, any_eq_true, beq_iff_eq] at hknown
    rcases hknown with hvar | ⟨param, hparam, hlower⟩ | ⟨symbol, hlocal, hlower⟩
    · exact .inl hvar
    · exact .inr ⟨param, .inl hparam, hlower⟩
    · have hwithin := ((hlaid.current _ hcur).encloses.locals_within symbol hlocal).2.2
      exact .inr ⟨symbol, .inr ⟨hlocal, by omega⟩, hlower⟩
  | close hcur =>
    rw [closeMethod_of_current hcur]
    exact ⟨forall_mem_concat hbef.scopes (hbef.current _ hcur), by simp⟩

lemma scanInvariant_assignsKnown :
    ScanInvariant fun read state => state.LaidOut read ∧ state.AssignsKnown where
  mono := fun hstate hmore => ⟨hstate.1.mono hmore, hstate.2⟩
  move := fun hmove hstate =>
    ⟨scanInvariant_laidOut.move hmove hstate.1, hstate.2.move hmove hstate.1⟩
  directive := fun kind text hstate =>
    ⟨hstate.1.addDirective kind text, ⟨hstate.2.scopes, hstate.2.current⟩⟩
  opening := fun hstate _ hlast hopens => by
    refine ⟨hstate.1.openMethod hlast hopens, hstate.2.scopes, ?_⟩
    rintro _ ⟨⟩
    simp [BslInsight.AssignsKnown, hopens.assignments]

end ScanState

/-! ## Locals declared by their first use -/

def Token.opensVariables (token : Token) : Bool :=
  token.kind == .identifier && Keyword.ofWord? token.text == some .var

def Pending.listsVariables : Pending → Bool
  | .variables | .variable _ => true
  | .each otherwise => otherwise.listsVariables
  | _ => false

def TokenAction.isDeclare : TokenAction → Bool
  | .declare _ _ => true
  | _ => false

namespace Pending

lemma no_declare_of_keyword (word : Keyword) (hword : word ≠ .var) :
    (∀ action ∈ word.actions, action.isDeclare = false) ∧ word.pending.listsVariables = false := by
  cases word <;> simp_all [Keyword.actions, Keyword.pending, Keyword.opensStatement,
    TokenAction.isDeclare, listsVariables]

lemma no_declare_readPlain {token : Token} (htoken : token.opensVariables = false)
    (atStart : Bool) :
    (∀ action ∈ (readPlain atStart token).1, action.isDeclare = false) ∧
      (readPlain atStart token).2.listsVariables = false := by
  unfold readPlain
  split
  next => simp [listsVariables]
  next => simp [listsVariables]
  next hkind =>
    split
    next word hword =>
      refine no_declare_of_keyword word ?_
      rintro rfl
      simp [Token.opensVariables, hkind, hword] at htoken
    next => cases atStart <;> simp [listsVariables]
  next => simp [listsVariables]

lemma no_declare_read {pending : Pending} (hpend : pending.listsVariables = false)
    {token : Token} (htoken : token.opensVariables = false) (rest : List Token) :
    (∀ action ∈ (pending.read token rest).1, action.isDeclare = false) ∧
      (pending.read token rest).2.listsVariables = false := by
  have hplain := no_declare_readPlain htoken
  induction pending <;> grind [read, listsVariables, TokenAction.isDeclare]

lemma no_declare_actions {pending : Pending} (hpend : pending.listsVariables = false)
    {tokens : List Token} (htoks : ∀ token ∈ tokens, token.opensVariables = false) :
    ∀ action ∈ pending.actions tokens, action.isDeclare = false := by
  induction tokens generalizing pending with
  | nil =>
    intro action hac
    induction pending with
    | each otherwise ih => exact ih hpend hac
    | «variable» => cases hpend
    | _ => cases hac
  | cons token rest ih =>
    obtain ⟨htoken, hrest⟩ := forall_mem_cons.mp htoks
    obtain ⟨hacts, hnext⟩ := no_declare_read hpend htoken rest
    exact forall_mem_append.mpr ⟨hacts, ih hnext hrest⟩

end Pending

/-- The names of the locals differ from each other and from those of the parameters, whatever
their letter case. -/
def LocalsApart (params locals : List String) : Prop :=
  (locals.map lower).Nodup ∧ ∀ name ∈ locals, ∀ param ∈ params, lower name ≠ lower param

namespace NamesRead

variable {read : NamesRead}

structure LocalsApart (read : NamesRead) : Prop where
  closed : ∀ names ∈ read.closed, BslInsight.LocalsApart names.1 names.2
  current : ∀ method ∈ read.current, BslInsight.LocalsApart method.params method.locals

namespace LocalsApart

variable (hread : read.LocalsApart)
include hread

lemma close : read.close.LocalsApart := by
  unfold NamesRead.close
  split
  next => exact hread
  next method hcur => exact ⟨forall_mem_concat hread.closed (hread.current method hcur), by simp⟩

lemma count (name : String) : (read.count name).LocalsApart := by
  unfold NamesRead.count
  split
  next => exact hread
  next method hcur =>
    simp only
    split
    next => exact hread
    next hnew =>
      refine ⟨hread.closed, ?_⟩
      rintro _ ⟨⟩
      obtain ⟨hdist, hpars⟩ := hread.current method hcur
      simp only [any_append, Bool.or_eq_true, any_eq_true, beq_iff_eq, not_or,
        not_exists, not_and] at hnew
      obtain ⟨⟨-, hparam⟩, hlocal⟩ := hnew
      refine ⟨?_, forall_mem_concat hpars fun param hmem => Ne.symm (hparam param hmem)⟩
      have hfresh : lower name ∉ method.locals.map lower := by simpa using hlocal
      simpa using hdist.concat hfresh

lemma perform {action : TokenAction} (hac : action.isDeclare = false) :
    (read.perform action).LocalsApart := by
  cases action with
  | declare => cases hac
  | count token => exact hread.count token.text
  | assign target right =>
    have hcounted := hread.count target.text
    refine ⟨hcounted.closed, ?_⟩
    rintro _ hassigned
    obtain ⟨method, hmeth, rfl⟩ := Option.map_eq_some_iff.mp hassigned
    exact hcounted.current method hmeth
  | openBlock | closeBlock => exact hread
  | endMethod => exact hread.close

lemma follow {reading : Option (Header × ParamList) × List Token}
    (htoks : ∀ token ∈ reading.2, token.opensVariables = false) :
    (read.follow reading).LocalsApart := by
  have hacts {start : NamesRead} (hstart : start.LocalsApart) {tokens : List Token}
      (hsuffix : tokens <:+ reading.2) :
      ((Pending.statement.actions tokens).foldl NamesRead.perform start).LocalsApart := by
    refine foldlRecOn _ NamesRead.perform hstart fun after hafter action hac => ?_
    refine hafter.perform (Pending.no_declare_actions rfl (fun token htoken => ?_) action hac)
    exact htoks token (hsuffix.subset htoken)
  unfold NamesRead.follow
  split
  next => exact hacts hread (suffix_refl _)
  next header list _ =>
    have hbegun : (read.begin header list reading.2).LocalsApart := by
      refine ⟨hread.close.closed, ?_⟩
      rintro _ ⟨⟩
      simp [BslInsight.LocalsApart]
    exact hacts hbegun (ScanState.afterExport_suffix _)

end LocalsApart

end NamesRead

variable {file : Path} {dialect : Dialect} {text : String}

lemma localsApart_parseModule (file : Path) (dialect : Dialect)
    (hvis : ∀ visit ∈ moduleVisits text, ∀ token ∈ visit.lexed.1, token.opensVariables = false) :
    ∀ scope ∈ (parseModule file dialect text).scopes, LocalsApart scope.names.1 scope.names.2 := by
  intro scope hscope
  have hread : NamesRead.LocalsApart
      (((moduleVisits text).map LineVisit.reading).foldl NamesRead.follow {}) := by
    rw [foldl_map]
    refine foldlRecOn _ _ ⟨by simp, by simp⟩ fun read hread visit hvisit => ?_
    exact hread.follow (hvis visit hvisit)
  refine hread.close.closed scope.names ?_
  rw [← scopes_names_parseModule file dialect]
  exact mem_map_of_mem hscope

/-! ## The names that are found -/

lemma assignsKnown_parseModule {scope : MethodScope} {table : ModuleTable}
    (htable : table = parseModule file dialect text) (hscope : scope ∈ table.scopes) :
    AssignsKnown table.moduleVariables scope.params scope.locals scope.assignments := by
  obtain ⟨state, hstate, -, hprs⟩ := ScanState.scanInvariant_assignsKnown.parseModule
    (fun file dialect text => ⟨ScanState.laidOut_start file dialect text, by simp, by simp⟩)
    file dialect text
  rw [← htable] at hprs
  rw [← hprs] at hscope ⊢
  exact hstate.2.scopes scope hscope

lemma exists_variable_of_mem {name : String}
    (hname : name ∈ (parseModule file dialect text).moduleVariables) :
    ∃ symbol ∈ (parseModule file dialect text).symbols,
      symbol.kind = .variable ∧ symbol.name = name := by
  obtain ⟨state, hstate, -, htable⟩ := ScanState.scanInvariant_coherent.parseModule
    (fun file dialect text => ⟨by constructor <;> simp, by simp⟩) file dialect text
  rw [← htable, hstate.table.module_variables] at hname
  obtain ⟨symbol, hsym, hnamed⟩ := mem_map.mp hname
  obtain ⟨hmem, hkind⟩ := mem_filter.mp hsym
  exact ⟨symbol, htable ▸ hmem, by simpa using hkind, hnamed⟩

lemma Resolver.exists_moduleSymbol?_eq {resolver : Resolver} {name : String}
    (hsym : symbol ∈ resolver.table.symbols) (hkind : symbol.kind = .variable)
    (hname : symbol.lowerName = lower name) :
    ∃ found ∈ resolver.table.symbols, found.kind = .variable ∧
      resolver.moduleSymbol? name = some found := by
  have hsome : (resolver.table.moduleVariable? name).isSome := by
    rw [ModuleTable.moduleVariable?, find?_isSome]
    exact ⟨symbol, mem_reverse.mpr hsym, by simp [hkind, hname]⟩
  obtain ⟨found, hfound⟩ := Option.isSome_iff_exists.mp hsome
  have hvar := find?_some hfound
  simp only [Bool.and_eq_true, beq_iff_eq] at hvar
  refine ⟨found, (ModuleTable.mem_of_moduleVariable? hfound).1, hvar.1, ?_⟩
  rw [moduleSymbol?, hfound]
  rfl

/-- Where a method assigns to a name, the name is that of a parameter, of a local declared no
later, or of a variable of the module.  In a text without a list of variables the locals of a
method have names of their own. -/
theorem resolveName_assigned (file : Path) (dialect : Dialect) (text : String)
    (workspace : Snapshot) (catalog : Catalog) :
    let table := parseModule file dialect text
    let resolver := Resolver.mk table workspace catalog
    (∀ scope ∈ table.scopes, ∀ assignment ∈ scope.assignments,
      (∃ symbol, resolver.resolveName assignment.name assignment.line = some (.method symbol) ∧
        (symbol ∈ scope.params ∨
          symbol ∈ scope.locals ∧ symbol.range.startLine ≤ assignment.line)) ∨
      ∃ symbol ∈ table.symbols, symbol.kind = .variable ∧
        resolver.resolveName assignment.name assignment.line = some (.module symbol)) ∧
    ((∀ visit ∈ moduleVisits text, ∀ token ∈ visit.lexed.1, token.opensVariables = false) →
      ∀ scope ∈ table.scopes, LocalsApart (scope.params.map (·.name)) (scope.locals.map (·.name))) := by
  intro table resolver
  refine ⟨fun scope hscope assignment hassignment => ?_, localsApart_parseModule file dialect⟩
  have hlaid := laidOut_parseModule file dialect text
  have hlines := (hlaid.scopes scope hscope).2.2.assignments_within assignment hassignment
  have hscopeAt : table.scopeAt? assignment.line = some scope := by
    rw [hlaid.scopeAt?_eq_some_iff]
    exact ⟨hscope, by simpa [MethodScope.containsLine] using hlines⟩
  have hvisible (symbol : Symbol) : symbol ∈ resolver.visibleSymbols assignment.line ↔
      symbol ∈ scope.params ∨ symbol ∈ scope.locals ∧ symbol.range.startLine ≤ assignment.line := by
    rw [Resolver.visibleSymbols, hscopeAt]
    simp [Resolver.visibleLocals]
  cases hmethod : resolver.methodSymbol? assignment.name assignment.line with
  | some symbol =>
    have hmem := (hvisible symbol).mp (mem_of_find?_eq_some hmethod)
    refine .inl ⟨symbol, ?_, hmem⟩
    rw [Resolver.resolveName, hmethod]
    rfl
  | none =>
    rcases assignsKnown_parseModule rfl hscope assignment hassignment with
      ⟨name, hname, hlower⟩ | ⟨symbol, hsymbol, hlower⟩
    · obtain ⟨symbol, hsymbol, hkind, rfl⟩ := exists_variable_of_mem hname
      obtain ⟨found, hfound, hvariable, hmodule⟩ :=
        resolver.exists_moduleSymbol?_eq hsymbol hkind hlower
      refine .inr ⟨found, hfound, hvariable, ?_⟩
      rw [Resolver.resolveName, hmethod, hmodule]
      rfl
    · have hsome := (resolver.methodSymbol?_isSome_iff assignment.name assignment.line).mpr
        ⟨symbol, (hvisible symbol).mpr hsymbol, hlower⟩
      simp [hmethod] at hsome

-- The second assignment to a local differs from the first in letter case.
theorem resolveName_assigned_again :
    let text := "Процедура П(А)\nа = 1;\nБ = 2;\nб = 3;\nКонецПроцедуры"
    let table := parseModule (Path.ofText "m.bsl") .bsl text
    let resolver := Resolver.mk table {} (Catalog.ofDescription .bsl { version := 1 })
    ∃ scope ∈ table.scopes, (∃ assignment ∈ scope.assignments, assignment.name = "б" ∧
      ((∃ symbol, resolver.resolveName assignment.name assignment.line = some (.method symbol) ∧
        (symbol ∈ scope.params ∨
          symbol ∈ scope.locals ∧ symbol.range.startLine ≤ assignment.line)) ∨
      ∃ symbol ∈ table.symbols, symbol.kind = .variable ∧
        resolver.resolveName assignment.name assignment.line = some (.module symbol))) ∧
      scope.locals.length = 1 ∧
        LocalsApart (scope.params.map (·.name)) (scope.locals.map (·.name)) := by
  intro text table resolver
  have hassigned := resolveName_assigned (Path.ofText "m.bsl") .bsl text {} resolver.catalog
  have hscopes : ∃ scope ∈ table.scopes, (∃ assignment ∈ scope.assignments,
      assignment.name = "б") ∧ scope.locals.length = 1 := by
    decide +kernel
  obtain ⟨scope, hscope, ⟨assignment, hassignment, hname⟩, hlocals⟩ := hscopes
  exact ⟨scope, hscope, ⟨assignment, hassignment, hname,
    hassigned.1 scope hscope assignment hassignment⟩, hlocals,
    hassigned.2 (by decide +kernel) scope hscope⟩

end BslInsight
