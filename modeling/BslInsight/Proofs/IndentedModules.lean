import BslInsight.Proofs.IndentedReading
import BslInsight.Proofs.IndentedText

/-!
# What indenting keeps

Indenting a text changes nothing but the blanks at the beginning of lines.  The
tables of the two texts say the same about every symbol, scope, region, directive
and problem; only columns and the indents inside of default values differ.
-/

namespace BslInsight

open List

variable {line : List Char}

/-! ## Reading all lines -/

lemma passesOver_congr {other : List Char} (hbody : trimStart line = trimStart other) :
    passesOver line = passesOver other := by
  unfold passesOver
  rw [hbody]

namespace ScanState

variable {state other : ScanState} {line second : List Char} {rest following : List (List Char)}

lemma Similar.scanLine (hsim : state.Similar other) (hbody : trimStart line = trimStart second)
    (hbds : SameBodies rest following) (hline : '\n' ∉ line) (hsnd : '\n' ∉ second)
    (hrest : ∀ line ∈ rest, '\n' ∉ line) (hfoll : ∀ line ∈ following, '\n' ∉ line)
    (number : Nat) :
    (state.scanLine number line rest).1.Similar (other.scanLine number second following).1 ∧
      (state.scanLine number line rest).2 = (other.scanLine number second following).2 := by
  have hstrs : state.inString = other.inString := hsim.inString
  cases hstr : state.inString with
  | true =>
    rw [hstr] at hstrs
    rw [scanLine_of_inString number rest hstr, scanLine_of_inString number following hstrs.symm]
    exact ⟨hsim.statementLine hline hsnd hbody number, rfl⟩
  | false =>
    rw [hstr] at hstrs
    cases hpass : passesOver line with
    | true =>
      have hpasses : passesOver second := by rw [← passesOver_congr hbody, hpass]
      rw [scanLine_of_passesOver number rest hstr hpass,
        scanLine_of_passesOver number following hstrs.symm hpasses]
      exact ⟨hsim.passLine hline hsnd hbody number, rfl⟩
    | false =>
      have hpasses : passesOver second = false := by rw [← passesOver_congr hbody, hpass]
      cases hhdr : Header.ofLine? line with
      | some header =>
        obtain ⟨found, hhdrs⟩ := Header.exists_indented hbody hhdr
        have hfirst : '\n' ∉ line.drop header.paramsStart :=
          fun hmem => hline (mem_of_mem_drop hmem)
        have hlists := ParamList.similar_read hfirst hbds hrest hfoll
        rw [scanLine_of_header number rest hstr hhdr,
          scanLine_of_header number following hstrs.symm hhdrs.ofLine?_eq, ← hhdrs.drop_eq]
        exact ⟨hsim.beginMethod hstr hhdrs hlists hbds number, hlists.extraLines⟩
      | none =>
        have hoth : Header.ofLine? second = none := by
          rw [Option.eq_none_iff_forall_ne_some]
          intro found hfound
          obtain ⟨header, hhdrs⟩ := Header.exists_indented hbody.symm hfound
          rw [hhdrs.ofLine?_eq] at hhdr
          cases hhdr
        have hstatements := hsim.statementLine hline hsnd hbody number
        rw [scanLine_of_statements number rest hstr hpass hhdr,
          scanLine_of_statements number following hstrs.symm hpasses hoth]
        exact ⟨(hstatements.withComments []).withDirective none, rfl⟩

lemma Similar.scanLines {lines others : List (List Char)} (hsim : state.Similar other)
    (hbds : SameBodies lines others) (hlines : ∀ line ∈ lines, '\n' ∉ line)
    (hoths : ∀ line ∈ others, '\n' ∉ line) (number : Nat) :
    (state.scanLines number lines).Similar (other.scanLines number others) := by
  fun_induction ScanState.scanLines state number lines generalizing other others with
  | case1 state number =>
    cases hbds
    rw [ScanState.scanLines]
    exact hsim
  | case2 state number line rest next extra hscan =>
    rename_i ih
    cases hbds with
    | @cons _ second _ following hbody hbds =>
      obtain ⟨hline, hrest⟩ := forall_mem_cons.mp hlines
      obtain ⟨hsnd, hfoll⟩ := forall_mem_cons.mp hoths
      obtain ⟨hnext, hextra⟩ := hsim.scanLine hbody hbds hline hsnd hrest hfoll number
      rw [hscan] at hnext hextra
      obtain ⟨nexts, hnexts⟩ : ∃ nexts, other.scanLine number second following = (nexts, extra) :=
        ⟨_, Prod.ext rfl hextra.symm⟩
      rw [hnexts] at hnext
      rw [ScanState.scanLines, hnexts]
      exact ih hnext (forall₂_drop extra hbds)
        (fun text htext => hrest text (mem_of_mem_drop htext))
        (fun text htext => hfoll text (mem_of_mem_drop htext))

end ScanState

/-! ## Tables that differ in indents -/

/-- Parameters whose default values differ in nothing but the blanks after line breaks. -/
structure Parameter.Similar (parameter other : Parameter) : Prop where
  name : parameter.name = other.name
  byValue : parameter.byValue = other.byValue
  default? : parameter.default?.map (dropIndents false ·.toList) =
    other.default?.map (dropIndents false ·.toList)

/-- Symbols that differ in nothing but columns and the indents inside of their
documentation and default values. -/
structure Symbol.Similar (symbol other : Symbol) : Prop where
  name : symbol.name = other.name
  kind : symbol.kind = other.kind
  file : symbol.file = other.file
  startLine : symbol.range.startLine = other.range.startLine
  endLine : symbol.range.endLine = other.range.endLine
  exported : symbol.exported = other.exported
  params : Forall₂ Parameter.Similar symbol.params other.params
  documentationText : symbol.documentationText = other.documentationText
  directive : symbol.directive = other.directive
  region : symbol.region = other.region

structure ModuleTable.Similar (table other : ModuleTable) : Prop where
  file : table.file = other.file
  dialect : table.dialect = other.dialect
  symbols : Forall₂ Symbol.Similar table.symbols other.symbols
  methodIndex : table.methodIndex = other.methodIndex
  moduleVariables : table.moduleVariables = other.moduleVariables
  scopes : Forall₂ (MethodScope.Agrees Eq) table.scopes other.scopes
  moduleAssignments : table.moduleAssignments = other.moduleAssignments
  regions : table.regions = other.regions
  directives : table.directives = other.directives
  issues : table.issues = other.issues

lemma forall₂_of_map_eq
    {α β : Type} {f : α → β} {items others : List α} (hmap : items.map f = others.map f) :
    Forall₂ (fun item other => f item = f other) items others := by
  rw [← forall₂_eq_eq_eq, forall₂_map_left_iff, forall₂_map_right_iff] at hmap
  exact hmap

lemma Parameter.similar_of_unindented
    {parameter other : Parameter} (hsame : parameter.unindented = other.unindented) :
    parameter.Similar other where
  name := show parameter.unindented.name = other.unindented.name from congrArg _ hsame
  byValue := show parameter.unindented.byValue = other.unindented.byValue from congrArg _ hsame
  default? := by
    have hvalues : parameter.unindented.default? = other.unindented.default? := by rw [hsame]
    have hchars := congrArg (Option.map String.toList) hvalues
    simpa [Parameter.unindented, Function.comp_def] using hchars

lemma Symbol.documentationText_unindented (symbol : Symbol) :
    (View.unindented.symbol symbol).documentationText = symbol.documentationText := by
  change (symbol.documentation.map View.unindented.block).map commentText =
    symbol.documentation.map commentText
  have hblock : commentText ∘ View.unindented.block = commentText := by
    funext block
    have htext := commentText_dropMargins block.toList
    rwa [String.ofList_toList] at htext
  rw [Option.map_map, hblock]

lemma Symbol.similar_of_unindented
    {symbol other : Symbol} (hsame : View.unindented.symbol symbol = View.unindented.symbol other) :
    symbol.Similar other := by
  have hview {α : Type} (view : Symbol → α)
      (hview : ∀ symbol : Symbol, view (View.unindented.symbol symbol) = view symbol) :
      view symbol = view other := by
    rw [← hview symbol, ← hview other, hsame]
  have hpars : symbol.params.map Parameter.unindented = other.params.map Parameter.unindented :=
    show (View.unindented.symbol symbol).params = (View.unindented.symbol other).params by rw [hsame]
  exact
    { name := hview (·.name) fun _ => rfl
      kind := hview (·.kind) fun _ => rfl
      file := hview (·.file) fun _ => rfl
      startLine := hview (·.range.startLine) fun _ => rfl
      endLine := hview (·.range.endLine) fun _ => rfl
      exported := hview (·.exported) fun _ => rfl
      params := (forall₂_of_map_eq hpars).imp fun _ _ => Parameter.similar_of_unindented
      documentationText := hview (·.documentationText) documentationText_unindented
      directive := hview (·.directive) fun _ => rfl
      region := hview (·.region) fun _ => rfl }

lemma ModuleTable.similar_of_unindented
    {table other : ModuleTable} (hagr : table.AgreesIn Eq .unindented other) :
    table.Similar other :=
  { hagr with
    symbols := (forall₂_of_map_eq hagr.symbols).imp fun _ _ => Symbol.similar_of_unindented
    moduleAssignments := forall₂_eq_eq_eq ▸ hagr.moduleAssignments }

lemma similar_of_moduleLines
    {text other : String} (hbds : SameBodies (moduleLines text) (moduleLines other))
    (file : Path) (dialect : Dialect) :
    (parseModule file dialect text).Similar (parseModule file dialect other) := by
  refine ModuleTable.similar_of_unindented
    (agreesIn_parseModule hbds.length_eq (fun first second _ hsim => ?_) file dialect)
  exact ScanState.Similar.scanLines hsim hbds (fun _ => break_not_mem_moduleLines)
    (fun _ => break_not_mem_moduleLines) 0

/-! ## Lines that stay as they are -/

def stringOpenAfter (inString : Bool) (lines : List (List Char)) : Bool :=
  lines.foldl (fun inString line => (lexLine inString line).2) inString

lemma Nesting.inString_step (nesting : Nesting) (line : List Char) :
    (nesting.step line).2.inString = (lexLine nesting.inString line).2 := by
  unfold Nesting.step
  simp only
  split <;> rfl

def StaysInPlace (line : List Char) : Prop :=
  trimStart line = [] ∨ (trimStart line).head? = some '#'

lemma Nesting.ownDepth?_eq_none {nesting : Nesting}
    (hline : nesting.inString ∨ StaysInPlace line) (range : Option (Nat × Nat))
    (number : Nat) :
    nesting.ownDepth? range number (dropReturn line) = none := by
  have hstays : (nesting.inString || (trimStart (dropReturn line)).isEmpty ||
      (trimStart (dropReturn line)).head? == some '#') := by
    rw [trimStart_dropReturn]
    rcases hline with hstr | hblank | hnum
    · simp [hstr]
    · simp [hblank, dropReturn]
    · obtain ⟨rest, hrest⟩ := head?_eq_some_iff.mp hnum
      simp [hrest, head_dropReturn (by decide : '#' ≠ '\r') rest]
  unfold Nesting.ownDepth? Nesting.step
  simp [hstays]

lemma getElem?_indentedLines {style : IndentStyle} {range : Option (Nat × Nat)}
    {number index : Nat} {nesting : Nesting} {lines : List (List Char)}
    (hline : lines[index]? = some line)
    (hkept : stringOpenAfter nesting.inString ((lines.take index).map dropReturn) ∨
      StaysInPlace line) :
    (indentedLines style range number nesting lines)[index]? = some line := by
  induction lines generalizing number index nesting with
  | nil => cases hline
  | cons first rest ih =>
    cases index with
    | zero =>
      obtain rfl : first = line := by simpa using hline
      rw [indentedLines, Nesting.ownDepth?_eq_none hkept]
      rfl
    | succ index =>
      rw [indentedLines, getElem?_cons_succ]
      refine ih (by simpa using hline) ?_
      rw [Nesting.inString_step]
      exact hkept

structure KeepsModule (file : Path) (dialect : Dialect) (text formatted : String) : Prop where
  length_eq : (splitOn '\n' formatted.toList).length = (splitOn '\n' text.toList).length
  bodies : SameBodies (splitOn '\n' text.toList) (splitOn '\n' formatted.toList)
  kept : ∀ number line, (splitOn '\n' text.toList)[number]? = some line →
    stringOpenAfter false ((splitLines text.toList).take number) = true ∨ StaysInPlace line →
      (splitOn '\n' formatted.toList)[number]? = some line
  table : (parseModule file dialect text).Similar (parseModule file dialect formatted)

lemma dropByteOrderMark_of_not_mem {text : List Char} (hmark : '\ufeff' ∉ text) :
    dropByteOrderMark text = text := by
  unfold dropByteOrderMark
  split
  · exact absurd mem_cons_self hmark
  · rfl

lemma mark_not_mem_indentedText {text : List Char} (hmark : '\ufeff' ∉ text) (style : IndentStyle)
    (range : Option (Nat × Nat)) : '\ufeff' ∉ indentedText style range text := by
  intro hmem
  have hbds := indentedLines_sameBodies style range 0 {} (splitOn '\n' text)
  rw [← splitOn_indentedText] at hbds
  rw [← joinWith_splitOn '\n' (indentedText style range text)] at hmem
  rcases mem_of_mem_joinWith hmem with hbreak | ⟨line, hline, hc⟩
  · exact absurd hbreak (by decide)
  · -- The mark is no blank, so it stands in the body of the line.
    obtain ⟨source, hsrc, hbody⟩ := hbds.exists_of_mem hline
    have hbodyMark : '\ufeff' ∈ trimStart line := by
      rw [← (indent_split line).1, mem_append] at hc
      exact hc.resolve_left fun hblank => absurd ((indent_split line).2 _ hblank) (by decide)
    rw [← hbody] at hbodyMark
    have hsourceMark := (dropWhile_suffix isBlank).mem hbodyMark
    exact hmark (mem_of_mem_splitOn hsrc hsourceMark).1

theorem keepsModule_indent {text : String} (hmark : '\ufeff' ∉ text.toList) (style : IndentStyle)
    (range : Option (Nat × Nat)) (file : Path) (dialect : Dialect) :
    KeepsModule file dialect text
      (String.ofList (applyIndentEdits text.toList (indentEdits style range text.toList))) := by
  have hformatted := splitOn_indentedText style range text.toList
  have hbodies := indentedLines_sameBodies style range 0 {} (splitOn '\n' text.toList)
  rw [← hformatted] at hbodies
  change KeepsModule file dialect text (String.ofList (indentedText style range text.toList))
  refine ⟨?_, ?_, ?_, similar_of_moduleLines ?_ file dialect⟩
  · rw [String.toList_ofList, hbodies.length_eq]
  · rwa [String.toList_ofList]
  · intro number line hline hkept
    rw [String.toList_ofList, hformatted]
    rw [splitLines, ← map_take] at hkept
    exact getElem?_indentedLines hline hkept
  · have hmarks := mark_not_mem_indentedText hmark style range
    rw [moduleLines, moduleLines, String.toList_ofList, dropByteOrderMark_of_not_mem hmark,
      dropByteOrderMark_of_not_mem hmarks, splitLines, splitLines, SameBodies,
      forall₂_map_left_iff, forall₂_map_right_iff]
    refine hbodies.imp fun line other hbody => ?_
    rw [trimStart_dropReturn, trimStart_dropReturn, hbody]

theorem keepsModule_indent_procedure :
    let text := "  Процедура А(Б,\n  В =\n\t 1) Экспорт\nГ = \"Если\n |\";\n КонецПроцедуры"
    '\ufeff' ∉ text.toList ∧ KeepsModule (Path.ofText "m.bsl") .bsl text
        (String.ofList (applyIndentEdits text.toList (indentEdits {} none text.toList))) :=
  ⟨by decide, keepsModule_indent (by decide) {} none _ _⟩

end BslInsight
