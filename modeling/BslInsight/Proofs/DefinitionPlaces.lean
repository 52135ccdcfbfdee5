import BslInsight.Proofs.CompletionAgreement
import BslInsight.Proofs.CursorWords
import BslInsight.Proofs.LiveText
import BslInsight.Proofs.NamePlaces
import BslInsight.Proofs.TableLayout

/-!
# The definition of a declaration

The grammar of headers and the rule for the word at the cursor find the same name.  Before it
stands the word for the kind of method, so it is neither a member nor a class.  It is looked up in
the scope that begins on its line, and then among the symbols of the module, where the method
itself is found.
-/

namespace BslInsight

open List

variable {front word name gap after : List Char} {column : Nat} {table : ModuleTable}
  {symbol : Symbol} {index : Nat}

/-! ## The word in a header -/

lemma isWordChar_of_isHeaderNamePart {c : Char} (hc : isHeaderNamePart c) : isWordChar c := by
  simp only [isHeaderNamePart, isIdentPart, Bool.or_eq_true, beq_iff_eq] at hc
  rcases hc with ((hlet | hnum) | hunderscore) | hiota
  · exact isWordChar_of_isLetter hlet
  · simp [isWordChar, isAlphanumeric, hnum]
  · simp [isWordChar, hunderscore]
  · rw [hiota]
    decide +kernel

lemma any_getLast_of_blank (hgap : ∀ c ∈ gap, isBlank c) : gap.getLast?.any isWordChar = false := by
  cases hlast : gap.getLast? with
  | none => rfl
  | some c => exact not_isWordChar_of_isBlank (hgap c (mem_of_getLast? hlast))

lemma HeaderFront.exists_word (hfront : HeaderFront front word []) :
    ∃ lead gap, front = lead ++ (word ++ gap) ∧ lead.getLast?.any isWordChar = false ∧
      gap ≠ [] ∧ (∀ c ∈ gap, isBlank c) ∧ IsWordOf methodWords word := by
  obtain ⟨start, hstart, hmeth⟩ := hfront
  obtain ⟨gap, hne, hgap, rfl⟩ := hmeth.split
  have hsplit : front = front.takeWhile isBlank ++ trimStart front :=
    takeWhile_append_dropWhile.symm
  have hblks : ∀ c ∈ front.takeWhile isBlank, isBlank c := fun c hc => mem_takeWhile_imp hc
  rcases hstart with hstart | ⟨mark, hmark⟩
  · refine ⟨front.takeWhile isBlank, gap, ?_, ?_, hne, hgap, hmeth.isWord⟩
    · rw [← hstart, append_nil] at hsplit
      exact hsplit
    · exact any_getLast_of_blank hblks
  · obtain ⟨space, hspace, hspaces, htrim⟩ := hmark.split
    refine ⟨front.takeWhile isBlank ++ mark ++ space, gap, ?_, ?_, hne, hgap, hmeth.isWord⟩
    · rw [htrim] at hsplit
      simpa using hsplit
    · rw [getLast?_append_of_ne_nil _ hspace]
      exact any_getLast_of_blank hspaces

lemma wordAt?_append (hfront : front.getLast?.any isWordChar = false)
    (hname : ∀ c ∈ name, isWordChar c) (hne : name ≠ [])
    (hafter : after.head?.any isWordChar = false) (hstart : front.length ≤ column)
    (hstop : column ≤ front.length + name.length) :
    wordAt? (front ++ (name ++ after)) column =
      some ⟨String.ofList name, front.length, front.length + name.length⟩ := by
  obtain ⟨passed, rfl⟩ := Nat.exists_eq_add_of_le hstart
  have hpassed : passed ≤ name.length := by omega
  have htake : (front ++ (name ++ after)).take (front.length + passed) =
      front ++ name.take passed := by
    rw [take_length_add_append, take_append_of_le_length hpassed]
  have hdrop : (front ++ (name ++ after)).drop (front.length + passed) =
      name.drop passed ++ after := by
    rw [drop_length_add_append, drop_append_of_le_length hpassed]
  have hbef : wordBefore (leftOf (front ++ (name ++ after)) (front.length + passed)) =
      name.take passed := by
    rw [leftOf, htake, reverse_append]
    exact wordBefore_append (fun c hc => hname c (mem_of_mem_take hc)) (by simpa using hfront)
  have hrest : (name.drop passed ++ after).takeWhile isWordChar = name.drop passed :=
    takeWhile_append_of_head (fun c hc => hname c (mem_of_mem_drop hc)) hafter
  simp only [wordAt?, hbef, hdrop, hrest, take_append_drop, if_neg hne]
  simp only [length_append, length_take, length_drop, Option.some.injEq, Word.mk.injEq, true_and]
  omega

lemma not_isDecimalDigit_head (hstart : name.head?.any isHeaderNameStart) :
    name.head?.any isDecimalDigit = false := by
  cases name with
  | nil => rfl
  | cons c rest =>
    have hc : isHeaderNameStart c := hstart
    simp only [isHeaderNameStart, Bool.or_eq_true, beq_iff_eq] at hc
    rcases hc with hident | rfl
    · exact not_isDecimalDigit_of_isIdentStart hident
    · rfl

lemma ofWord?_ne_new (hword : IsWordOf methodWords word) :
    Keyword.ofWord? (String.ofList word) ≠ some .new := by
  have hapart : ∀ word ∈ methodWords,
      (String.ofList (folded word.toList), Keyword.new) ∉ Keyword.spellings := by
    decide +kernel
  obtain ⟨spelling, hspelling, hfolded⟩ := hword
  intro hnew
  exact hapart spelling hspelling (hfolded ▸ (folded_of_ofWord? hnew).1)

lemma Resolver.referenceAt?_header {resolver : Resolver} {line : Nat}
    (hparts : HeaderParts front word name gap)
    (hline : resolver.line? line = some (front ++ (name ++ (gap ++ '(' :: after))))
    (hkw : isKeyword (String.ofList name) = false) (hstart : front.length ≤ column)
    (hstop : column ≤ front.length + name.length) :
    resolver.referenceAt? ⟨line, column⟩ = some (.bare (String.ofList name)) := by
  obtain ⟨lead, space, hfront, hlead, hspace, hspaces, hword⟩ := hparts.isFront.exists_word
  obtain ⟨hne, hlets⟩ := isLetter_of_isWordOf spelled_methodWords hword
  have hwordChars : ∀ c ∈ word, isWordChar c := fun c hc => isWordChar_of_isLetter (hlets c hc)
  have hlast : front.getLast?.any isWordChar = false := by
    rw [hfront, ← append_assoc, getLast?_append_of_ne_nil _ hspace]
    exact any_getLast_of_blank hspaces
  have hafter : (gap ++ '(' :: after).head?.any isWordChar = false := by
    have hblank := hparts.blank
    cases gap with
    | nil => exact show isWordChar '(' = false by decide +kernel
    | cons c blanks => exact not_isWordChar_of_isBlank (hblank c mem_cons_self)
  have hnameNe : name ≠ [] := by
    rintro rfl
    cases hparts.nameStart
  have hat := wordAt?_append hlast (fun c hc => isWordChar_of_isHeaderNamePart (hparts.namePart c hc))
    hnameNe hafter hstart hstop
  have hdigit := not_isDecimalDigit_head hparts.nameStart
  have hleft : leftOf (front ++ (name ++ (gap ++ '(' :: after))) front.length =
      (lead ++ (word ++ space)).reverse := by
    rw [leftOf, take_left, hfront]
  have hdot : memberDot? (front ++ (name ++ (gap ++ '(' :: after))) front.length = none := by
    rw [memberDot?, hleft]
    split
    next left hdot => exact absurd hdot (trimStart_reverse_ne_dot hspaces hwordChars hne lead left)
    next => rfl
  have hnew : followsNew (front ++ (name ++ (gap ++ '(' :: after))) front.length = false := by
    rw [followsNew, hleft, endsWithNew_reverse hspaces hwordChars hne hlead, beq_eq_false_iff_ne]
    exact ofWord?_ne_new hword
  simp [referenceAt?, hline, hat, hdigit, hdot, hkw, hnew]

/-! ## Lookup -/

namespace Resolver

variable {resolver : Resolver}

lemma moduleSymbol?_of_unique (htable : resolver.table.FindsSymbols)
    (hsym : symbol ∈ resolver.table.symbols) (hmeth : symbol.kind.isMethod)
    (hunique : ∀ other ∈ resolver.table.symbols,
      other.lowerName = symbol.lowerName → other = symbol) :
    resolver.moduleSymbol? symbol.name = some symbol := by
  have hvar : resolver.table.moduleVariable? symbol.name = none := by
    rw [Option.eq_none_iff_forall_ne_some]
    intro other hoth
    obtain ⟨hmem, hname⟩ := ModuleTable.mem_of_moduleVariable? hoth
    have hkind := find?_some hoth
    rw [hunique other hmem hname] at hkind
    simp only [Bool.and_eq_true, beq_iff_eq] at hkind
    rw [hkind.1] at hmeth
    cases hmeth
  have hsome := htable.declared symbol hsym symbol.name rfl
  rw [hvar, Option.isSome_none] at hsome
  obtain ⟨found, hfound⟩ := Option.isSome_iff_exists.mp (hsome.resolve_left (by simp))
  obtain ⟨hmem, hname⟩ := htable.method_mem _ _ hfound
  rw [moduleSymbol?, hvar, hfound, hunique found hmem hname]
  rfl

lemma methodSymbol?_eq_none {line : Nat} {scope : MethodScope}
    (hscope : resolver.table.scopeAt? line = some scope)
    (hlocal : ∀ declared ∈ scope.params ++ scope.locals, declared.lowerName ≠ symbol.lowerName) :
    resolver.methodSymbol? symbol.name line = none := by
  rw [methodSymbol?, visibleSymbols, hscope, find?_eq_none]
  intro declared hdeclared hsame
  refine hlocal declared ?_ (beq_iff_eq.mp hsame)
  exact (filter_sublist.append_left _).subset hdeclared

end Resolver

lemma ModuleTable.exists_scope {lines : Nat} (hcoherent : table.Coherent)
    (hlayout : table.LaidOut lines) (hsym : symbol ∈ table.symbols)
    (hmeth : symbol.kind.isMethod) :
    ∃ scope ∈ table.scopes, table.symbols[scope.methodIndex]? = some symbol ∧
      table.scopeAt? symbol.range.startLine = some scope := by
  obtain ⟨index, hindex⟩ := mem_iff_getElem?.mp hsym
  obtain ⟨scope, hscope, rfl⟩ := mem_map.mp
    ((hcoherent.mem_scopes_iff index).mpr ⟨symbol, hindex, hmeth⟩)
  obtain ⟨hstart, hend⟩ := hcoherent.scope_lines scope hscope symbol hindex
  refine ⟨scope, hscope, hindex, (hlayout.scopeAt?_eq_some_iff _ scope).mpr ⟨hscope, ?_⟩⟩
  have horder := (hlayout.symbols symbol hsym).1
  simp only [MethodScope.containsLine, Bool.and_eq_true, decide_eq_true_eq]
  omega

/-! ## Definitions -/

lemma exists_header_of_method {file : Path} {dialect : Dialect} {text : String}
    (hsym : symbol ∈ (parseModule file dialect text).symbols)
    (hmeth : symbol.kind.isMethod) :
    symbol.range.file = file ∧ ∃ front word name gap after, HeaderParts front word name gap ∧
      (moduleLines text)[symbol.range.startLine]? =
        some (front ++ (name ++ (gap ++ '(' :: after))) ∧
      symbol.name = String.ofList name ∧ symbol.range.nameColumn = front.length := by
  obtain ⟨visit, hvisit, header, hhdr, hplace, hfile, -⟩ := exists_header_of_mem_symbols hsym hmeth
  obtain ⟨front, word, name, gap, after, hparts, hsplit, rfl⟩ :=
    Header.exists_parts (LineVisit.header?_eq_some hhdr)
  obtain ⟨-, hname, hnum, hcol⟩ := NamePlace.mk.inj hplace
  refine ⟨hfile, front, word, name, gap, after, hparts, ?_, hname, hcol⟩
  rw [hnum, getElem?_of_mem_moduleVisits hvisit, hsplit]

/-- **The definition of a method is found from its own name.**  No keyword, no other symbol of the
module and no parameter or local of the method may have the name. -/
theorem Resolver.resolveAt_declaration {file : Path} {dialect : Dialect} {text : String}
    (hsymbol : symbol ∈ (parseModule file dialect text).symbols)
    (hmethod : symbol.kind.isMethod = true) (hkeyword : isKeyword symbol.name = false)
    (hunique : ∀ other ∈ (parseModule file dialect text).symbols,
      other.lowerName = symbol.lowerName → other = symbol)
    (hlocal : ∀ scope ∈ (parseModule file dialect text).scopes,
      (parseModule file dialect text).symbols[scope.methodIndex]? = some symbol →
        ∀ declared ∈ scope.params ++ scope.locals, declared.lowerName ≠ symbol.lowerName)
    (hstart : symbol.range.nameColumn ≤ column)
    (hstop : column ≤ symbol.range.nameColumn + symbol.name.length) (workspace : Snapshot)
    (catalog : Catalog) :
    let resolver : Resolver := ⟨parseModule file dialect text, workspace, catalog⟩
    let position : Position := ⟨symbol.range.startLine, column⟩
    resolver.resolveAt position = some (.module symbol) ∧
      ∀ (engine : Engine) (path : Path) (content : String), engine.resolver path content = resolver →
        engine.definitionOf path content position =
          some ⟨file, symbol.range.startLine, symbol.range.nameColumn⟩ := by
  intro resolver position
  obtain ⟨hfile, front, word, name, gap, after, hparts, hline, hname, hcolumn⟩ :=
    exists_header_of_method hsymbol hmethod
  have hresolved : resolver.resolveAt position = some (.module symbol) := by
    obtain ⟨scope, hscope, hindex, hat⟩ := ModuleTable.exists_scope
      (parseModule_coherent file dialect text) (parseModule_laidOut file dialect text).1 hsymbol
      hmethod
    have hlines : resolver.line? symbol.range.startLine =
        some (front ++ (name ++ (gap ++ '(' :: after))) := by
      rw [← hline, line?, ModuleTable.lines, (parseModule_origin file dialect text).2,
        String.toList_ofList]
      rfl
    rw [hname] at hkeyword
    rw [hcolumn, hname, String.length_ofList] at hstop
    have hreference := referenceAt?_header hparts hlines hkeyword (hcolumn ▸ hstart) hstop
    rw [resolveAt, hreference, ← hname, Option.bind_some, resolveReference, resolveName,
      methodSymbol?_eq_none hat (hlocal scope hscope hindex), moduleSymbol?_of_unique
        (ModuleTable.findsSymbols_parseModule file dialect text) hsymbol hmethod hunique]
    rfl
  refine ⟨hresolved, fun engine path content hengine => ?_⟩
  rw [Engine.definitionOf, Engine.resolveAt, hengine, hresolved, ← hfile]
  rfl

/-- The cursor stands behind the name of a function. -/
theorem Resolver.resolveAt_declaration_end :
    let table := parseModule (.ofText "a.bsl") .bsl "Функция Дать (А)\nКонецФункции"
    let symbol : Symbol := {
      name := "Дать"
      kind := .function
      range := ⟨.ofText "a.bsl", 0, 1, 8⟩
      params := [⟨"А", false, none⟩] }
    symbol ∈ table.symbols ∧
      (⟨table, {}, .builtIn .bsl⟩ : Resolver).resolveAt ⟨0, 12⟩ = some (.module symbol) := by
  intro table symbol
  have hread : symbol ∈ table.symbols ∧ isKeyword symbol.name = false ∧
      (∀ other ∈ table.symbols, other.lowerName = symbol.lowerName → other = symbol) ∧
      ∀ scope ∈ table.scopes, table.symbols[scope.methodIndex]? = some symbol →
        ∀ declared ∈ scope.params ++ scope.locals, declared.lowerName ≠ symbol.lowerName := by
    decide +kernel
  obtain ⟨hsymbol, hkeyword, hunique, hlocal⟩ := hread
  exact ⟨hsymbol, (resolveAt_declaration hsymbol rfl hkeyword hunique hlocal (by decide) (by decide)
    {} (.builtIn .bsl)).1⟩

end BslInsight
