import BslInsight.Proofs.ScanInvariant

/-!
# Module tables are coherent

Scopes point to the symbols of their methods, the index maps names to symbols, and module
variables are named a second time.  A method enters all of these parts when it is closed, and a
variable when it is declared, so that they agree after every line.
-/

namespace BslInsight

open List

variable {symbols : List Symbol} {symbol found : Symbol} {index : Nat} {table : ModuleTable}
  {scope : MethodScope} {name : String} {state : ScanState} {method : OpenMethod}

def Symbol.IsMethodNamed (symbol : Symbol) (name : String) : Prop :=
  symbol.kind.isMethod = true ∧ symbol.lowerName = name

namespace ModuleTable

/-- The index of the last method with a lower-case name. -/
structure IsLastMethod (symbols : List Symbol) (name : String) (index : Nat) : Prop where
  named : ∃ symbol, symbols[index]? = some symbol ∧ symbol.IsMethodNamed name
  last : ∀ other symbol, symbols[other]? = some symbol → symbol.IsMethodNamed name → other ≤ index

structure Coherent (table : ModuleTable) : Prop where
  scopes_increasing : (table.scopes.map (·.methodIndex)).Pairwise (· < ·)
  mem_scopes_iff : ∀ index, index ∈ table.scopes.map (·.methodIndex) ↔
      ∃ symbol, table.symbols[index]? = some symbol ∧ symbol.kind.isMethod = true
  scope_lines : ∀ scope ∈ table.scopes, ∀ symbol, table.symbols[scope.methodIndex]? = some symbol →
        scope.startLine = symbol.range.startLine ∧ scope.endLine = symbol.range.endLine
  names_distinct : (table.methodIndex.map Prod.fst).Nodup
  mem_names_iff : ∀ name, name ∈ table.methodIndex.map Prod.fst ↔
      ∃ symbol ∈ table.symbols, symbol.IsMethodNamed name
  last_method : ∀ entry ∈ table.methodIndex, IsLastMethod table.symbols entry.1 entry.2
  module_variables : table.moduleVariables =
      (table.symbols.filter (·.kind = .variable)).map (·.name)
  no_parameters : ∀ symbol ∈ table.symbols, symbol.kind ≠ .parameter

/-! ## One more symbol -/

lemma getElem?_concat_iff : (symbols ++ [symbol])[index]? = some found ↔
      symbols[index]? = some found ∨ index = symbols.length ∧ symbol = found := by
  by_cases hindex : index < symbols.length
  · have hne : index ≠ symbols.length := Nat.ne_of_lt hindex
    rw [getElem?_append_left hindex]
    simp [hne]
  · have hnone : symbols[index]? = none := getElem?_eq_none (Nat.le_of_not_lt hindex)
    by_cases hlast : index = symbols.length
    · subst hlast
      simp
    · rw [getElem?_eq_none (by simp; omega)]
      simp [hnone, hlast]

lemma Coherent.index_lt (htable : table.Coherent) (hscope : scope ∈ table.scopes) :
    scope.methodIndex < table.symbols.length := by
  have hmem : scope.methodIndex ∈ table.scopes.map (·.methodIndex) := mem_map_of_mem hscope
  obtain ⟨symbol, hsym, -⟩ := (htable.mem_scopes_iff _).mp hmem
  exact (List.getElem?_eq_some_iff.mp hsym).1

lemma Coherent.scope_lines_concat (htable : table.Coherent) (hscope : scope ∈ table.scopes)
    (hfound : (table.symbols ++ [symbol])[scope.methodIndex]? = some found) :
    scope.startLine = found.range.startLine ∧ scope.endLine = found.range.endLine := by
  rcases getElem?_concat_iff.mp hfound with hold | ⟨hlen, -⟩
  · exact htable.scope_lines scope hscope found hold
  · exact absurd hlen (Nat.ne_of_lt (htable.index_lt hscope))

lemma mem_names_cons_filter (entries : List (String × Nat)) (added name : String) (index : Nat) :
    name ∈ ((added, index) :: entries.filter (·.1 != added)).map Prod.fst ↔
      name = added ∨ name ∈ entries.map Prod.fst := by
  rw [map_cons, mem_cons]
  by_cases hname : name = added
  · simp [hname]
  · have hkept : name ∈ (entries.filter (·.1 != added)).map Prod.fst ↔
        name ∈ entries.map Prod.fst := by
      simp only [mem_map, mem_filter, bne_iff_ne]
      constructor
      · rintro ⟨entry, ⟨hentry, -⟩, rfl⟩
        exact ⟨entry, hentry, rfl⟩
      · rintro ⟨entry, hentry, rfl⟩
        exact ⟨entry, ⟨hentry, hname⟩, rfl⟩
    rw [hkept]

lemma IsLastMethod.concat (hlast : IsLastMethod symbols name index)
    (hoth : ¬ symbol.IsMethodNamed name) : IsLastMethod (symbols ++ [symbol]) name index := by
  constructor
  · obtain ⟨found, hfound, hnamed⟩ := hlast.named
    exact ⟨found, getElem?_concat_iff.mpr (.inl hfound), hnamed⟩
  · intro other found hfound hnamed
    rcases getElem?_concat_iff.mp hfound with hold | ⟨-, rfl⟩
    · exact hlast.last other found hold hnamed
    · exact absurd hnamed hoth

lemma isLastMethod_concat_self (symbols : List Symbol) (hnamed : symbol.IsMethodNamed name) :
    IsLastMethod (symbols ++ [symbol]) name symbols.length := by
  constructor
  · exact ⟨symbol, getElem?_concat_iff.mpr (.inr ⟨rfl, rfl⟩), hnamed⟩
  · intro other found hfound _
    have hbound := (List.getElem?_eq_some_iff.mp hfound).1
    simp only [length_append, length_singleton] at hbound
    omega

lemma Coherent.declareVariable (htable : table.Coherent) (hkind : symbol.kind = .variable) :
    ({ table with
        symbols := table.symbols ++ [symbol]
        moduleVariables := table.moduleVariables ++ [symbol.name] } : ModuleTable).Coherent := by
  have hnot (name : String) : ¬ symbol.IsMethodNamed name := by
    intro hnamed
    have hmeth := hnamed.1
    rw [hkind] at hmeth
    cases hmeth
  constructor
  · exact htable.scopes_increasing
  · intro index
    rw [htable.mem_scopes_iff]
    constructor
    · rintro ⟨found, hfound, hmeth⟩
      exact ⟨found, getElem?_concat_iff.mpr (.inl hfound), hmeth⟩
    · rintro ⟨found, hfound, hmeth⟩
      rcases getElem?_concat_iff.mp hfound with hold | ⟨-, rfl⟩
      · exact ⟨found, hold, hmeth⟩
      · exact absurd ⟨hmeth, rfl⟩ (hnot symbol.lowerName)
  · intro scope hscope found hfound
    exact htable.scope_lines_concat hscope hfound
  · exact htable.names_distinct
  · intro name
    rw [htable.mem_names_iff]
    simp [hnot name, or_and_right, exists_or]
  · intro entry hentry
    exact (htable.last_method entry hentry).concat (hnot entry.1)
  · simp [htable.module_variables, hkind]
  · refine forall_mem_concat htable.no_parameters ?_
    rw [hkind]
    decide

lemma Coherent.addMethod (htable : table.Coherent) (hkind : symbol.kind.isMethod)
    (hindex : scope.methodIndex = table.symbols.length)
    (hstart : scope.startLine = symbol.range.startLine)
    (hend : scope.endLine = symbol.range.endLine) :
    ({ table with
        symbols := table.symbols ++ [symbol]
        methodIndex := (symbol.lowerName, table.symbols.length) ::
            table.methodIndex.filter (·.1 != symbol.lowerName)
        scopes := table.scopes ++ [scope] } : ModuleTable).Coherent := by
  have hself : symbol.IsMethodNamed symbol.lowerName := ⟨hkind, rfl⟩
  constructor
  · simp only [map_append, map_singleton, hindex]
    apply pairwise_concat htable.scopes_increasing
    intro index hmem
    obtain ⟨earlier, hearl, rfl⟩ := mem_map.mp hmem
    exact htable.index_lt hearl
  · intro index
    simp only [map_append, map_singleton, mem_append, mem_singleton, htable.mem_scopes_iff, hindex]
    constructor
    · rintro (⟨found, hfound, hmeth⟩ | rfl)
      · exact ⟨found, getElem?_concat_iff.mpr (.inl hfound), hmeth⟩
      · exact ⟨symbol, getElem?_concat_iff.mpr (.inr ⟨rfl, rfl⟩), hkind⟩
    · rintro ⟨found, hfound, hmeth⟩
      rcases getElem?_concat_iff.mp hfound with hold | ⟨hlen, -⟩
      · exact .inl ⟨found, hold, hmeth⟩
      · exact .inr hlen
  · apply forall_mem_concat
    · intro other hoth found hfound
      exact htable.scope_lines_concat hoth hfound
    · intro found hfound
      rcases getElem?_concat_iff.mp hfound with hfound | ⟨-, rfl⟩
      · rw [hindex, getElem?_eq_none (Nat.le_refl _)] at hfound
        cases hfound
      · exact ⟨hstart, hend⟩
  · simp only [map_cons, nodup_cons]
    constructor
    · simp
    · exact htable.names_distinct.sublist (filter_sublist.map Prod.fst)
  · intro name
    have hnamed : symbol.IsMethodNamed name ↔ name = symbol.lowerName := by
      simp [Symbol.IsMethodNamed, hkind, eq_comm]
    rw [mem_names_cons_filter, htable.mem_names_iff]
    simp [or_and_right, exists_or, hnamed, or_comm]
  · intro entry hentry
    rcases mem_cons.mp hentry with rfl | hkept
    · exact isLastMethod_concat_self table.symbols hself
    · obtain ⟨hold, hne⟩ := mem_filter.mp hkept
      have hoth : ¬ symbol.IsMethodNamed entry.1 := by
        intro hnamed
        rw [← hnamed.2] at hne
        simp at hne
      exact (htable.last_method entry hold).concat hoth
  · have hnot : symbol.kind ≠ .variable := by
      intro hvar
      rw [hvar] at hkind
      cases hkind
    simp [htable.module_variables, hnot]
  · refine forall_mem_concat htable.no_parameters ?_
    intro hpar
    rw [hpar] at hkind
    cases hkind

end ModuleTable

/-! ## The invariant -/

namespace ScanState

structure Coherent (state : ScanState) : Prop where
  table : state.table.Coherent
  current : ∀ method, state.current = some method → method.symbol.kind.isMethod = true

lemma Coherent.withCurrent (hstate : state.Coherent) (hkind : method.symbol.kind.isMethod) :
    ({ state with current := some method } : ScanState).Coherent := by
  refine ⟨hstate.table, ?_⟩
  intro other hoth
  rw [← Option.some.inj hoth]
  exact hkind

lemma Coherent.closeMethod (hstate : state.Coherent) (hcur : state.current = some method)
    (line : Nat) : (state.closeMethod line).Coherent := by
  have hkind := hstate.current method hcur
  rw [closeMethod_of_current hcur]
  exact ⟨hstate.table.addMethod hkind rfl rfl rfl, nofun⟩

lemma Coherent.move {line : Nat} {before after : ScanState} (hmove : ScanMove origin line before after)
    (hbef : before.Coherent) : after.Coherent := by
  cases hmove with
  | note inString comments directive | frames hfrs => exact { hbef with }
  | issue kind hplace | region regions => exact ⟨{ hbef.table with }, hbef.current⟩
  | blocks hcur hblocs | declareLocal hcur hstart hend | assign hcur hline =>
    have hkind := hbef.current _ hcur
    exact hbef.withCurrent hkind
  | declareVariable hcur hkind hstart hend => exact ⟨hbef.table.declareVariable hkind, hbef.current⟩
  | assignOutside hcur hline => exact ⟨{ hbef.table with }, hbef.current⟩
  | close hcur => exact hbef.closeMethod hcur line

lemma scanInvariant_coherent : ScanInvariant fun _ state => state.Coherent where
  mono := fun hstate _ => hstate
  move := Coherent.move
  directive := fun _ _ hstate => ⟨{ hstate.table with }, hstate.current⟩
  opening := fun hstate _ _ hopens => hstate.withCurrent hopens.kind

end ScanState

theorem parseModule_coherent (file : Path) (dialect : Dialect) (text : String) :
    (parseModule file dialect text).Coherent := by
  obtain ⟨state, hstate, -, htable⟩ := ScanState.scanInvariant_coherent.parseModule
      (fun file dialect text => by
        refine ⟨?_, nofun⟩
        constructor <;> simp)
      file dialect text
  rw [← htable]
  exact hstate.table

end BslInsight
