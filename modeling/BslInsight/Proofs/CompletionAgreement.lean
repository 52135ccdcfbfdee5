import Mathlib.Data.List.Nodup
import BslInsight.Completion
import BslInsight.Proofs.CatalogLookup
import BslInsight.Proofs.ReverseLookup
import BslInsight.Proofs.TableCoherence

/-!
# Completion and resolution agree

Completion lists and resolution looks up, both through the same layers: the enclosing method, the
module, the other modules, the catalog.  What a layer lists it finds, and outside of the catalog
the other way round.  A candidate is kept only if no earlier layer lists its name, so resolution
gets to its layer.
-/

namespace BslInsight

open List

variable {kept candidate : Candidate} {buckets : List (List Candidate)} {name typed : String}
  {table : ModuleTable} {locale : Locale} {dialect : Dialect} {description : Catalog.Description}
  {position : Position} {chain : List ChainLink} {line : Nat} {resolver : Resolver}

/-! ## Merging buckets -/

lemma mem_dropSeen_iff {seen : List String} {candidates : List Candidate} :
    kept ∈ dropSeen seen candidates ↔ kept.lowerLabel ∉ seen ∧
        candidates.find? (·.lowerLabel == kept.lowerLabel) = some kept := by
  fun_induction dropSeen seen candidates with
  | case1 seen => simp
  | case2 seen candidate rest hseen ih =>
    rw [ih]
    refine and_congr_right fun hnew => ?_
    have hoth : ¬ candidate.lowerLabel = kept.lowerLabel := by
      rintro hsame
      rw [hsame, contains_iff_mem] at hseen
      exact hnew hseen
    rw [find?_cons_of_neg (by simpa using hoth)]
  | case3 seen candidate rest hnew ih =>
    rw [mem_cons, ih, mem_cons]
    by_cases hsame : candidate.lowerLabel = kept.lowerLabel
    · rw [contains_iff_mem, hsame] at hnew
      simp [hsame, hnew, eq_comm]
    · have hne : kept ≠ candidate := fun h => hsame (h ▸ rfl)
      have hlabel : ¬ kept.lowerLabel = candidate.lowerLabel := fun h => hsame h.symm
      simp [hsame, hne, hlabel]

lemma mem_mergeBuckets_iff : kept ∈ mergeBuckets buckets ↔
      (buckets.flatMap (·.mergeSort Candidate.before)).find?
        (·.lowerLabel == kept.lowerLabel) = some kept := by
  simp [mergeBuckets, mem_dropSeen_iff]

lemma mem_of_mem_mergeBuckets (hkept : kept ∈ mergeBuckets buckets) :
    ∃ bucket ∈ buckets, kept ∈ bucket := by
  have hmem := mem_of_find?_eq_some (mem_mergeBuckets_iff.mp hkept)
  simpa using hmem

lemma mem_mergeBuckets_cons {bucket : List Candidate} : kept ∈ mergeBuckets (bucket :: buckets) ↔
      kept ∈ mergeBuckets [bucket] ∨
        (∀ candidate ∈ bucket, candidate.lowerLabel ≠ kept.lowerLabel) ∧
          kept ∈ mergeBuckets buckets := by
  simp [mem_mergeBuckets_iff, find?_append, Option.or_eq_some_iff]

lemma mem_of_mem_mergeBuckets_singleton {bucket : List Candidate}
    (hkept : kept ∈ mergeBuckets [bucket]) : kept ∈ bucket := by
  simpa using mem_of_mem_mergeBuckets hkept

lemma exists_mem_mergeBuckets {bucket : List Candidate} (hcand : candidate ∈ bucket) :
    ∃ kept ∈ mergeBuckets [bucket], kept.lowerLabel = candidate.lowerLabel := by
  let listed := [bucket].flatMap (·.mergeSort Candidate.before)
  have hfirst : (listed.find? (·.lowerLabel == candidate.lowerLabel)).isSome := by
    rw [find?_isSome]
    exact ⟨candidate, by simpa [listed] using hcand, beq_self_eq_true _⟩
  obtain ⟨kept, hkept⟩ := Option.isSome_iff_exists.mp hfirst
  have hlabel : kept.lowerLabel = candidate.lowerLabel := by
    simpa using find?_some hkept
  rw [← hlabel] at hkept
  exact ⟨kept, mem_mergeBuckets_iff.mpr hkept, hlabel⟩

/-! ## Layers of names -/

structure Layer where
  source : Source
  bucket : List Candidate
  find? : String → Option Resolution

namespace Layer

structure Sound (layer : Layer) (typed : String) : Prop where
  bucket_source : ∀ candidate ∈ layer.bucket, candidate.source = layer.source
  begins : ∀ candidate ∈ layer.bucket, beginsWith typed candidate.lowerLabel = true
  find_source : ∀ name found, layer.find? name = some found → found.source = layer.source
  found : ∀ candidate ∈ layer.bucket, ∀ name, candidate.lowerLabel = lower name →
      (layer.find? name).isSome = true

structure Exact (layer : Layer) (typed : String) : Prop extends layer.Sound typed where
  listed : ∀ name, (layer.find? name).isSome = true → beginsWith typed (lower name) = true →
      ∃ candidate ∈ layer.bucket, candidate.lowerLabel = lower name

variable {typed : String} {layers : List Layer} {last : Layer}

lemma Sound.exists_found {layer : Layer} (hlayer : layer.Sound typed)
    (hcand : candidate ∈ layer.bucket) :
    ∃ found, layer.find? candidate.label = some found ∧ found.source = candidate.source := by
  obtain ⟨found, hfound⟩ :=
    Option.isSome_iff_exists.mp (hlayer.found candidate hcand candidate.label rfl)
  refine ⟨found, hfound, ?_⟩
  rw [hlayer.find_source _ _ hfound, hlayer.bucket_source candidate hcand]

lemma exists_found_of_mem_merged (hlayers : ∀ layer ∈ layers, layer.Exact typed)
    (hlast : last.Sound typed) (hkept : kept ∈ mergeBuckets ((layers ++ [last]).map bucket)) :
    ∃ found, (layers ++ [last]).findSome? (·.find? kept.label) = some found ∧
      found.source = kept.source := by
  induction layers with
  | nil =>
    obtain ⟨found, hfound, hsrc⟩ := hlast.exists_found (mem_of_mem_mergeBuckets_singleton hkept)
    exact ⟨found, by simp [hfound], hsrc⟩
  | cons layer rest ih =>
    have hlayer := hlayers layer mem_cons_self
    have hrest := fun other hoth => hlayers other (mem_cons_of_mem layer hoth)
    rw [cons_append, map_cons, mem_mergeBuckets_cons] at hkept
    rw [cons_append, findSome?_cons]
    rcases hkept with hfirst | ⟨hunlisted, hlater⟩
    · obtain ⟨found, hfound, hsrc⟩ := hlayer.exists_found (mem_of_mem_mergeBuckets_singleton hfirst)
      exact ⟨found, by rw [hfound], hsrc⟩
    · -- A layer that finds the name would list it, as the name begins as typed.
      have hbeg : beginsWith typed kept.lowerLabel := by
        obtain ⟨bucket, hbucket, hmem⟩ := mem_of_mem_mergeBuckets hlater
        obtain ⟨other, hoth, rfl⟩ := mem_map.mp hbucket
        rcases mem_append.mp hoth with hoth | hoth
        · exact (hrest other hoth).begins kept hmem
        · rw [mem_singleton] at hoth
          exact hlast.begins kept (hoth ▸ hmem)
      have hnone : layer.find? kept.label = none := by
        rw [← Option.not_isSome_iff_eq_none]
        intro hfound
        obtain ⟨candidate, hmem, hlabel⟩ := hlayer.listed kept.label hfound hbeg
        exact hunlisted candidate hmem hlabel
      rw [hnone]
      exact ih hrest hlater

lemma exists_mem_merged_of_found (hlayers : ∀ layer ∈ layers, layer.Exact typed)
    (hlast : last.Sound typed) (hbeg : beginsWith typed (lower name)) {found : Resolution}
    (hfound : (layers ++ [last]).findSome? (·.find? name) = some found)
    (hsrc : found.source ≠ last.source) :
    ∃ kept ∈ mergeBuckets ((layers ++ [last]).map bucket),
      kept.source = found.source ∧ kept.lowerLabel = lower name := by
  induction layers with
  | nil =>
    have hlastFound : last.find? name = some found := by simpa using hfound
    exact absurd (hlast.find_source name found hlastFound) hsrc
  | cons layer rest ih =>
    have hlayer := hlayers layer mem_cons_self
    have hrest := fun other hoth => hlayers other (mem_cons_of_mem layer hoth)
    rw [cons_append, findSome?_cons] at hfound
    rw [cons_append, map_cons]
    cases hhere : layer.find? name with
    | some first =>
      rw [hhere] at hfound
      obtain rfl := Option.some.inj hfound
      obtain ⟨candidate, hcand, hlabel⟩ := hlayer.listed name (Option.isSome_of_eq_some hhere) hbeg
      obtain ⟨kept, hkept, hsame⟩ := exists_mem_mergeBuckets hcand
      have hmem := mem_of_mem_mergeBuckets_singleton hkept
      refine ⟨kept, mem_mergeBuckets_cons.mpr (.inl hkept), ?_, hsame.trans hlabel⟩
      rw [hlayer.find_source _ _ hhere, hlayer.bucket_source kept hmem]
    | none =>
      rw [hhere] at hfound
      obtain ⟨kept, hkept, hkeptSource, hlabel⟩ := ih hrest hfound
      refine ⟨kept, mem_mergeBuckets_cons.mpr (.inr ⟨?_, hkept⟩), hkeptSource, hlabel⟩
      intro candidate hcand hsame
      have hsome := hlayer.found candidate hcand name (hsame.trans hlabel)
      rw [hhere] at hsome
      cases hsome

end Layer

/-! ## The layers of declared symbols -/

namespace Layer

def ofSymbols (typed : String) (source : Source) (meaning : Symbol → Resolution)
    (symbols : List Symbol) (find? : String → Option Symbol) : Layer where
  source := source
  bucket := symbolCandidates typed source symbols
  find? name := (find? name).map meaning

lemma exact_ofSymbols {source : Source} {meaning : Symbol → Resolution} {symbols : List Symbol}
    {find? : String → Option Symbol} (hmeaning : ∀ symbol, (meaning symbol).source = source)
    (hfind : ∀ name, (find? name).isSome ↔ ∃ symbol ∈ symbols, symbol.lowerName = lower name)
    (typed : String) : (ofSymbols typed source meaning symbols find?).Exact typed := by
  have hcand : ∀ candidate, candidate ∈ symbolCandidates typed source symbols ↔
        ∃ symbol ∈ symbols, beginsWith typed symbol.lowerName ∧
          Candidate.ofSymbol source symbol = candidate := by
    simp [symbolCandidates, and_assoc]
  have hisSome : ∀ name, (((find? name).map meaning).isSome ↔
      ∃ symbol ∈ symbols, symbol.lowerName = lower name) := by
    simpa using hfind
  refine ⟨⟨?_, ?_, ?_, ?_⟩, ?_⟩
  · intro candidate hmem
    obtain ⟨symbol, -, -, rfl⟩ := (hcand candidate).mp hmem
    rfl
  · intro candidate hmem
    obtain ⟨symbol, -, hbeg, rfl⟩ := (hcand candidate).mp hmem
    exact hbeg
  · intro name found hfound
    obtain ⟨symbol, -, rfl⟩ := Option.map_eq_some_iff.mp hfound
    exact hmeaning symbol
  · intro candidate hmem name hname
    obtain ⟨symbol, hsym, -, rfl⟩ := (hcand candidate).mp hmem
    exact (hisSome name).mpr ⟨symbol, hsym, hname⟩
  · intro name hfound hbeg
    obtain ⟨symbol, hsym, hname⟩ := (hisSome name).mp hfound
    rw [← hname] at hbeg
    exact ⟨_, (hcand _).mpr ⟨symbol, hsym, hbeg, rfl⟩, hname⟩

end Layer

namespace ModuleTable

structure FindsSymbols (table : ModuleTable) : Prop where
  method_mem : ∀ name symbol, table.method? name = some symbol →
      symbol ∈ table.symbols ∧ symbol.lowerName = lower name
  declared : ∀ symbol ∈ table.symbols, ∀ name, symbol.lowerName = lower name →
      (table.moduleVariable? name).isSome = true ∨ (table.method? name).isSome = true

lemma mem_of_moduleVariable? {symbol : Symbol} (hfound : table.moduleVariable? name = some symbol) :
    symbol ∈ table.symbols ∧ symbol.lowerName = lower name := by
  have hmem := mem_of_find?_eq_some hfound
  have hnamed := find?_some hfound
  simp only [Bool.and_eq_true, beq_iff_eq] at hnamed
  exact ⟨mem_reverse.mp hmem, hnamed.2⟩

lemma Coherent.exists_indexed (htable : table.Coherent) {index : Nat}
    (hindex : table.methodIndex.lookup name = some index) :
    ∃ symbol, table.symbols[index]? = some symbol ∧ symbol.IsMethodNamed name := by
  obtain ⟨before, after, hsplit, -⟩ := lookup_eq_some_iff.mp hindex
  have hentry : (name, index) ∈ table.methodIndex := by simp [hsplit]
  exact (htable.last_method _ hentry).named

lemma Coherent.findsSymbols (htable : table.Coherent) : table.FindsSymbols := by
  constructor
  · intro name symbol hfound
    obtain ⟨index, hindex, hsym⟩ := Option.bind_eq_some_iff.mp hfound
    obtain ⟨method, hmeth, -, hname⟩ := htable.exists_indexed hindex
    obtain rfl := Option.some.inj (hmeth.symm.trans hsym)
    exact ⟨mem_of_getElem? hsym, hname⟩
  · intro symbol hsym name hname
    by_cases hmeth : symbol.kind.isMethod
    · right
      have hkey := (htable.mem_names_iff _).mpr ⟨symbol, hsym, hmeth, hname⟩
      have hindexed : (table.methodIndex.lookup (lower name)).isSome := by
        obtain ⟨entry, hentry, hfst⟩ := mem_map.mp hkey
        exact lookup_isSome_iff.mpr ⟨entry, hentry, by simp [hfst]⟩
      obtain ⟨index, hindex⟩ := Option.isSome_iff_exists.mp hindexed
      obtain ⟨last, hlast, -⟩ := htable.exists_indexed hindex
      simp [method?, hindex, hlast]
    · left
      have hkind : symbol.kind = .variable := by
        have hpar := htable.no_parameters symbol hsym
        cases hkind : symbol.kind <;> simp_all [SymbolKind.isMethod]
      rw [moduleVariable?, find?_isSome]
      exact ⟨symbol, mem_reverse.mpr hsym, by simp [hkind, hname]⟩

lemma findsSymbols_parseModule (file : Path) (dialect : Dialect) (text : String) :
    (parseModule file dialect text).FindsSymbols := by
  obtain ⟨state, hstate, -, htable⟩ := ScanState.scanInvariant_coherent.parseModule
      (fun file dialect text => ⟨by constructor <;> simp, by simp⟩) file dialect text
  exact htable ▸ hstate.table.findsSymbols

end ModuleTable

lemma Snapshot.exportedMethodsNamed_eq_filter
    (snapshot : Snapshot) (name : String) (exclude : Path) :
    snapshot.exportedMethodsNamed name exclude =
      (snapshot.exportedMethods exclude).filter (·.lowerName = lower name) := by
  have hnamed : ∀ table : ModuleTable, table.symbols.filter (fun symbol =>
        symbol.lowerName = lower name && symbol.kind.isMethod && symbol.exported) =
      table.exportedMethods.filter (·.lowerName = lower name) := by
    intro table
    simp [ModuleTable.exportedMethods, ModuleTable.methods, filter_filter, Bool.and_comm,
      Bool.and_left_comm]
  simp only [exportedMethodsNamed_eq, exportedMethods, filter_flatMap, TableMap.erase, hnamed]

namespace Resolver

variable (resolver : Resolver)

lemma methodSymbol?_isSome_iff (name : String) (line : Nat) :
    (resolver.methodSymbol? name line).isSome ↔
      ∃ symbol ∈ resolver.visibleSymbols line, symbol.lowerName = lower name := by
  simp [methodSymbol?, find?_isSome, sameName, Symbol.lowerName]

lemma moduleSymbol?_isSome_iff (htable : resolver.table.FindsSymbols) (name : String) :
    (resolver.moduleSymbol? name).isSome ↔
      ∃ symbol ∈ resolver.table.symbols, symbol.lowerName = lower name := by
  constructor
  · intro hfound
    cases hvar : resolver.table.moduleVariable? name with
    | some symbol => exact ⟨symbol, ModuleTable.mem_of_moduleVariable? hvar⟩
    | none =>
      rw [moduleSymbol?, hvar] at hfound
      obtain ⟨symbol, hmeth⟩ := Option.isSome_iff_exists.mp hfound
      exact ⟨symbol, htable.method_mem name symbol hmeth⟩
  · rintro ⟨symbol, hsym, hname⟩
    rcases htable.declared symbol hsym name hname with hvar | hmeth
    · simp [moduleSymbol?, hvar]
    · simp [moduleSymbol?, hmeth]

lemma workspaceSymbol?_isSome_iff (name : String) : (resolver.workspaceSymbol? name).isSome ↔
      ∃ symbol ∈ resolver.workspace.exportedMethods resolver.table.file,
        symbol.lowerName = lower name := by
  rw [workspaceSymbol?, Snapshot.exportedMethodsNamed_eq_filter, head?_filter]
  simp [find?_isSome]

end Resolver

/-! ## The layer of the catalog -/

lemma exists_of_mem_entryCandidates {entries : List Catalog.Entry}
    (hcand : candidate ∈ entryCandidates typed locale entries) :
    ∃ entry ∈ entries, candidate.label ∈ entry.names ∧ beginsWith typed candidate.lowerLabel ∧
        candidate = .ofEntry locale entry candidate.label := by
  obtain ⟨entry, hentry, hlabel⟩ := mem_filterMap.mp hcand
  obtain ⟨label, hmatching, rfl⟩ := Option.map_eq_some_iff.mp hlabel
  have hbeg : beginsWith typed (lower label) := by
    simpa using find?_some (p := fun name => beginsWith typed (lower name)) hmatching
  refine ⟨entry, hentry, ?_, hbeg, rfl⟩
  rcases mem_cons.mp (mem_of_find?_eq_some hmatching) with hdisplayed | hnamed
  · exact hdisplayed ▸ entry.displayName_mem_names locale
  · exact hnamed

namespace Resolver

def symbolLayers (resolver : Resolver) (typed : String) (line : Nat) : List Layer :=
  [.ofSymbols typed .method .method (resolver.visibleSymbols line) (resolver.methodSymbol? · line),
    .ofSymbols typed .module .module resolver.table.symbols resolver.moduleSymbol?,
    .ofSymbols typed .workspace .workspace
      (resolver.workspace.exportedMethods resolver.table.file) resolver.workspaceSymbol?]

def catalogLayer (resolver : Resolver) (typed : String) (locale : Locale) : Layer where
  source := .catalog
  bucket := entryCandidates typed locale resolver.bareEntries
  find? name := (resolver.catalog.lookup? name).map .catalog

lemma exact_symbolLayers (htable : resolver.table.FindsSymbols) (typed : String) (line : Nat) :
    ∀ layer ∈ resolver.symbolLayers typed line, layer.Exact typed := by
  simp only [symbolLayers, forall_mem_cons, not_mem_nil, false_implies, implies_true, and_true]
  refine ⟨Layer.exact_ofSymbols ?_ (resolver.methodSymbol?_isSome_iff · line) typed,
    Layer.exact_ofSymbols ?_ (resolver.moduleSymbol?_isSome_iff htable) typed,
    Layer.exact_ofSymbols ?_ resolver.workspaceSymbol?_isSome_iff typed⟩
  all_goals exact fun _ => rfl

lemma sound_catalogLayer (hcat : resolver.catalog = .ofDescription dialect description)
    (typed : String) (locale : Locale) : (resolver.catalogLayer typed locale).Sound typed := by
  constructor
  · intro candidate hcand
    obtain ⟨entry, -, -, -, hentry⟩ := exists_of_mem_entryCandidates hcand
    rw [hentry]
    rfl
  · intro candidate hcand
    obtain ⟨entry, -, -, hbeg, -⟩ := exists_of_mem_entryCandidates hcand
    exact hbeg
  · intro name found hfound
    obtain ⟨entry, -, rfl⟩ := Option.map_eq_some_iff.mp hfound
    rfl
  · intro candidate hcand name hname
    obtain ⟨entry, hentry, hlabel, -, -⟩ := exists_of_mem_entryCandidates hcand
    rw [bareEntries, hcat] at hentry
    rw [catalogLayer, Option.isSome_map, hcat]
    exact Catalog.lookup?_isSome_of_mem dialect description name hentry
      (Catalog.Entry.matchesName_of_mem hlabel hname)

lemma resolveName_eq_findSome?
    (resolver : Resolver) (typed : String) (locale : Locale) (name : String) (line : Nat) :
    resolver.resolveName name line =
      (resolver.symbolLayers typed line ++ [resolver.catalogLayer typed locale]).findSome?
        (·.find? name) := by
  simp only [resolveName, symbolLayers, catalogLayer, Layer.ofSymbols, cons_append,
    nil_append, findSome?_cons, findSome?_nil]
  cases resolver.methodSymbol? name line <;> cases resolver.moduleSymbol? name <;>
    cases resolver.workspaceSymbol? name <;> cases resolver.catalog.lookup? name <;> rfl

lemma completions_of_name (locale : Locale) (htrig : (resolver.typingAt position).trigger = .name) :
    let typed := lower (resolver.typingAt position).typed
    resolver.completions position locale =
      mergeBuckets ((resolver.symbolLayers typed position.line ++
        [resolver.catalogLayer typed locale]).map Layer.bucket) := by
  rw [completions, buckets, htrig]
  rfl

/-! ## Members of a receiver -/

lemma completions_of_member (locale : Locale) {receiver : ReceiverType}
    (htrig : (resolver.typingAt position).trigger = .member (some chain))
    (hrecv : resolver.receiverType? chain position.line = some receiver) :
    resolver.completions position locale = mergeBuckets
        [resolver.memberCandidates (lower (resolver.typingAt position).typed) locale receiver] := by
  rw [completions, buckets, htrig]
  simp [hrecv]

lemma resolveMember_catalog_isSome
    (hcat : resolver.catalog = .ofDescription dialect description) {type : String}
    (hcand : candidate ∈ resolver.memberCandidates typed locale (.catalog type)) :
    (resolver.resolveMember (.catalog type) candidate.label).isSome := by
  obtain ⟨entry, hentry, hlabel, -, -⟩ := exists_of_mem_entryCandidates hcand
  cases hfound : resolver.catalog.type? type with
  | none => simp [hfound] at hentry
  | some found =>
    have hmbr : entry ∈ found.members := by simpa [hfound] using hentry
    have hlisted : found ∈ (Catalog.ofDescription dialect description).types := by
      rw [hcat, Catalog.type?_ofDescription] at hfound
      exact mem_of_find?_eq_some hfound
    rw [resolveMember, Option.isSome_map, Catalog.member?, hfound, Option.bind_some,
      Catalog.member?_of_mem_types dialect description _ hlisted, find?_isSome]
    exact ⟨entry, hmbr, Catalog.Entry.matchesName_of_mem hlabel rfl⟩

lemma resolveMember_module_isSome (resolver : Resolver) (htable : table.FindsSymbols)
    (hdist : (table.symbols.map Symbol.lowerName).Nodup)
    (hcand : candidate ∈ resolver.memberCandidates typed locale (.module table)) :
    (resolver.resolveMember (.module table) candidate.label).isSome := by
  obtain ⟨symbol, hsym, rfl⟩ := mem_map.mp hcand
  obtain ⟨hsym, hexported⟩ := mem_filter.mp (mem_filter.mp hsym).1
  -- What is found under the name is the symbol itself, hence exported.
  have hsame : ∀ found, found ∈ table.symbols ∧ found.lowerName = symbol.lowerName →
      found.exported := by
    rintro found ⟨hfound, hname⟩
    rwa [inj_on_of_nodup_map hdist hfound hsym hname]
  simp only [resolveMember, Option.isSome_map, Option.orElse_eq_orElse, Option.orElse_eq_or,
    Option.isSome_or, Bool.or_eq_true]
  cases hmeth : table.method? symbol.name with
  | some method =>
    left
    have hmethodExported := hsame method (htable.method_mem _ _ hmeth)
    simp [Candidate.ofSymbol, hmeth, hmethodExported]
  | none =>
    right
    rcases htable.declared symbol hsym symbol.name rfl with hvar | hfound
    · obtain ⟨found, hfound⟩ := Option.isSome_iff_exists.mp hvar
      have hvariableExported := hsame found (ModuleTable.mem_of_moduleVariable? hfound)
      simp [Candidate.ofSymbol, hfound, hvariableExported]
    · rw [hmeth] at hfound
      cases hfound

lemma returnType?_ne_module (called : Option Catalog.Entry) (table : ModuleTable) :
    (called.bind fun entry => entry.returnType?.map ReceiverType.catalog) ≠
      some (.module table) := by
  intro htype
  obtain ⟨entry, -, hret⟩ := Option.bind_eq_some_iff.mp htype
  obtain ⟨name, -, hname⟩ := Option.map_eq_some_iff.mp hret
  cases hname

lemma eq_module_of_foldlM_memberType? {members : List ChainLink} {head : ReceiverType}
    (htype : members.foldlM resolver.memberType? head = some (.module table)) :
    head = .module table := by
  induction members generalizing head with
  | nil => exact Option.some.inj htype
  | cons link rest ih =>
    rw [foldlM_cons] at htype
    obtain ⟨next, hnext, hrest⟩ := Option.bind_eq_some_iff.mp htype
    rw [ih hrest] at hnext
    cases head with
    | catalog type => exact absurd hnext (returnType?_ne_module _ table)
    | module other => cases hnext

lemma moduleNamed?_of_nameType? (htype : resolver.nameType? name line = some (.module table)) :
    resolver.workspace.moduleNamed? name = some table := by
  unfold nameType? at htype
  split at htype
  next => cases htype
  next =>
    cases hcat : resolver.catalog.type? name with
    | some type =>
      rw [hcat] at htype
      cases htype
    | none =>
      rw [hcat] at htype
      cases hmodule : resolver.workspace.moduleNamed? name with
      | some found =>
        rw [hmodule] at htype
        cases htype
        rfl
      | none =>
        rw [hmodule] at htype
        exact absurd htype (returnType?_ne_module _ table)

/-- A chain has the type of a module only if it is a bare name, or a variable
that such a name was assigned to. -/
lemma exists_moduleNamed?_of_chainType? {hops : Nat}
    (htype : resolver.chainType? hops chain line = some (.module table)) :
    ∃ name, resolver.workspace.moduleNamed? name = some table := by
  induction hops using Nat.strongRecOn generalizing chain line with
  | ind hops ih =>
    cases chain with
    | nil => simp [chainType?] at htype
    | cons head members =>
      unfold chainType? at htype
      obtain ⟨type, hhead, hmembers⟩ := Option.bind_eq_some_iff.mp htype
      rw [eq_module_of_foldlM_memberType? hmembers] at hhead
      split at hhead
      next =>
        unfold callType? at hhead
        split at hhead
        next => cases hhead
        next => exact absurd hhead (returnType?_ne_module _ table)
      next =>
        split at hhead
        next => exact ⟨head.name, moduleNamed?_of_nameType? hhead⟩
        next assignment _ =>
          split at hhead
          next => cases hhead
          next =>
            cases hops with
            | zero => cases hhead
            | succ hops => exact ih hops (Nat.lt_succ_self hops) hhead

/-! ## Agreement -/

structure CompletesAsResolved
    (resolver : Resolver) (position : Position) (locale : Locale) : Prop where
  /-- A bare name that is offered has a meaning from the source it is offered from. -/
  resolved : (resolver.typingAt position).trigger = .name →
      ∀ candidate ∈ resolver.completions position locale,
        ∃ found, resolver.resolveName candidate.label position.line = some found ∧
          found.source = candidate.source
  /-- A bare name with a meaning from a module is offered if it begins as typed. -/
  offered : (resolver.typingAt position).trigger = .name →
      ∀ name found, resolver.resolveName name position.line = some found → found.source ≠ .catalog →
        beginsWith (lower (resolver.typingAt position).typed) (lower name) = true →
          ∃ candidate ∈ resolver.completions position locale,
            candidate.source = found.source ∧ sameName candidate.label name = true
  type_members : ∀ chain type, (resolver.typingAt position).trigger = .member (some chain) →
      resolver.receiverType? chain position.line = some (.catalog type) →
        ∀ candidate ∈ resolver.completions position locale,
          (resolver.resolveMember (.catalog type) candidate.label).isSome = true
  /-- What is offered as a member of a module that declares no name twice is one. -/
  module_members : (∀ entry ∈ resolver.workspace.tables,
      ∃ file dialect text, entry.2 = parseModule file dialect text) →
    ∀ chain table, (resolver.typingAt position).trigger = .member (some chain) →
      resolver.receiverType? chain position.line = some (.module table) →
      (table.symbols.map Symbol.lowerName).Nodup →
        ∀ candidate ∈ resolver.completions position locale,
          (resolver.resolveMember (.module table) candidate.label).isSome = true

end Resolver

lemma Snapshot.exists_mem_of_moduleNamed? {snapshot : Snapshot}
    (hnamed : snapshot.moduleNamed? name = some table) :
    ∃ path, (path, table) ∈ snapshot.tables := by
  obtain ⟨path, -, hget⟩ := Option.bind_eq_some_iff.mp hnamed
  obtain ⟨⟨key, found⟩, hfound, rfl⟩ := Option.map_eq_some_iff.mp hget
  exact ⟨key, mem_of_find?_eq_some hfound⟩

/-- Completion agrees with the meaning of names, in every text, among any modules
and with any catalog.  Members of a module are found through an index, which fits
the symbols of a table if the table was read from a text. -/
theorem completesAsResolved_parseModule
    (file : Path) (dialect : Dialect) (text : String) (workspace : Snapshot)
    (catalogDialect : Dialect) (description : Catalog.Description)
    (position : Position) (locale : Locale) :
    Resolver.CompletesAsResolved
      ⟨parseModule file dialect text, workspace, .ofDescription catalogDialect description⟩
      position locale := by
  let resolver : Resolver :=
    ⟨parseModule file dialect text, workspace, .ofDescription catalogDialect description⟩
  let typed := lower (resolver.typingAt position).typed
  have hlayers : ∀ layer ∈ resolver.symbolLayers typed position.line, layer.Exact typed :=
    Resolver.exact_symbolLayers (ModuleTable.findsSymbols_parseModule file dialect text) typed _
  have hcatalog : (resolver.catalogLayer typed locale).Sound typed :=
    Resolver.sound_catalogLayer rfl typed locale
  constructor
  · intro htrigger candidate hcandidate
    rw [Resolver.completions_of_name locale htrigger] at hcandidate
    rw [Resolver.resolveName_eq_findSome? _ typed locale]
    exact Layer.exists_found_of_mem_merged hlayers hcatalog hcandidate
  · intro htrigger name found hfound hsource hbegins
    rw [Resolver.resolveName_eq_findSome? _ typed locale] at hfound
    obtain ⟨candidate, hcandidate, hsame, hlabel⟩ :=
      Layer.exists_mem_merged_of_found hlayers hcatalog hbegins hfound hsource
    rw [Resolver.completions_of_name locale htrigger]
    exact ⟨candidate, hcandidate, hsame, beq_iff_eq.mpr hlabel⟩
  · intro chain type htrigger hreceiver candidate hcandidate
    rw [Resolver.completions_of_member locale htrigger hreceiver] at hcandidate
    exact Resolver.resolveMember_catalog_isSome rfl (mem_of_mem_mergeBuckets_singleton hcandidate)
  · intro hread chain table htrigger hreceiver hdistinct candidate hcandidate
    rw [Resolver.completions_of_member locale htrigger hreceiver] at hcandidate
    obtain ⟨name, hnamed⟩ := Resolver.exists_moduleNamed?_of_chainType? hreceiver
    obtain ⟨path, htable⟩ := Snapshot.exists_mem_of_moduleNamed? hnamed
    obtain ⟨origin, written, content, rfl⟩ := hread _ htable
    exact Resolver.resolveMember_module_isSome _
      (ModuleTable.findsSymbols_parseModule origin written content) hdistinct
      (mem_of_mem_mergeBuckets_singleton hcandidate)

theorem completesAsResolved_exported_variable :
    let table := parseModule (Path.ofText "Б.bsl") .bsl "Перем В Экспорт;"
    let resolver : Resolver := ⟨parseModule (Path.ofText "m.bsl") .bsl "Б.",
      { tables := [(Path.ofText "Б.bsl", table)] }, .ofDescription .bsl { version := 1 }⟩
    (resolver.typingAt ⟨0, 2⟩).trigger = .member (some [⟨"Б", false⟩]) ∧
      resolver.receiverType? [⟨"Б", false⟩] 0 = some (.module table) ∧
      (table.symbols.map Symbol.lowerName).Nodup ∧
      ∀ candidate ∈ resolver.completions ⟨0, 2⟩ .ru,
        (resolver.resolveMember (.module table) candidate.label).isSome = true := by
  intro table resolver
  have htrigger : (resolver.typingAt ⟨0, 2⟩).trigger = .member (some [⟨"Б", false⟩]) := by
    decide +kernel
  have hreceiver : resolver.receiverType? [⟨"Б", false⟩] 0 = some (.module table) := by
    decide +kernel
  have hdistinct : (table.symbols.map Symbol.lowerName).Nodup := by decide +kernel
  have hread : ∀ entry ∈ resolver.workspace.tables,
      ∃ file dialect text, entry.2 = parseModule file dialect text := by
    simp only [resolver, forall_mem_singleton]
    exact ⟨_, _, _, rfl⟩
  have hagrees : resolver.CompletesAsResolved ⟨0, 2⟩ .ru :=
    completesAsResolved_parseModule _ _ _ _ _ _ _ _
  exact ⟨htrigger, hreceiver, hdistinct,
    hagrees.module_members hread _ table htrigger hreceiver hdistinct⟩

end BslInsight
