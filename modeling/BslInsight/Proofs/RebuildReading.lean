import BslInsight.Proofs.CachedTables
import BslInsight.Proofs.PathOrder
import BslInsight.Proofs.RebuildCollection

/-!
# What a rebuild reads

A rebuild reads the source files one after the other, stores their tables in the cache, and then
adds the open buffers that it has not met.  The files still to be read carry the induction: what
has been stored changes neither their texts nor what the cache finds for them, except that an
entry may be lost where two source files share one.
-/

namespace BslInsight

open List

variable (collected : Collected)

/-! ## Entries that are stored on the way -/

namespace TableCache

variable {cache : TableCache} {disk : Disk} {source : Path} {text : String}
  {table found : ModuleTable}

lemma load_eq_some_iff : cache.load disk source text = .ok (some found) ↔
      ∃ entry, disk.lookup (cache.entryPath source) =
          .ok (.file (.stored cache.compression entry)) ∧
        isValid entry source text ∧ entry.table = found := by
  unfold load
  split
  next failure hlk => simp [hlk]
  next compressed entry hlk =>
    rw [hlk]
    by_cases hcompressed : compressed = cache.compression
    · subst compressed
      by_cases hvalid : isValid entry source text
      · simp [hvalid]
      · simp [hvalid]
    · simp [hcompressed]
  next tree hoth hlk =>
    rw [hlk]
    constructor
    · intro hload
      cases hload
    · rintro ⟨entry, hentry, -⟩
      exact absurd (Except.ok.inj hentry) (hoth _ entry)

lemma load_of_load_store (hfile : table.file.same source = false)
    (hload : cache.load ((cache.store disk table).toOption.getD disk) source text =
      .ok (some found)) : cache.load disk source text = .ok (some found) := by
  rcases store_cases cache disk table with hsame | ⟨location, -, hchgs⟩
  · rwa [hsame] at hload
  · obtain ⟨entry, hlk, hvalid, htable⟩ := load_eq_some_iff.mp hload
    rcases hchgs.lookup_file hlk with hstored | hold
    · simp only [Option.some.injEq, FileContent.stored.injEq, true_and] at hstored
      rw [← hstored] at hvalid
      simp [isValid, hfile] at hvalid
    · exact load_eq_some_iff.mpr ⟨entry, hold, hvalid, htable⟩

lemma load_store_of_load
    (hentry : ∀ location, disk.locate (cache.entryPath table.file) = .ok location →
      disk.locate (cache.entryPath source) ≠ .ok location)
    (hload : cache.load disk source text = .ok (some found)) :
    cache.load ((cache.store disk table).toOption.getD disk) source text = .ok (some found) := by
  rcases store_cases cache disk table with hsame | ⟨location, hloc, hchgs⟩
  · rwa [hsame]
  · obtain ⟨entry, hlk, hrest⟩ := load_eq_some_iff.mp hload
    obtain ⟨place, hplace, hlook⟩ := Disk.lookup_file_iff.mp hlk
    have hne : place ≠ location := by
      rintro rfl
      exact hentry place hloc hplace
    refine load_eq_some_iff.mpr ⟨entry, Disk.lookup_file_iff.mpr ⟨place, ?_, ?_⟩, hrest⟩
    · exact hchgs.locate_iff.mpr hplace
    · rw [hchgs.look, if_neg hne]
      exact hlook

end TableCache

namespace Workspace

/-- No source file is a file in which the cache keeps the entry of one. -/
def EntriesAside (workspace : Workspace) (disk : Disk) (sources : List Path) : Prop :=
  ∀ cache, workspace.cache? = some cache → ∀ source ∈ sources, IsApart cache disk sources source

/-- The cache keeps the entries of different source files in different files. -/
def EntriesDistinct (workspace : Workspace) (disk : Disk) (sources : List Path) : Prop :=
  ∀ cache, workspace.cache? = some cache → ∀ first ∈ sources, ∀ second ∈ sources,
    first ≠ second → ∀ location, disk.locate (cache.entryPath first) = .ok location →
      disk.locate (cache.entryPath second) ≠ .ok location

/-- The table of a source file: of its buffer, or else of its text on disk. -/
def sourceTable? (workspace : Workspace) (disk : Disk) (source : Path) : Option ModuleTable :=
  ((workspace.buffers.get? source).or (readSource disk source).toOption).map
    (workspace.parse source)

def HasCached (workspace : Workspace) (disk : Disk) (source : Path) (table : ModuleTable) : Prop :=
  workspace.buffers.get? source = none ∧
    ∃ cache text, workspace.cache? = some cache ∧ readSource disk source = .ok text ∧
      cache.load disk source text = .ok (some table)

/-- What a rebuild takes for a source file, on the disk as it was at the beginning:
its table, or one that the cache has for it.  The latter may be lost on the way if
entries are not distinct. -/
structure Takes (workspace : Workspace) (disk : Disk) (source : Path) (distinct : Prop)
    (table? : Option ModuleTable) : Prop where
  known : table? = workspace.sourceTable? disk source ∨
    ∃ table, table? = some table ∧ workspace.HasCached disk source table
  kept : distinct → ∀ table, workspace.HasCached disk source table → table? = some table

/-- What a rebuild has made of the disk `start`, for the source files `rest` that it
has still to read. -/
structure Leaves (workspace : Workspace) (sources rest : List Path) (start disk : Disk) : Prop where
  locate : ∀ path location, disk.locate path = .ok location ↔ start.locate path = .ok location
  read : ∀ source ∈ rest, ∀ text,
    readSource disk source = .ok text ↔ readSource start source = .ok text
  cached : ∀ cache, workspace.cache? = some cache → ∀ source ∈ rest, ∀ text table,
    cache.load disk source text = .ok (some table) → cache.load start source text = .ok (some table)
  kept : workspace.EntriesDistinct start sources → ∀ cache, workspace.cache? = some cache →
    ∀ source ∈ rest, ∀ text table, cache.load start source text = .ok (some table) →
      cache.load disk source text = .ok (some table)

namespace Collected

def add (collected : Collected) (file : Path) : Option ModuleTable → Collected
  | some table => { collected with tables := collected.tables.insert file table }
  | none => { collected with failed := collected.failed + 1 }

lemma get?_add (file path : Path) (table? : Option ModuleTable) :
    (collected.add file table?).tables.get? path =
      if file.same path then table?.or (collected.tables.get? path)
      else collected.tables.get? path := by
  cases table? with
  | none => simp [add]
  | some table => exact TableMap.get?_insert collected.tables file path table

lemma failed_add (file : Path) (table? : Option ModuleTable) : (collected.add file table?).failed =
      collected.failed + if table?.isNone = true then 1 else 0 := by
  cases table? <;> rfl

end Collected

lemma collectFile_eq_add (ws : Workspace) (state : Collected × Disk) (file : Path) :
    ws.collectFile state file = (state.1.add file (ws.loadTable state.2 file).1,
        (ws.loadTable state.2 file).2) := by
  rw [collectFile_eq]
  cases (ws.loadTable state.2 file).1 <;> rfl

section Collecting

variable {workspace ws : Workspace} {start disk : Disk} {sources rest : List Path} {source : Path}

lemma Leaves.refl (ws : Workspace) (sources rest : List Path) (disk : Disk) :
    ws.Leaves sources rest disk disk where
  locate := fun _ _ => Iff.rfl
  read := fun _ _ _ => Iff.rfl
  cached := fun _ _ _ _ _ _ hload => hload
  kept := fun _ _ _ _ _ _ _ hload => hload

lemma Leaves.tail (hleaves : ws.Leaves sources (source :: rest) start disk) :
    ws.Leaves sources rest start disk where
  locate := hleaves.locate
  read := fun other hoth => hleaves.read other (mem_cons_of_mem source hoth)
  cached := fun cache hcache other hoth =>
    hleaves.cached cache hcache other (mem_cons_of_mem source hoth)
  kept := fun hdist cache hcache other hoth =>
    hleaves.kept hdist cache hcache other (mem_cons_of_mem source hoth)

lemma Leaves.store (hleaves : ws.Leaves sources rest start disk) {cache : TableCache}
    (hcache : ws.cache? = some cache) (haside : ws.EntriesAside start sources)
    (hsrc : source ∈ sources) (hrest : rest ⊆ sources)
    (hoths : ∀ other ∈ rest, source.same other = false)
    {table : ModuleTable} (hfile : table.file = source) :
    ws.Leaves sources rest start ((cache.store disk table).toOption.getD disk) := by
  have hown (other : TableCache) (hoth : ws.cache? = some other) : other = cache :=
    Option.some.inj (hoth.symm.trans hcache)
  refine ⟨?_, ?_, ?_, ?_⟩
  · intro path location
    rcases TableCache.store_cases cache disk table with hsame | ⟨changed, -, hchgs⟩
    · rw [hsame, hleaves.locate]
    · rw [hchgs.locate_iff, hleaves.locate]
  · intro other hoth text
    rcases TableCache.store_cases cache disk table with hsame | ⟨changed, hloc, hchgs⟩
    · rw [hsame, hleaves.read other hoth]
    · rw [hfile, hleaves.locate] at hloc
      have hapart : disk.locate other ≠ .ok changed := by
        rw [Ne, hleaves.locate]
        intro hfound
        exact haside cache hcache other (hrest hoth) source hsrc changed hfound hloc
      rw [hchgs.readSource_iff hapart, hleaves.read other hoth]
  · intro own howned other hoth text found hload
    obtain rfl := hown own howned
    apply hleaves.cached own howned other hoth text found
    exact TableCache.load_of_load_store (hfile ▸ hoths other hoth) hload
  · intro hdist own howned other hoth text found hload
    obtain rfl := hown own howned
    apply TableCache.load_store_of_load
    · intro location hloc
      rw [hfile, hleaves.locate] at hloc
      rw [Ne, hleaves.locate]
      apply hdist own howned source hsrc other (hrest hoth) ?_ location hloc
      rintro rfl
      simpa using hoths source hoth
    · exact hleaves.kept hdist own howned other hoth text found hload

lemma sourceTable?_eq_parse (hbuf : ws.buffers.get? source = none) {text : String}
    (hread : readSource disk source = .ok text) :
    ws.sourceTable? disk source = some (ws.parse source text) := by
  simp [sourceTable?, hbuf, hread, Except.toOption]

lemma Takes.isNone {distinct : Prop} {table? : Option ModuleTable}
    (htakes : ws.Takes disk source distinct table?) :
    table?.isNone = (ws.sourceTable? disk source).isNone := by
  rcases htakes.known with hsame | ⟨table, rfl, hbuf, cache, text, -, hread, -⟩
  · rw [hsame]
  · rw [sourceTable?_eq_parse hbuf hread]
    rfl

lemma Leaves.loadTable (hleaves : ws.Leaves sources (source :: rest) start disk)
    (haside : ws.EntriesAside start sources) (hsrcs : source :: rest ⊆ sources)
    (hoths : ∀ other ∈ rest, source.same other = false) :
    ws.Takes start source (ws.EntriesDistinct start sources) (ws.loadTable disk source).1 ∧
      ws.Leaves sources rest start (ws.loadTable disk source).2 := by
  have hmem : source ∈ source :: rest := mem_cons_self
  unfold Workspace.loadTable
  cases hbuf : ws.buffers.get? source with
  | some text =>
    refine ⟨⟨.inl ?_, ?_⟩, hleaves.tail⟩
    · simp [sourceTable?, hbuf]
    · rintro - table ⟨hnone, -⟩
      rw [hbuf] at hnone
      cases hnone
  | none =>
    simp only
    unfold Workspace.loadFile
    cases hread : readSource start source with
    | error failure =>
      have hunread (text : String) : readSource disk source ≠ .ok text := by
        rw [Ne, hleaves.read source hmem, hread]
        simp
      cases hnow : readSource disk source with
      | ok text => exact absurd hnow (hunread text)
      | error other =>
        refine ⟨⟨.inl ?_, ?_⟩, hleaves.tail⟩
        · simp [sourceTable?, hbuf, hread, Except.toOption]
        · rintro - table ⟨-, cache, text, -, hsome, -⟩
          rw [hread] at hsome
          cases hsome
    | ok text =>
      rw [(hleaves.read source hmem text).mpr hread]
      simp only
      cases hcache : ws.cache? with
      | none =>
        refine ⟨⟨.inl (sourceTable?_eq_parse hbuf hread).symm, ?_⟩, hleaves.tail⟩
        rintro - table ⟨-, cache, other, hsome, -⟩
        rw [hcache] at hsome
        cases hsome
      | some cache =>
        -- What the cache has had for the file from the beginning.
        have hhas {table : ModuleTable} (htable : ws.HasCached start source table) :
            cache.load start source text = .ok (some table) := by
          obtain ⟨-, own, other, howned, hoth, hload⟩ := htable
          rw [hcache, Option.some.injEq] at howned
          rw [hread, Except.ok.injEq] at hoth
          rwa [howned, hoth]
        simp only
        split
        next table hload =>
          refine ⟨⟨.inr ⟨table, rfl, hbuf, cache, text, hcache, hread, ?_⟩, ?_⟩, hleaves.tail⟩
          · exact hleaves.cached cache hcache source hmem text table hload
          · intro hdist other hoth
            have hkept := hleaves.kept hdist cache hcache source hmem text other (hhas hoth)
            rw [hload, Except.ok.injEq] at hkept
            exact hkept
        next hmiss =>
          refine ⟨⟨.inl (sourceTable?_eq_parse hbuf hread).symm, ?_⟩, ?_⟩
          · intro hdist table htable
            have hkept := hleaves.kept hdist cache hcache source hmem text table (hhas htable)
            exact absurd hkept (hmiss table)
          · exact hleaves.tail.store hcache haside (hsrcs hmem)
              (cons_subset.mp hsrcs).2 hoths (parseModule_origin source _ text).1

/-- All source files of a rebuild: each of them gives what is taken for it, and those
that give nothing are counted. -/
lemma Leaves.foldl_collectFile (haside : ws.EntriesAside start sources) {files : List Path}
    (hfiles : files ⊆ sources) (hsort : files.Pairwise Path.Before)
    (hnorm : ∀ file ∈ files, file.normalize = file)
    (hleaves : ws.Leaves sources files start disk) (collected : Collected) :
    let final := (files.foldl ws.collectFile (collected, disk)).1
    (∀ path, path.normalize = path →
      path ∉ files ∧ final.tables.get? path = collected.tables.get? path ∨ path ∈ files ∧ ∃ table?,
          ws.Takes start path (ws.EntriesDistinct start sources) table? ∧
            final.tables.get? path = table?.or (collected.tables.get? path)) ∧
      final.failed = collected.failed +
        files.countP fun file => (ws.sourceTable? start file).isNone := by
  induction files generalizing collected disk with
  | nil => exact ⟨fun path _ => .inl ⟨not_mem_nil, rfl⟩, rfl⟩
  | cons file rest ih =>
    obtain ⟨hbef, hrest⟩ := pairwise_cons.mp hsort
    have hoths (other : Path) (hoth : other ∈ rest) : file.same other = false :=
      (hbef other hoth).not_same
    obtain ⟨htakes, hnext⟩ := hleaves.loadTable haside hfiles hoths
    rw [foldl_cons, collectFile_eq_add]
    generalize (ws.loadTable disk file).1 = table? at htakes
    generalize (ws.loadTable disk file).2 = after at hnext
    obtain ⟨htabs, hfailed⟩ := ih (cons_subset.mp hfiles).2 hrest
      (fun other hoth => hnorm other (mem_cons_of_mem file hoth)) hnext
      (collected.add file table?)
    constructor
    · intro path hpath
      by_cases hfile : path = file
      · subst path
        rcases htabs file hpath with ⟨-, hget⟩ | ⟨hlater, -⟩
        · rw [Collected.get?_add, if_pos (Path.same_self file)] at hget
          exact .inr ⟨mem_cons_self, table?, htakes, hget⟩
        · simpa using hoths file hlater
      · have hoth : file.same path = false := by
          rw [Bool.eq_false_iff]
          intro hsame
          exact hfile (Path.eq_of_same_of_normalize hsame (hnorm file mem_cons_self) hpath).symm
        have hget := htabs path hpath
        simp only [Collected.get?_add, hoth, Bool.false_eq_true, if_false] at hget
        simpa [hfile] using hget
    · rw [hfailed, Collected.failed_add, htakes.isNone, countP_cons]
      omega

end Collecting

section Buffers

variable {workspace ws : Workspace} {root path : Path}

lemma get?_foldl_collectBuffer_eq (hpath : path.normalize = path) {buffers : PathMap String}
    (hkeys : ∀ entry ∈ buffers, entry.1.normalize = entry.1) (collected : Collected) :
    (buffers.foldl (ws.collectBuffer root) collected).tables.get? path =
      (collected.tables.get? path).or
        (if path.startsWith root ∧ (ws.settings.dialectFor? path).isSome = true then
          (buffers.get? path).map (ws.parse path) else none) := by
  induction buffers generalizing collected with
  | nil => simp [PathMap.get?]
  | cons buffer rest ih =>
    obtain ⟨key, text⟩ := buffer
    have hrest := ih fun entry hentry => hkeys entry (mem_cons_of_mem _ hentry)
    rw [foldl_cons, hrest, PathMap.get?_cons]
    by_cases hsame : key.same path
    · have heq := Path.eq_of_same_of_normalize hsame (hkeys _ mem_cons_self) hpath
      subst key
      cases hget : collected.tables.get? path with
      | some table => simp [get?_collectBuffer_of_some hget]
      | none =>
        by_cases hbelow : path.startsWith root ∧ (ws.settings.dialectFor? path).isSome
        · simp [collectBuffer, hbelow, hget, TableMap.get?_insert]
        · have hskip : ws.collectBuffer root collected (path, text) = collected := by
            simp only [collectBuffer, hget, Option.isNone_none, Bool.and_true, Bool.and_eq_true,
              if_neg hbelow]
          simp [hskip, hget, hbelow]
    · have hoth : (ws.collectBuffer root collected (key, text)).tables.get? path =
          collected.tables.get? path := by
        unfold collectBuffer
        simp only
        split
        · simp [TableMap.get?_insert, hsame]
        · rfl
      rw [hoth, if_neg hsame]

lemma failed_foldl_collectBuffer (buffers : PathMap String) (collected : Collected) :
    (buffers.foldl (ws.collectBuffer root) collected).failed = collected.failed := by
  induction buffers generalizing collected with
  | nil => rfl
  | cons buffer rest ih =>
    rw [foldl_cons, ih, collectBuffer]
    split <;> rfl

end Buffers

end Workspace

namespace TableMap.IsIndex

lemma foldl_collectFile (ws : Workspace) {files : List Path}
    (hfiles : ∀ file ∈ files, file.normalize = file) {state : Workspace.Collected × Disk}
    (hindex : state.1.tables.IsIndex) :
    (files.foldl ws.collectFile state).1.tables.IsIndex := by
  induction files generalizing state with
  | nil => exact hindex
  | cons file rest ih =>
    apply ih fun other hoth => hfiles other (mem_cons_of_mem file hoth)
    rw [Workspace.collectFile_eq_add]
    cases (ws.loadTable state.2 file).1 with
    | none => exact hindex
    | some table => exact hindex.insert (hfiles file mem_cons_self) table

lemma foldl_collectBuffer (ws : Workspace) (root : Path) {buffers : PathMap String}
    (hbufs : ∀ entry ∈ buffers, entry.1.normalize = entry.1)
    {collected : Workspace.Collected} (hindex : collected.tables.IsIndex) :
    (buffers.foldl (ws.collectBuffer root) collected).tables.IsIndex := by
  induction buffers generalizing collected with
  | nil => exact hindex
  | cons buffer rest ih =>
    apply ih fun other hoth => hbufs other (mem_cons_of_mem buffer hoth)
    unfold Workspace.collectBuffer
    simp only
    split
    · exact hindex.insert (hbufs buffer mem_cons_self) _
    · exact hindex

end TableMap.IsIndex

end BslInsight
