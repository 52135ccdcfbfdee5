import BslInsight.Proofs.DiskPlaces
import BslInsight.Proofs.LiveText
import BslInsight.Proofs.WorkspaceSteps
import Mathlib.Data.List.Forall2

/-!
# Tables from the cache

The cache outlives the program, and entries of different modules may share a file.  An entry is
trusted if it names the path and the text that are asked for.  This is enough as long as every
entry of the current version was parsed with the dialect of its path, which all that the program
does preserves.
-/

namespace BslInsight

open List

variable {text : String} {table other : ModuleTable} {source path root : Path}
  {collected : Collected} {workspace ws : Workspace}

/-! ## What a text parses to -/

lemma Dialect.ofPath?_congr {first second : Path} (hsame : first.same second) :
    Dialect.ofPath? first = Dialect.ofPath? second := by
  simp only [Dialect.ofPath?, Path.extension?, Path.fileName?, Path.same_iff.mp hsame]

lemma Workspace.dialectOf_eq (ws : Workspace) (path : Path) :
    ws.dialectOf path = (Dialect.ofPath? path).getD .bsl := by
  unfold dialectOf Settings.dialectFor?
  cases path.extension?.map lower with
  | none => simp
  | some extension =>
    by_cases hindexed : ws.settings.extensions.any (sameAscii · extension)
    · simp [hindexed]
    · simp [hindexed]

lemma Workspace.parse_eq (first second : Workspace) : first.parse = second.parse := by
  funext path text
  simp only [parse, dialectOf_eq]

def IsMarked (text : String) : Prop := text.toList.head? = some '\ufeff'

lemma dropByteOrderMark_of_not_isMarked (hmark : ¬ IsMarked text) :
    dropByteOrderMark text.toList = text.toList := by
  unfold dropByteOrderMark
  split
  next rest hrest =>
    rw [IsMarked, hrest] at hmark
    exact absurd rfl hmark
  next => rfl

lemma parseModule_of_text {file : Path} {dialect : Dialect} {origin : String}
    (htext : (parseModule file dialect origin).text = text) (hmark : ¬ IsMarked text) :
    parseModule file dialect origin = parseModule file dialect text := by
  apply parseModule_of_dropped
  rw [(parseModule_origin file dialect origin).2] at htext
  rw [dropByteOrderMark_of_not_isMarked hmark, ← htext, String.toList_ofList]

namespace ModuleTable

def IsParsed (table : ModuleTable) : Prop :=
  ∃ (workspace : Workspace) (path : Path) (text : String), table = workspace.parse path text

/-- Equality of tables, in which it does not matter how their path is spelled. -/
inductive SameUpToSpelling : ModuleTable → ModuleTable → Prop
  | refl (table : ModuleTable) : SameUpToSpelling table table
  | respelled {first second : Path} (hsame : first.same second = true)
      (dialect : Dialect) (text : String) :
      SameUpToSpelling (parseModule first dialect text) (parseModule second dialect text)

lemma SameUpToSpelling.dialect_eq (hsame : table.SameUpToSpelling other) :
    table.dialect = other.dialect := by
  cases hsame with
  | refl => rfl
  | respelled => rw [parseModule_dialect, parseModule_dialect]

lemma SameUpToSpelling.rel_refl (table? : Option ModuleTable) :
    Option.Rel SameUpToSpelling table? table? := by
  cases table? with
  | none => exact .none
  | some table => exact .some (.refl table)

lemma SameUpToSpelling.symm (hsame : table.SameUpToSpelling other) :
    other.SameUpToSpelling table := by
  cases hsame with
  | refl => exact .refl table
  | @respelled first second hpaths dialect text =>
    exact .respelled (Path.same_comm first second ▸ hpaths) dialect text

lemma SameUpToSpelling.trans {between : ModuleTable} (hfirst : table.SameUpToSpelling between)
    (hsnd : between.SameUpToSpelling other) : table.SameUpToSpelling other := by
  cases hfirst with
  | refl => exact hsnd
  | @respelled first second hpaths dialect text =>
    generalize hbetween : parseModule second dialect text = between at hsnd
    cases hsnd with
    | refl =>
      rw [← hbetween]
      exact .respelled hpaths dialect text
    | @respelled third fourth hoths language content =>
      -- A table tells its path, its dialect and its text.
      have hfile : second = third := by
        rw [← (parseModule_origin second dialect text).1, hbetween,
          (parseModule_origin third language content).1]
      have hdial : dialect = language := by
        rw [← parseModule_dialect second dialect text, hbetween, parseModule_dialect]
      have htext : dropByteOrderMark content.toList = dropByteOrderMark text.toList := by
        rw [← String.ofList_inj, ← (parseModule_origin third language content).2, ← hbetween,
          (parseModule_origin second dialect text).2]
      subst third language
      rw [parseModule_of_dropped htext]
      apply SameUpToSpelling.respelled
      rw [Path.same_congr_left hpaths]
      exact hoths

lemma SameUpToSpelling.rel_congr_right
    {first second third : Option ModuleTable} (hsame : Option.Rel SameUpToSpelling second third) :
    Option.Rel SameUpToSpelling first second ↔ Option.Rel SameUpToSpelling first third := by
  cases hsame with
  | none => rfl
  | some hsnd =>
    constructor
    · rintro ⟨hfirst⟩
      exact .some (hfirst.trans hsnd)
    · rintro ⟨hfirst⟩
      exact .some (hfirst.trans hsnd.symm)

lemma SameUpToSpelling.eq_of_file_eq (hsame : table.SameUpToSpelling other)
    (hfile : table.file = other.file) : table = other := by
  cases hsame with
  | refl => rfl
  | respelled hpaths dialect text =>
    rw [(parseModule_origin _ dialect text).1, (parseModule_origin _ dialect text).1] at hfile
    rw [hfile]

lemma sameUpToSpelling_parse (ws : Workspace) {first second : Path} (hsame : first.same second)
    (text : String) :
    (ws.parse first text).SameUpToSpelling (ws.parse second text) := by
  unfold Workspace.parse
  rw [ws.dialectOf_eq first, ws.dialectOf_eq second, Dialect.ofPath?_congr hsame]
  exact .respelled hsame _ text

end ModuleTable

namespace TableCache

def IsCurrent (entry : StoredTable) : Prop :=
  entry.formatVersion = formatVersion ∧ entry.programVersion = programVersion

/-- All entries of this version that the cache can find satisfy a condition.
Nothing is said about entries that cannot be decoded. -/
def Holds (cache : TableCache) (disk : Disk) (condition : ModuleTable → Prop) : Prop :=
  ∀ source compressed entry,
    disk.lookup (cache.entryPath source) = .ok (.file (.stored compressed entry)) →
      IsCurrent entry → condition entry.table

variable {cache own : TableCache} {disk after : Disk} {condition : ModuleTable → Prop}

/-! ## Single operations -/

lemma load_eq_some (hload : cache.load disk source text = .ok (some table)) : ∃ compressed entry,
      disk.lookup (cache.entryPath source) = .ok (.file (.stored compressed entry)) ∧
        IsCurrent entry ∧ entry.table = table ∧ table.file.same source ∧ table.text = text := by
  unfold load at hload
  split at hload
  next => cases hload
  next compressed entry hlk =>
    split at hload
    next =>
      rw [Except.ok.injEq] at hload
      split at hload
      next hvalid =>
        obtain rfl := Option.some.inj hload
        simp only [isValid, Bool.and_eq_true, beq_iff_eq] at hvalid
        exact ⟨compressed, entry, hlk, hvalid.1.1, rfl, hvalid.1.2, hvalid.2⟩
      next => cases hload
    next => cases hload
  next => cases hload

lemma store_cases (own : TableCache) (disk : Disk) (table : ModuleTable) :
    (own.store disk table).toOption.getD disk = disk ∨
      ∃ location, disk.locate (own.entryPath table.file) = .ok location ∧
        disk.ChangesFile ((own.store disk table).toOption.getD disk) location
          (some (.stored own.compression ⟨formatVersion, programVersion, table⟩)) := by
  unfold store
  simp only
  split
  next changed hwrite => exact .inr (Disk.changesFile_write hwrite)
  next => exact .inl rfl

lemma remove_cases (own : TableCache) (disk : Disk) (source : Path) :
    (own.remove disk source).toOption.getD disk = disk ∨
      ∃ location, disk.locate (own.entryPath source) = .ok location ∧
        disk.ChangesFile ((own.remove disk source).toOption.getD disk) location none := by
  unfold remove
  simp only
  split
  next =>
    split
    next changed hrem => exact .inr (Disk.changesFile_removeFile hrem)
    next => exact .inl rfl
  next => exact .inl rfl

/-! ## The invariant -/

section

variable (hholds : cache.Holds disk condition)
include hholds

lemma Holds.changesFile {location : List FileName}
    {content? : Option FileContent} (hchgs : disk.ChangesFile after location content?)
    (hcontent : ∀ compressed entry, content? = some (.stored compressed entry) →
      condition entry.table) : cache.Holds after condition := by
  intro source compressed entry hlk hcur
  rcases hchgs.lookup_file hlk with hnew | hold
  · exact hcontent compressed entry hnew
  · exact hholds source compressed entry hold hcur

lemma Holds.store (own : TableCache) (htable : condition table) :
    cache.Holds ((own.store disk table).toOption.getD disk) condition := by
  rcases store_cases own disk table with hsame | ⟨location, -, hchgs⟩
  · rwa [hsame]
  · apply hholds.changesFile hchgs
    intro compressed entry hentry
    simp only [Option.some.injEq, FileContent.stored.injEq] at hentry
    rw [← hentry.2]
    exact htable

lemma Holds.remove (own : TableCache) (source : Path) :
    cache.Holds ((own.remove disk source).toOption.getD disk) condition := by
  rcases remove_cases own disk source with hsame | ⟨location, -, hchgs⟩
  · rwa [hsame]
  · exact hholds.changesFile hchgs (by simp)

lemma Holds.foldl_removeFile (paths : List Path) (removed : Nat) : cache.Holds
      (paths.foldl (fun (state : Nat × Disk) path =>
        match state.2.removeFile path with
        | .ok disk => (state.1 + 1, disk)
        | .error _ => (state.1, state.2)) (removed, disk)).2 condition := by
  induction paths generalizing disk removed with
  | nil => exact hholds
  | cons path rest ih =>
    rw [foldl_cons]
    simp only
    split
    next changed hrem =>
      obtain ⟨location, -, hchgs⟩ := Disk.changesFile_removeFile hrem
      exact ih (hholds.changesFile hchgs (by simp)) _
    next => exact ih hholds removed

lemma Holds.clear (own : TableCache) :
    cache.Holds (((own.clear disk).toOption.map Prod.snd).getD disk) condition := by
  unfold TableCache.clear
  split
  next => exact hholds
  next paths _ => exact hholds.foldl_removeFile paths 0

lemma Holds.evictFile (ws : Workspace) (path : Path) :
    cache.Holds (ws.evictFile disk path).2 condition := by
  unfold Workspace.evictFile
  cases ws.cache? with
  | none => exact hholds
  | some own => exact hholds.remove own path.normalize

lemma Holds.loadFile (hprs : ∀ text, condition (ws.parse path text)) :
    cache.Holds (ws.loadFile disk path).2 condition := by
  unfold Workspace.loadFile
  split
  next => exact hholds
  next text _ =>
    split
    next => exact hholds
    next own _ =>
      split
      next => exact hholds
      next => exact hholds.store own (hprs text)

end

lemma Holds.collectFile {state : Workspace.Collected × Disk}
    (hholds : cache.Holds state.2 condition)
    (hprs : ∀ text, condition (ws.parse path text)) :
    cache.Holds (ws.collectFile state path).2 condition := by
  have hload : cache.Holds (ws.loadTable state.2 path).2 condition := by
    unfold Workspace.loadTable
    split
    next => exact hholds
    next => exact hholds.loadFile hprs
  unfold Workspace.collectFile
  simp only
  split
  next hloaded => rwa [hloaded] at hload
  next hloaded => rwa [hloaded] at hload

lemma Holds.fullRebuild (hholds : cache.Holds disk condition)
    (hprs : ∀ path ∈ sourceFiles ws.settings disk root.normalize, ∀ text,
      condition (ws.parse path text)) :
    cache.Holds (ws.fullRebuild disk root).2.2 condition := by
  have hfold (begun : Workspace) (hbegun : begun.settings = ws.settings) (files : List Path)
      (hfiles : ∀ path ∈ files, ∀ text, condition (ws.parse path text)) :
      ∀ state : Workspace.Collected × Disk, cache.Holds state.2 condition →
        cache.Holds (files.foldl begun.collectFile state).2 condition := by
    induction files with
    | nil => exact fun state hstate => hstate
    | cons file rest ih =>
      intro state hstate
      apply ih fun path hpath => hfiles path (mem_cons_of_mem file hpath)
      apply hstate.collectFile
      rw [Workspace.parse_congr hbegun]
      exact hfiles file mem_cons_self
  unfold Workspace.fullRebuild Workspace.rebuildRoot
  by_cases hroot : disk.isDirectory root.normalize
  · simp only [hroot, if_true]
    exact hfold _ rfl _ hprs _ hholds
  · simp only [hroot, Bool.false_eq_true, if_false]
    exact hholds

/-- What the cache finds satisfies the condition, and it has the path and the
text that were asked for. -/
lemma Holds.load (hholds : cache.Holds disk condition)
    (hload : cache.load disk source text = .ok (some table)) :
    condition table ∧ table.file.same source ∧ table.text = text := by
  obtain ⟨compressed, entry, hlk, hcur, rfl, hsame, htext⟩ := load_eq_some hload
  exact ⟨hholds source compressed entry hlk hcur, hsame, htext⟩

lemma Holds.load_parse (hholds : cache.Holds disk ModuleTable.IsParsed) (hmark : ¬ IsMarked text)
    (hload : cache.load disk source text = .ok (some table)) (ws : Workspace) :
    table.SameUpToSpelling (ws.parse source text) := by
  obtain ⟨⟨other, path, origin, rfl⟩, hsame, htext⟩ := hholds.load hload
  have hfile : (other.parse path origin).file = path := (parseModule_origin path _ origin).1
  have htable : other.parse path origin = other.parse path text := parseModule_of_text htext hmark
  rw [hfile] at hsame
  rw [htable, Workspace.parse_eq ws other]
  exact ModuleTable.sameUpToSpelling_parse other hsame text

end TableCache

/-! ## A rebuild with a cache and one without -/

def TableMap.SameTables (first second : TableMap) : Prop :=
  Forall₂ (fun entry other => entry.1 = other.1 ∧ entry.2.SameUpToSpelling other.2) first second

namespace TableMap.SameTables

variable {first second : TableMap}

lemma refl (tables : TableMap) : SameTables tables tables :=
  forall₂_same.mpr fun entry _ => ⟨rfl, .refl entry.2⟩

variable (hsame : SameTables first second)
include hsame

lemma insert (path : Path) (htable : table.SameUpToSpelling other) :
    SameTables (first.insert path table) (second.insert path other) := by
  induction hsame with
  | nil => exact .cons ⟨rfl, htable⟩ .nil
  | @cons entry entry' rest rest' hentry hrest ih =>
    obtain ⟨key, old⟩ := entry
    obtain ⟨key', old'⟩ := entry'
    obtain ⟨rfl, hold⟩ := hentry
    simp only [TableMap.insert]
    cases path.compare key with
    | lt => exact .cons ⟨rfl, htable⟩ (.cons ⟨rfl, hold⟩ hrest)
    | eq => exact .cons ⟨rfl, htable⟩ hrest
    | gt => exact .cons ⟨rfl, hold⟩ ih

lemma erase (path : Path) : SameTables (first.erase path) (second.erase path) :=
  rel_filter (fun _ _ hentry => by simp [hentry.1]) hsame

lemma get? (path : Path) :
    Option.Rel ModuleTable.SameUpToSpelling (first.get? path) (second.get? path) := by
  induction hsame with
  | nil => exact .none
  | @cons entry entry' rest rest' hentry hrest ih =>
    obtain ⟨key, old⟩ := entry
    obtain ⟨key', old'⟩ := entry'
    obtain ⟨rfl, hold⟩ := hentry
    rw [TableMap.get?_cons, TableMap.get?_cons]
    split
    · exact .some hold
    · exact ih

lemma isNone_get? (path : Path) : (first.get? path).isNone = (second.get? path).isNone := by
  have hrel := hsame.get? path
  generalize TableMap.get? first path = found at hrel ⊢
  generalize TableMap.get? second path = other at hrel ⊢
  cases hrel <;> rfl

lemma foldl_keepCurrent (snapshot : Snapshot) (records : PathMap Nat) : SameTables
      (records.foldl (fun tables (record : Path × Nat) =>
          Workspace.keepCurrent snapshot tables record.1) first)
      (records.foldl (fun tables (record : Path × Nat) =>
          Workspace.keepCurrent snapshot tables record.1) second) := by
  induction records generalizing first second with
  | nil => exact hsame
  | cons record rest ih =>
    apply ih
    cases hget : snapshot.get? record.1 with
    | some table =>
      simp only [Workspace.keepCurrent, hget]
      exact hsame.insert record.1 (.refl table)
    | none =>
      simp only [Workspace.keepCurrent, hget]
      exact hsame.erase record.1

end TableMap.SameTables

namespace Workspace

def uncached (workspace : Workspace) : Workspace := { workspace with cache? := none }

def IsApart (cache : TableCache) (disk : Disk) (sources : List Path) (path : Path) : Prop :=
  ∀ source ∈ sources, ∀ location,
    disk.locate path = .ok location → disk.locate (cache.entryPath source) ≠ .ok location

/-- What a rebuild needs of the source files to be independent of the cache:
their texts do not begin with a mark, and none of them is a file in which the
cache keeps an entry. -/
structure SourcesApart (cache : TableCache) (disk : Disk) (sources : List Path) : Prop where
  unmarked : ∀ source ∈ sources, ∀ text, readSource disk source = .ok text → ¬ IsMarked text
  apart : ∀ source ∈ sources, IsApart cache disk sources source

/-- What a rebuild with a cache has made of the disk `start`: files that are no
entries are read as before, and the entries can be trusted. -/
structure ReadsAs (cache : TableCache) (sources : List Path) (start disk : Disk) : Prop where
  holds : cache.Holds disk ModuleTable.IsParsed
  locate : ∀ path location, disk.locate path = .ok location ↔ start.locate path = .ok location
  read : ∀ path, IsApart cache start sources path →
      ∀ text, readSource disk path = .ok text ↔ readSource start path = .ok text

lemma ReadsAs.refl {cache : TableCache} {sources : List Path} {disk : Disk}
    (hholds : cache.Holds disk ModuleTable.IsParsed) : ReadsAs cache sources disk disk :=
  ⟨hholds, fun _ _ => Iff.rfl, fun _ _ _ => Iff.rfl⟩

section Lockstep

variable {workspace ws : Workspace} {cache : TableCache} {start disk : Disk} {sources : List Path}

lemma ReadsAs.store (hreads : ReadsAs cache sources start disk) (hpath : path ∈ sources)
    (htable : table.IsParsed) (hfile : table.file = path) :
    ReadsAs cache sources start ((cache.store disk table).toOption.getD disk) := by
  rcases TableCache.store_cases cache disk table with hsame | ⟨location, hloc, hchgs⟩
  · rwa [hsame]
  · rw [hfile] at hloc
    refine ⟨hreads.holds.store cache htable, ?_, ?_⟩
    · intro other found
      rw [hchgs.locate_iff, hreads.locate]
    · intro other hapart text
      have hoth : disk.locate other ≠ .ok location := by
        intro hfound
        exact hapart path hpath location ((hreads.locate _ _).mp hfound)
          ((hreads.locate _ _).mp hloc)
      rw [hchgs.readSource_iff hoth, hreads.read other hapart]

lemma ReadsAs.loadTable (hcache : workspace.cache? = some cache)
    (hreads : ReadsAs cache sources start disk) (hsrcs : SourcesApart cache start sources)
    (hpath : path ∈ sources) :
    Option.Rel ModuleTable.SameUpToSpelling (workspace.loadTable disk path).1
        (workspace.uncached.loadTable start path).1 ∧
      ReadsAs cache sources start (workspace.loadTable disk path).2 ∧
      (workspace.uncached.loadTable start path).2 = start := by
  unfold Workspace.loadTable
  have hbufs : workspace.uncached.buffers = workspace.buffers := rfl
  rw [hbufs]
  cases workspace.buffers.get? path with
  | some text => exact ⟨.some (.refl _), hreads, rfl⟩
  | none =>
    simp only
    unfold Workspace.loadFile
    have hapart := hsrcs.apart path hpath
    cases hread : readSource start path with
    | error failure =>
      cases hnow : readSource disk path with
      | error other => exact ⟨.none, hreads, rfl⟩
      | ok text =>
        rw [hreads.read path hapart, hread] at hnow
        cases hnow
    | ok text =>
      have hunmarked := hsrcs.unmarked path hpath text hread
      rw [(hreads.read path hapart text).mpr hread]
      simp only [hcache, uncached, and_true]
      split
      next table hload => exact ⟨.some (hreads.holds.load_parse hunmarked hload workspace), hreads⟩
      next =>
        have hfile : (workspace.parse path text).file = path := (parseModule_origin path _ text).1
        exact ⟨.some (.refl _), hreads.store hpath ⟨workspace, path, text, rfl⟩ hfile⟩

lemma collectFile_eq (ws : Workspace) (state : Collected × Disk) (path : Path) :
    ws.collectFile state path = (match (ws.loadTable state.2 path).1 with
        | some table => { state.1 with tables := state.1.tables.insert path table }
        | none => { state.1 with failed := state.1.failed + 1 },
        (ws.loadTable state.2 path).2) := by
  unfold collectFile
  simp only
  split
  next hload => rw [hload]
  next hload => rw [hload]

structure Collected.SameAs (collected other : Collected) : Prop where
  tables : collected.tables.SameTables other.tables
  failed : collected.failed = other.failed

lemma Collected.SameAs.refl (collected : Collected) : collected.SameAs collected :=
  ⟨TableMap.SameTables.refl collected.tables, rfl⟩

lemma ReadsAs.foldl_collectFile (hcache : ws.cache? = some cache)
    (hsrcs : SourcesApart cache start sources) {files : List Path} (hfiles : files ⊆ sources)
    {other : Collected} (hreads : ReadsAs cache sources start disk) (hsame : collected.SameAs other) :
    (files.foldl ws.collectFile (collected, disk)).1.SameAs
        (files.foldl ws.uncached.collectFile (other, start)).1 ∧
      ReadsAs cache sources start (files.foldl ws.collectFile (collected, disk)).2 := by
  induction files generalizing collected other disk with
  | nil => exact ⟨hsame, hreads⟩
  | cons file rest ih =>
    obtain ⟨hfile, hrest⟩ := cons_subset.mp hfiles
    obtain ⟨hloaded, hkept, hstart⟩ := hreads.loadTable hcache hsrcs hfile
    simp only [foldl_cons, collectFile_eq ws, collectFile_eq ws.uncached, hstart]
    apply ih hrest hkept
    generalize (ws.loadTable disk file).1 = table? at hloaded
    generalize (ws.uncached.loadTable start file).1 = other? at hloaded
    cases hloaded with
    | none => exact ⟨hsame.tables, congrArg (· + 1) hsame.failed⟩
    | some htable => exact ⟨hsame.tables.insert file htable, hsame.failed⟩

lemma Collected.SameAs.foldl_collectBuffer {other : Collected} (hsame : collected.SameAs other)
    (root : Path) (buffers : PathMap String) :
    (buffers.foldl (workspace.collectBuffer root) collected).SameAs
      (buffers.foldl (workspace.uncached.collectBuffer root) other) := by
  induction buffers generalizing collected other with
  | nil => exact hsame
  | cons buffer rest ih =>
    apply ih
    have hstgs : workspace.uncached.settings = workspace.settings := rfl
    simp only [collectBuffer, hsame.tables.isNone_get? buffer.1, hstgs]
    split
    · exact ⟨hsame.tables.insert buffer.1 (.refl _), hsame.failed⟩
    · exact hsame

variable (hcache : workspace.cache? = some cache)
include hcache

lemma collect_uncached (hholds : cache.Holds disk ModuleTable.IsParsed)
    (hsrcs : SourcesApart cache disk (sourceFiles workspace.settings disk root)) :
    (workspace.collect disk root).1.SameAs (workspace.uncached.collect disk root).1 := by
  apply Collected.SameAs.foldl_collectBuffer
  exact (ReadsAs.foldl_collectFile hcache hsrcs (List.Subset.refl _) (.refl hholds)
    (Collected.SameAs.refl {})).1

lemma readsAs_fullRebuild (hholds : cache.Holds disk ModuleTable.IsParsed)
    (hsrcs : SourcesApart cache disk (sourceFiles workspace.settings disk root.normalize)) :
    ReadsAs cache (sourceFiles workspace.settings disk root.normalize) disk
      (workspace.fullRebuild disk root).2.2 := by
  unfold fullRebuild rebuildRoot
  by_cases hroot : disk.isDirectory root.normalize
  · simp only [hroot, if_true]
    let begun := (workspace.beginRebuild root.normalize).2
    have hbegun : begun.cache? = some cache := hcache
    exact (ReadsAs.foldl_collectFile hbegun hsrcs (List.Subset.refl _) (.refl hholds)
      (Collected.SameAs.refl {})).2
  · simp only [hroot, Bool.false_eq_true, if_false]
    exact .refl hholds

/-- A rebuild with a cache publishes the tables that it publishes without one,
and reports the same. -/
lemma fullRebuild_uncached (hholds : cache.Holds disk ModuleTable.IsParsed)
    (hsrcs : SourcesApart cache disk (sourceFiles workspace.settings disk root.normalize)) :
    let cached := workspace.fullRebuild disk root
    let plain := workspace.uncached.fullRebuild disk root
    cached.1 = plain.1 ∧ cached.2.1.snapshot.tables.SameTables plain.2.1.snapshot.tables := by
  unfold fullRebuild rebuildRoot
  by_cases hroot : disk.isDirectory root.normalize
  · let begun := (workspace.beginRebuild root.normalize).2
    have hcoll := collect_uncached hcache hholds hsrcs
    have hcmtd := hcoll.tables.foldl_keepCurrent workspace.snapshot
      (workspace.lastEdits.filter fun record => workspace.edits < record.2)
    simp only [hroot, if_true, commit, beginRebuild, outcome]
    refine ⟨?_, hcmtd⟩
    congr 2
    · exact hcmtd.length_eq
    · exact hcoll.failed
  · simp only [hroot, Bool.false_eq_true, if_false, true_and]
    exact TableMap.SameTables.refl _

end Lockstep

end Workspace

/-! ## Histories of a cache -/

inductive CacheStep where
  | store (own : TableCache) (table : ModuleTable)
  | load (own : TableCache) (source : Path) (text : String)
  | remove (own : TableCache) (source : Path)
  | clear (own : TableCache)
  | loadFile (workspace : Workspace) (path : Path)
  | rebuild (workspace : Workspace) (root : Path)
  | evict (workspace : Workspace) (path : Path)
  | changeDisk (disk : Disk)

namespace CacheStep

def perform (disk : Disk) : CacheStep → Disk
  | .store own table => (own.store disk table).toOption.getD disk
  | .load .. => disk
  | .remove own source => (own.remove disk source).toOption.getD disk
  | .clear own => ((own.clear disk).toOption.map Prod.snd).getD disk
  | .loadFile workspace path => (workspace.loadFile disk path).2
  | .rebuild workspace root => (workspace.fullRebuild disk root).2.2
  | .evict workspace path => (workspace.evictFile disk path).2
  | .changeDisk disk => disk

/-- What is stored was parsed with the dialect of its path, and others leave no
entries that a cache could take for its own. -/
def IsSound (cache : TableCache) : CacheStep → Prop
  | .store _ table => table.IsParsed
  | .changeDisk disk => cache.Holds disk ModuleTable.IsParsed
  | _ => True

end CacheStep

namespace TableCache

variable {cache : TableCache} {disk : Disk}

lemma Holds.perform (hholds : cache.Holds disk ModuleTable.IsParsed) {step : CacheStep}
    (hstep : step.IsSound cache) : cache.Holds (step.perform disk) ModuleTable.IsParsed := by
  cases step with
  | store own table => exact hholds.store own hstep
  | load own source text => exact hholds
  | remove own source => exact hholds.remove own source
  | clear own => exact hholds.clear own
  | loadFile ws path => exact hholds.loadFile fun text => ⟨ws, path, text, rfl⟩
  | rebuild ws root => exact hholds.fullRebuild fun path _ text => ⟨ws, path, text, rfl⟩
  | evict ws path => exact hholds.evictFile ws path
  | changeDisk other => exact hstep

lemma Holds.foldl_perform (hholds : cache.Holds disk ModuleTable.IsParsed) {steps : List CacheStep}
    (hsteps : ∀ step ∈ steps, step.IsSound cache) :
    cache.Holds (steps.foldl CacheStep.perform disk) ModuleTable.IsParsed := by
  induction steps generalizing disk with
  | nil => exact hholds
  | cons step rest ih =>
    apply ih (hholds.perform (hsteps step mem_cons_self))
    intro other hoth
    exact hsteps other (mem_cons_of_mem step hoth)

/-! ## A small example -/

def sampleDisk : Disk where
  root := .directory [(Utf8.encode "c", .directory []),
      (Utf8.encode "w", .directory [(Utf8.encode "a.bsl", .file (.bytes []))])]

def sampleCache : TableCache := ⟨.ofText "c", true, fun _ => "e.bin"⟩

def sampleWorkspace : Workspace := { cache? := some sampleCache }

def sampleModule : Path := .ofText "w/a.bsl"

lemma holds_sampleDisk (condition : ModuleTable → Prop) :
    sampleCache.Holds sampleDisk condition := by
  intro source compressed entry hlk
  have hmissing : sampleDisk.has (sampleCache.entryPath source) = false := by
    change sampleDisk.has (sampleCache.entryPath sampleModule) = false
    decide +kernel
  simp [Disk.has, hlk] at hmissing

lemma sourcesApart_sampleModule {disk : Disk} (hread : readSource disk sampleModule = .ok "")
    (happart : disk.locate sampleModule ≠ disk.locate (sampleCache.entryPath sampleModule)) :
    Workspace.SourcesApart sampleCache disk [sampleModule] where
  unmarked source hsrc text htext := by
    rw [mem_singleton.mp hsrc, hread] at htext
    cases htext
    simp [IsMarked]
  apart source hsrc other hoth location hloc hentry := by
    rw [mem_singleton.mp hsrc] at hloc
    rw [mem_singleton.mp hoth] at hentry
    exact happart (hloc.trans hentry.symm)

/-! ## Transparency -/

/-- After any history, what a cache finds for a path and a text is what the text
parses to, and a rebuild publishes and reports the same with the cache as
without it. -/
theorem transparent (hstart : cache.Holds disk ModuleTable.IsParsed) {steps : List CacheStep}
    (hsteps : ∀ step ∈ steps, step.IsSound cache) :
    let reached := steps.foldl CacheStep.perform disk
    (∀ compression source text table, ¬ IsMarked text →
      TableCache.load { cache with compression } reached source text = .ok (some table) →
        ∀ workspace : Workspace, table.SameUpToSpelling (workspace.parse source text)) ∧
    ∀ (workspace : Workspace) compression root, workspace.cache? = some { cache with compression } →
      Workspace.SourcesApart cache reached (sourceFiles workspace.settings reached root.normalize) →
        let cached := workspace.fullRebuild reached root
        let plain := workspace.uncached.fullRebuild reached root
        cached.1 = plain.1 ∧ cached.2.1.snapshot.tables.SameTables plain.2.1.snapshot.tables := by
  intro reached
  have hreached := hstart.foldl_perform hsteps
  constructor
  · intro compression source text table hmark hload workspace
    have hholds : Holds { cache with compression } reached ModuleTable.IsParsed := hreached
    exact hholds.load_parse hmark hload workspace
  · intro workspace compression root hcache hsources
    exact Workspace.fullRebuild_uncached hcache hreached ⟨hsources.unmarked, hsources.apart⟩

theorem transparent_stored_module :
    let table := sampleWorkspace.parse sampleModule ""
    let reached := CacheStep.perform sampleDisk (.store sampleCache table)
    sampleCache.load reached sampleModule "" = .ok (some table) ∧
      table.SameUpToSpelling (sampleWorkspace.parse sampleModule "") ∧
      sourceFiles sampleWorkspace.settings reached (.ofText "w") = [sampleModule] ∧
      (sampleWorkspace.fullRebuild reached (.ofText "w")).1 =
        (sampleWorkspace.uncached.fullRebuild reached (.ofText "w")).1 := by
  let table := sampleWorkspace.parse sampleModule ""
  let reached := CacheStep.perform sampleDisk (.store sampleCache table)
  have hsound : ∀ step ∈ [CacheStep.store sampleCache table], step.IsSound sampleCache := by
    intro step hstep
    rw [mem_singleton.mp hstep]
    exact ⟨sampleWorkspace, sampleModule, "", rfl⟩
  have hload : sampleCache.load reached sampleModule "" = .ok (some table) := by
    decide +kernel
  have hfiles : sourceFiles sampleWorkspace.settings reached (.ofText "w") = [sampleModule] := by
    decide +kernel
  have hsources : Workspace.SourcesApart sampleCache reached
      (sourceFiles sampleWorkspace.settings reached (Path.ofText "w").normalize) := by
    have hroot : (Path.ofText "w").normalize = .ofText "w" := by decide +kernel
    rw [hroot, hfiles]
    apply sourcesApart_sampleModule
    · decide +kernel
    · decide +kernel
  have hunmarked : ¬ IsMarked "" := by simp [IsMarked]
  have htransparent := transparent (holds_sampleDisk _) hsound
  refine ⟨hload, ?_, hfiles, ?_⟩
  · exact htransparent.1 true sampleModule "" table hunmarked hload sampleWorkspace
  · exact (htransparent.2 sampleWorkspace true (.ofText "w") rfl hsources).1

/-- Two conditions are needed.  A table that was parsed with another dialect is
given back as it was stored.  And where entries have the extension of a module,
a rebuild of the directory of the cache takes them for modules. -/
theorem not_transparent_unconditionally : (let foreign := parseModule sampleModule .oneScript ""
    let reached := CacheStep.perform sampleDisk (.store sampleCache foreign)
    sampleCache.load reached sampleModule "" = .ok (some foreign) ∧
      ¬ foreign.SameUpToSpelling (sampleWorkspace.parse sampleModule "")) ∧
    (let workspace : Workspace :=
      { sampleWorkspace with settings := { extensions := ["bsl", "bin"] } }
    let cached := workspace.fullRebuild sampleDisk (.ofText "w")
    let plain := workspace.uncached.fullRebuild sampleDisk (.ofText "w")
    (cached.2.1.fullRebuild cached.2.2 (.ofText "c")).1 = .ok (.completed 2 1 0) ∧
      (plain.2.1.fullRebuild plain.2.2 (.ofText "c")).1 = .ok (.completed 2 0 0)) := by
  constructor
  · constructor
    · decide +kernel
    · intro hsame
      have hdialects : Dialect.oneScript = sampleWorkspace.dialectOf sampleModule := by
        rw [← parseModule_dialect sampleModule .oneScript "", hsame.dialect_eq]
        exact parseModule_dialect sampleModule _ ""
      revert hdialects
      decide +kernel
  · decide +kernel

end TableCache

end BslInsight
