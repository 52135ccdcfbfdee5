import BslInsight.Proofs.CachedTables
import BslInsight.Proofs.RebuildCollection
import BslInsight.Proofs.SourceWalk

/-!
# Reading one file again after a rebuild

A rebuild leaves out directories and files that are too large.  Reading a single file again asks
for neither, and reads the path as it is spelled, while tables stand under normalised paths.  Here
the two are compared.
-/

namespace BslInsight

open List

variable {table : ModuleTable} {names : List FileName} {disk : Disk} {path : Path}
  {workspace ws : Workspace}

/-- A file below the root, reached by names, is not too large, and none of the
directories on the way to it is left out. -/
def Settings.Admits (settings : Settings) (names : List FileName) (content : FileContent) : Prop :=
  content.size ≤ settings.maxFileSize ∧ ∀ name ∈ names.dropLast, settings.excludes name = false

instance (settings : Settings) (names : List FileName) (content : FileContent) :
    Decidable (settings.Admits names content) :=
  inferInstanceAs (Decidable (_ ∧ _))

namespace Workspace

def KeepsTables (before after : Workspace) : Prop :=
  ∀ path, Option.Rel ModuleTable.SameUpToSpelling (after.snapshot.get? path)
    (before.snapshot.get? path)

def reloaded? (workspace : Workspace) (disk : Disk) (path : Path) : Option ModuleTable :=
  (readSource disk path).toOption.map (workspace.parse path.normalize)

def indexed? (workspace : Workspace) (disk : Disk) (names : List FileName) (path : Path) :
    Option ModuleTable :=
  match disk.lookup path.normalize with
  | .ok (.file content) =>
    if workspace.settings.Admits names content then
      content.source?.map (workspace.parse path.normalize)
    else none
  | _ => none

/-! ## The table of a path after a rebuild -/

lemma reloaded?_eq_some_iff : ws.reloaded? disk path = some table ↔
      ∃ text, readSource disk path = .ok text ∧ ws.parse path.normalize text = table := by
  unfold reloaded?
  cases readSource disk path <;> simp [Except.toOption]

lemma indexed?_eq_some_iff : ws.indexed? disk names path = some table ↔
      (∃ content, disk.lookup path.normalize = .ok (.file content) ∧
        ws.settings.Admits names content) ∧
      ws.reloaded? disk path.normalize = some table := by
  rw [reloaded?_eq_some_iff, Path.normalize_normalize]
  simp only [Disk.readSource_eq_ok_iff]
  unfold indexed?
  split
  next content hlk =>
    rw [Option.ite_none_right_eq_some, Option.map_eq_some_iff, hlk]
    simp only [Except.ok.injEq, FileTree.file.injEq, exists_eq_left']
  next hoth =>
    have hmissing (content : FileContent) : disk.lookup path.normalize ≠ .ok (.file content) :=
      hoth content
    simp [hmissing]

lemma reloaded?_congr {other : Workspace} {after : Disk}
    (hread : ∀ text, readSource after path = .ok text ↔ readSource disk path = .ok text) :
    other.reloaded? after path = ws.reloaded? disk path := by
  apply Option.ext
  intro table
  rw [reloaded?_eq_some_iff, reloaded?_eq_some_iff, parse_eq other ws]
  apply exists_congr
  intro text
  rw [hread]

section Rebuild

variable {workspace ws : Workspace} {disk : Disk} {root path : Path}

section

variable (hcache : workspace.cache? = none)
include hcache

lemma get?_foldl_collectFile (hbufs : workspace.buffers = [])
    (hpath : path.normalize = path) {files : List Path}
    (hfiles : ∀ file ∈ files, file.normalize = file) (collected : Collected) :
    (files.foldl workspace.collectFile (collected, disk)).1.tables.get? path =
      if path ∈ files then (workspace.reloaded? disk path).or (collected.tables.get? path)
      else collected.tables.get? path := by
  induction files generalizing collected with
  | nil => rfl
  | cons file rest ih =>
    have hrest : ∀ other ∈ rest, other.normalize = other :=
      fun other hoth => hfiles other (mem_cons_of_mem file hoth)
    have hload : workspace.loadTable disk file = (workspace.reloaded? disk file, disk) := by
      unfold loadTable loadFile reloaded?
      rw [hbufs, hfiles file mem_cons_self]
      cases readSource disk file <;> simp [PathMap.get?, hcache, Except.toOption]
    have hsame : file.same path ↔ path = file := by
      constructor
      · intro hsame
        exact (Path.eq_of_same_of_normalize hsame (hfiles file mem_cons_self) hpath).symm
      · rintro rfl
        exact Path.same_self path
    rw [foldl_cons, collectFile_eq, hload]
    cases hread : workspace.reloaded? disk file with
    | none =>
      rw [ih hrest]
      by_cases hfile : path = file
      · subst file
        simp [hread]
      · simp [hfile]
    | some table =>
      rw [ih hrest, TableMap.get?_insert]
      by_cases hfile : path = file
      · subst file
        simp [hread, Path.same_self]
      · have hoth : file.same path = false := by
          rw [Bool.eq_false_iff]
          exact fun hkey => hfile (hsame.mp hkey)
        simp [hfile, hoth]

/-- Without buffers and without a cache a rebuild publishes what the source files
are read as. -/
lemma get?_fullRebuild (hbufs : workspace.buffers = [])
    (hrecs : workspace.RecordsBounded) (hroot : disk.isDirectory root.normalize)
    (hpath : path.normalize = path) :
    (workspace.fullRebuild disk root).2.1.snapshot.get? path =
      if path ∈ sourceFiles workspace.settings disk root.normalize then
        workspace.reloaded? disk path
      else none := by
  let ticket := (workspace.beginRebuild root.normalize).1
  let begun := (workspace.beginRebuild root.normalize).2
  let files := sourceFiles workspace.settings disk root.normalize
  have hbegun : begun.RecordsBounded := hrecs
  have huncached : begun.cache? = none := hcache
  have hshut : begun.buffers = [] := hbufs
  have hcollect : begun.collect disk root.normalize = files.foldl begun.collectFile ({}, disk) := by
    simp only [collect, hshut, foldl_nil]
    rfl
  have hreb : (workspace.fullRebuild disk root).2.1 =
      (begun.commit ticket (files.foldl begun.collectFile ({}, disk)).1.tables).2 := by
    simp only [fullRebuild, rebuildRoot, hroot, if_true]
    rw [← hcollect]
  have hnorm : ∀ file ∈ files, file.normalize = file :=
    fun file hfile => normalize_of_mem_sourceFiles hfile
  have hparse : begun.reloaded? disk path = workspace.reloaded? disk path :=
    reloaded?_congr fun _ => Iff.rfl
  rw [hreb, get?_commit_of_not_editedSince rfl _ (hbegun.not_editedSince path),
    get?_foldl_collectFile huncached hshut hpath hnorm, hparse]
  have hempty : TableMap.get? ({} : Collected).tables path = none := rfl
  simp [hempty, files]

lemma disk_fullRebuild : (workspace.fullRebuild disk root).2.2 = disk := by
  have hload {begun : Workspace} (hnone : begun.cache? = none) (file : Path) :
      (begun.loadTable disk file).2 = disk := by
    unfold loadTable loadFile
    simp only [hnone]
    split
    · rfl
    · split <;> rfl
  have hfold {begun : Workspace} (hnone : begun.cache? = none) (files : List Path)
      (collected : Collected) :
      (files.foldl begun.collectFile (collected, disk)).2 = disk := by
    induction files generalizing collected with
    | nil => rfl
    | cons file rest ih =>
      rw [foldl_cons, collectFile_eq, hload hnone]
      exact ih _
  unfold fullRebuild
  split
  · rfl
  · exact hfold hcache _ _

end

lemma isDirectory_of_fullRebuild
    {outcome : RebuildOutcome} (hreb : (ws.fullRebuild disk root).1 = .ok outcome) :
    disk.isDirectory root.normalize := by
  by_contra hroot
  simp [fullRebuild, rebuildRoot, hroot] at hreb

lemma exists_lookup_of_isDirectory (hroot : disk.isDirectory root) :
    ∃ entries, disk.lookup root = .ok (.directory entries) := by
  unfold Disk.isDirectory at hroot
  cases hlk : disk.lookup root with
  | error failure => simp [hlk] at hroot
  | ok tree =>
    cases tree with
    | file content => simp [hlk, FileTree.isDirectory] at hroot
    | directory entries => exact ⟨entries, rfl⟩

lemma normalize_mem_sourceFiles_iff {settings : Settings} (hprop : disk.root.IsProper)
    (hroot : disk.isDirectory root.normalize)
    (hbelow : path.normalize.components = root.normalize.components ++ names.map .name)
    (hdial : (settings.dialectFor? path.normalize).isSome) :
    path.normalize ∈ sourceFiles settings disk root.normalize ↔
      ∃ content, disk.lookup path.normalize = .ok (.file content) ∧
        settings.Admits names content := by
  obtain ⟨entries, hlk⟩ := exists_lookup_of_isDirectory hroot
  have hbytes := Disk.bytes_ne_nil_of_lookup hlk
  have hnames : ∀ name ∈ names, (Component.name name).IsPlain := by
    intro name hname
    have hmem : .name name ∈ path.normalize.components := by
      rw [hbelow]
      exact mem_append_right _ (mem_map_of_mem hname)
    exact Path.isPlain_of_mem_normalize hmem
  have hpath := Path.normalize_eq_joinNames hbytes hnames hbelow
  have htree : (FileTree.directory entries).IsProper := by
    obtain ⟨location, -, hget⟩ := Disk.lookup_eq_ok_iff.mp hlk
    exact hprop.get? hget
  rw [hpath] at hdial ⊢
  rw [joinNames_mem_sourceFiles_iff (Path.normalize_normalize root) hlk htree hnames]
  apply exists_congr
  intro content
  rw [Disk.lookup_joinNames_iff hlk hnames]
  apply and_congr_right
  intro _
  simp [Settings.indexes, Settings.Admits, hdial]

lemma indexed?_eq (hprop : disk.root.IsProper) (hroot : disk.isDirectory root.normalize)
    (hbelow : path.normalize.components = root.normalize.components ++ names.map .name)
    (hdial : (ws.settings.dialectFor? path.normalize).isSome) :
    ws.indexed? disk names path =
      if path.normalize ∈ sourceFiles ws.settings disk root.normalize then
        ws.reloaded? disk path.normalize
      else none := by
  apply Option.ext
  intro table
  rw [indexed?_eq_some_iff, Option.ite_none_right_eq_some,
    normalize_mem_sourceFiles_iff hprop hroot hbelow hdial]

lemma rel_indexed? (hprop : disk.root.IsProper) (hbufs : workspace.buffers = [])
    (hrecs : workspace.RecordsBounded) (hcache : ∀ cache, workspace.cache? = some cache →
      cache.Holds disk ModuleTable.IsParsed ∧
        SourcesApart cache disk (sourceFiles workspace.settings disk root.normalize))
    (hroot : disk.isDirectory root.normalize)
    (hbelow : path.normalize.components = root.normalize.components ++ names.map .name)
    (hdial : (workspace.settings.dialectFor? path.normalize).isSome) :
    Option.Rel ModuleTable.SameUpToSpelling
      ((workspace.fullRebuild disk root).2.1.snapshot.get? path.normalize)
      (workspace.indexed? disk names path) := by
  have hplain : (workspace.uncached.fullRebuild disk root).2.1.snapshot.get? path.normalize =
      workspace.indexed? disk names path := by
    have hshut : workspace.uncached.buffers = [] := hbufs
    have hbnd : workspace.uncached.RecordsBounded := hrecs
    rw [get?_fullRebuild rfl hshut hbnd hroot (Path.normalize_normalize path),
      indexed?_eq hprop hroot hbelow hdial]
    rfl
  rw [← hplain]
  cases hsome : workspace.cache? with
  | none =>
    have hsame : workspace.uncached = workspace := by
      unfold uncached
      rw [← hsome]
    rw [hsame]
    exact ModuleTable.SameUpToSpelling.rel_refl _
  | some cache =>
    obtain ⟨hholds, hsrcs⟩ := hcache cache hsome
    exact (fullRebuild_uncached hsome hholds hsrcs).2.get? path.normalize

end Rebuild

lemma isEdit_reload (ws : Workspace) (disk : Disk) (path : Path) :
    IsEdit ws (ws.reload disk path).2.1 path.normalize (ws.reloaded? disk path) := by
  unfold reload reloaded?
  cases readSource disk path with
  | ok text => exact isEdit_updateFile ws path text
  | error failure => exact isEdit_evictTable ws path

lemma keepsTables_reload (ws : Workspace) (disk : Disk) (path : Path) :
    KeepsTables ws (ws.reload disk path).2.1 ↔
      Option.Rel ModuleTable.SameUpToSpelling (ws.reloaded? disk path)
        (ws.snapshot.get? path.normalize) := by
  have hget := (ws.isEdit_reload disk path).get?
  constructor
  · intro hkeeps
    have hpath := hkeeps path.normalize
    rwa [hget, if_pos (Path.same_self _)] at hpath
  · intro hpath other
    rw [hget]
    split
    next hsame => rwa [← ws.snapshot.get?_congr hsame]
    next => exact ModuleTable.SameUpToSpelling.rel_refl _

lemma reloaded?_file (htable : ws.reloaded? disk path = some table) :
    table.file = path.normalize := by
  obtain ⟨text, -, rfl⟩ := reloaded?_eq_some_iff.mp htable
  exact (parseModule_origin path.normalize _ text).1

lemma rel_indexed?_iff : Option.Rel ModuleTable.SameUpToSpelling (ws.reloaded? disk path)
        (ws.indexed? disk names path) ↔
      ws.reloaded? disk path = ws.indexed? disk names path := by
  constructor
  · intro hrel
    cases hreloaded : ws.reloaded? disk path with
    | none =>
      rw [hreloaded] at hrel
      cases hindexed : ws.indexed? disk names path with
      | none => rfl
      | some other =>
        rw [hindexed] at hrel
        cases hrel
    | some table =>
      rw [hreloaded] at hrel
      cases hindexed : ws.indexed? disk names path with
      | none =>
        rw [hindexed] at hrel
        cases hrel
      | some other =>
        rw [hindexed] at hrel
        cases hrel with
        | some hsame =>
          have hoth := reloaded?_file (indexed?_eq_some_iff.mp hindexed).2
          rw [Path.normalize_normalize] at hoth
          rw [hsame.eq_of_file_eq ((reloaded?_file hreloaded).trans hoth.symm)]
  · intro heq
    rw [heq]
    exact ModuleTable.SameUpToSpelling.rel_refl _

lemma reloaded?_normalize_eq_indexed?_iff :
    ws.reloaded? disk path.normalize = ws.indexed? disk names path ↔
      ∀ content text, disk.lookup path.normalize = .ok (.file content) →
        content.source? = some text → ws.settings.Admits names content := by
  constructor
  · intro heq content text hlk htext
    have hread := Disk.readSource_eq_ok_iff.mpr ⟨content, hlk, htext⟩
    have hindexed : ws.indexed? disk names path =
        some (ws.parse path.normalize.normalize text) := by
      rw [← heq]
      exact reloaded?_eq_some_iff.mpr ⟨text, hread, rfl⟩
    obtain ⟨⟨found, hfound, hadm⟩, -⟩ := indexed?_eq_some_iff.mp hindexed
    rw [hlk] at hfound
    cases hfound
    exact hadm
  · intro hadm
    apply Option.ext
    intro table
    rw [indexed?_eq_some_iff]
    constructor
    · intro hsome
      refine ⟨?_, hsome⟩
      obtain ⟨text, hread, -⟩ := reloaded?_eq_some_iff.mp hsome
      obtain ⟨content, hlk, htext⟩ := Disk.readSource_eq_ok_iff.mp hread
      exact ⟨content, hlk, hadm content text hlk htext⟩
    · exact And.right

/-- After a rebuild, reading a file below its root again leaves the published
tables as they are if and only if the path, read as it is spelled, gives what
the walk has indexed.  Where the spelling makes no difference, this is the case
if and only if the settings admit every file that can be read there. -/
theorem keepsTables_reload_iff
    {workspace built : Workspace} {disk after : Disk} {root path : Path} {names : List FileName}
    {generation files failed : Nat}
    (hproper : disk.root.IsProper) (hbuffers : workspace.buffers = [])
    (hrecords : workspace.RecordsBounded)
    (hcache : ∀ cache, workspace.cache? = some cache →
      let sources := sourceFiles workspace.settings disk root.normalize
      cache.Holds disk ModuleTable.IsParsed ∧ SourcesApart cache disk sources ∧
        IsApart cache disk sources path)
    (hrebuild : workspace.fullRebuild disk root =
      (.ok (.completed generation files failed), built, after))
    (hbelow : path.normalize.components = root.normalize.components ++ names.map .name)
    (hdialect : (workspace.settings.dialectFor? path.normalize).isSome = true) :
    (KeepsTables built (built.reload after path).2.1 ↔
      workspace.reloaded? disk path = workspace.indexed? disk names path) ∧
    ((∀ text, readSource disk path = .ok text ↔ readSource disk path.normalize = .ok text) →
      (KeepsTables built (built.reload after path).2.1 ↔
        ∀ content text, disk.lookup path.normalize = .ok (.file content) →
          content.source? = some text → workspace.settings.Admits names content)) := by
  have hroot : disk.isDirectory root.normalize = true :=
    isDirectory_of_fullRebuild (congrArg Prod.fst hrebuild)
  have hread : ∀ text, readSource after path = .ok text ↔ readSource disk path = .ok text := by
    have hafter : (workspace.fullRebuild disk root).2.2 = after := by rw [hrebuild]
    rw [← hafter]
    cases hsome : workspace.cache? with
    | none => simp [disk_fullRebuild hsome]
    | some cache =>
      obtain ⟨hholds, hsources, hpath⟩ := hcache cache hsome
      exact (readsAs_fullRebuild hsome hholds hsources).read path hpath
  have hbuilt : Option.Rel ModuleTable.SameUpToSpelling (built.snapshot.get? path.normalize)
      (workspace.indexed? disk names path) := by
    have htables := rel_indexed? hproper hbuffers hrecords
      (fun cache hsome => ⟨(hcache cache hsome).1, (hcache cache hsome).2.1⟩) hroot hbelow hdialect
    rwa [hrebuild] at htables
  have hkeeps : KeepsTables built (built.reload after path).2.1 ↔
      workspace.reloaded? disk path = workspace.indexed? disk names path := by
    rw [keepsTables_reload, reloaded?_congr hread,
      ModuleTable.SameUpToSpelling.rel_congr_right hbuilt, rel_indexed?_iff]
  refine ⟨hkeeps, ?_⟩
  intro hspelling
  rw [hkeeps]
  have hreloaded : workspace.reloaded? disk path = workspace.reloaded? disk path.normalize := by
    apply Option.ext
    intro table
    rw [reloaded?_eq_some_iff, reloaded?_eq_some_iff, Path.normalize_normalize]
    apply exists_congr
    intro text
    rw [hspelling]
  rw [hreloaded, reloaded?_normalize_eq_indexed?_iff]

theorem keepsTables_reload_small_module :
    let rebuild := TableCache.sampleWorkspace.fullRebuild TableCache.sampleDisk (.ofText "w")
    rebuild.1 = .ok (.completed 1 1 0) ∧
      KeepsTables rebuild.2.1 (rebuild.2.1.reload rebuild.2.2 (.ofText "w/./a.bsl")).2.1 := by
  let workspace := TableCache.sampleWorkspace
  let disk := TableCache.sampleDisk
  let root := Path.ofText "w"
  let path := Path.ofText "w/./a.bsl"
  let rebuild := workspace.fullRebuild disk root
  have houtcome : rebuild.1 = .ok (.completed 1 1 0) := by decide +kernel
  have hrebuild : workspace.fullRebuild disk root =
      (.ok (.completed 1 1 0), rebuild.2.1, rebuild.2.2) := by rw [← houtcome]
  have hproper : disk.root.IsProper := by
    apply FileTree.IsProper.directory
    · decide +kernel
    · decide +kernel
    · intro entry hentry
      rcases mem_cons.mp hentry with rfl | hentry
      · exact .directory (by decide) (by decide) (by simp)
      · rw [mem_singleton.mp hentry]
        apply FileTree.IsProper.directory
        · decide +kernel
        · decide +kernel
        · intro below hbelow
          rw [mem_singleton.mp hbelow]
          exact .file _
  have hrecords : workspace.RecordsBounded := by
    intro entry hentry
    cases hentry
  have hfiles : sourceFiles workspace.settings disk root.normalize = [TableCache.sampleModule] := by
    decide +kernel
  have hsources : SourcesApart TableCache.sampleCache disk
      (sourceFiles workspace.settings disk root.normalize) := by
    rw [hfiles]
    apply TableCache.sourcesApart_sampleModule
    · decide +kernel
    · decide +kernel
  have hapart : IsApart TableCache.sampleCache disk
      (sourceFiles workspace.settings disk root.normalize) path := by
    have hsame : disk.locate path = disk.locate TableCache.sampleModule := by decide +kernel
    intro source hsource location hlocate
    rw [hsame] at hlocate
    exact hsources.apart TableCache.sampleModule (by simp [hfiles]) source hsource location hlocate
  have hbelow : path.normalize.components =
      root.normalize.components ++ [Utf8.encode "a.bsl"].map .name := by
    decide +kernel
  have hdialect : (workspace.settings.dialectFor? path.normalize).isSome = true := by
    decide +kernel
  have hspelling (text : String) :
      readSource disk path = .ok text ↔ readSource disk path.normalize = .ok text := by
    have hread : readSource disk path = .ok "" := by decide +kernel
    have hnormal : readSource disk path.normalize = .ok "" := by decide +kernel
    rw [hread, hnormal]
  have hsmall (content : FileContent) (text : String)
      (hlookup : disk.lookup path.normalize = .ok (.file content))
      (_ : content.source? = some text) :
      workspace.settings.Admits [Utf8.encode "a.bsl"] content := by
    have hempty : (disk.lookup path.normalize).toOption.map
        (fun tree => tree.content?.map FileContent.size) = some (some 0) := by
      decide +kernel
    have hsize : content.size = 0 := by
      simpa [hlookup, Except.toOption, FileTree.content?] using hempty
    simp [Settings.Admits, hsize]
  have hcache (cache : TableCache) (hsome : workspace.cache? = some cache) :
      cache.Holds disk ModuleTable.IsParsed ∧
        SourcesApart cache disk (sourceFiles workspace.settings disk root.normalize) ∧
        IsApart cache disk (sourceFiles workspace.settings disk root.normalize) path := by
    cases hsome
    exact ⟨TableCache.holds_sampleDisk _, hsources, hapart⟩
  refine ⟨houtcome, ?_⟩
  exact ((keepsTables_reload_iff hproper rfl hrecords hcache hrebuild hbelow hdialect).2
    hspelling).mpr hsmall

def crowdedDisk : Disk where
  root := .directory [(Utf8.encode "w", .directory [(Utf8.encode "a.bsl", .file (.bytes [10])),
      (Utf8.encode "target", .directory [(Utf8.encode "b.bsl", .file (.bytes []))])])]

lemma not_keepsTables_of_isSome {before after : Workspace} (path : Path)
    (hdiff : (after.snapshot.get? path).isSome ≠ (before.snapshot.get? path).isSome) :
    ¬ KeepsTables before after := by
  intro hkeeps
  have hrel := hkeeps path
  generalize after.snapshot.get? path = found at hrel hdiff
  generalize before.snapshot.get? path = old at hrel hdiff
  cases hrel <;> exact hdiff rfl

/-- Reading again brings a file that is too large and a file in a directory that
is left out; and it loses a file that is spelled through a directory which is not
there. -/
theorem not_keepsTables_reload : (let workspace : Workspace := { settings := { maxFileSize := 0 } }
    let built := (workspace.fullRebuild crowdedDisk (.ofText "w")).2.1
    ¬ KeepsTables built (built.reload crowdedDisk (.ofText "w/a.bsl")).2.1) ∧
    (let built := (({} : Workspace).fullRebuild crowdedDisk (.ofText "w")).2.1
    ¬ KeepsTables built (built.reload crowdedDisk (.ofText "w/target/b.bsl")).2.1 ∧
      ¬ KeepsTables built (built.reload crowdedDisk (.ofText "w/x/../a.bsl")).2.1) := by
  refine ⟨?_, ?_, ?_⟩
  · apply not_keepsTables_of_isSome (.ofText "w/a.bsl")
    decide +kernel
  · apply not_keepsTables_of_isSome (.ofText "w/target/b.bsl")
    decide +kernel
  · apply not_keepsTables_of_isSome (.ofText "w/a.bsl")
    decide +kernel

end Workspace

end BslInsight
