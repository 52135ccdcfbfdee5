import BslInsight.Proofs.RebuildReading
import BslInsight.Proofs.ReloadAgreement
import BslInsight.Proofs.ShownTexts

/-!
# What a rebuild publishes

What a rebuild is to publish is said without the walk and the cache: open buffers and readable
files below the root, each with the table of its text.  It publishes a table for exactly these
paths, but what the cache has for the text of a file is published as it is.
-/

namespace BslInsight

open List

variable {disk : Disk} {root : Path} {workspace ws : Workspace}

namespace Workspace

/-! ## The map that is published -/

/-- A file that names lead to from the root is a source file if it has an indexed
extension and the settings admit it. -/
lemma mem_sourceFiles_iff {settings : Settings} (hprop : disk.root.IsProper) {path : Path}
    (hroot : disk.isDirectory root.normalize) (hpath : path.normalize = path) :
    path ∈ sourceFiles settings disk root.normalize ↔
      ∃ names content, path.components = root.normalize.components ++ names.map .name ∧
        disk.lookup path = .ok (.file content) ∧ (settings.dialectFor? path).isSome ∧
        settings.Admits names content := by
  constructor
  · intro hmem
    obtain ⟨names, hbelow, hdial⟩ :=
      exists_names_of_mem_sourceFiles hprop (Path.normalize_normalize root) hmem
    have hfound : ∃ content, disk.lookup path = .ok (.file content) ∧
        settings.Admits names content := by
      rw [← hpath] at hmem hbelow hdial ⊢
      exact (normalize_mem_sourceFiles_iff hprop hroot hbelow hdial).mp hmem
    obtain ⟨content, hlk, hadm⟩ := hfound
    exact ⟨names, content, hbelow, hlk, hdial, hadm⟩
  · rintro ⟨names, content, hbelow, hlk, hdial, hadm⟩
    rw [← hpath] at hbelow hlk hdial ⊢
    exact (normalize_mem_sourceFiles_iff hprop hroot hbelow hdial).mpr ⟨content, hlk, hadm⟩

/-- The map that a rebuild below a root is to publish. -/
inductive Indexes (workspace : Workspace) (disk : Disk) (root : Path) : Path → ModuleTable → Prop
  /-- An open buffer of a source file, or of a path below the root with an indexed
  extension. -/
  | buffer {path : Path} {text : String} (hbuf : workspace.buffers.get? path = some text)
      (hplace : path ∈ sourceFiles workspace.settings disk root ∨ path.startsWith root = true ∧
          (workspace.settings.dialectFor? path).isSome = true) :
      Indexes workspace disk root path (workspace.parse path text)
  /-- A readable file below the root with an indexed extension, which the settings
  admit. -/
  | file {path : Path} {names : List FileName} {content : FileContent} {text : String}
      (hbuf : workspace.buffers.get? path = none)
      (hbelow : path.components = root.components ++ names.map .name)
      (hlk : disk.lookup path = .ok (.file content))
      (hdial : (workspace.settings.dialectFor? path).isSome = true)
      (hadm : workspace.settings.Admits names content)
      (htext : content.source? = some text) :
      Indexes workspace disk root path (workspace.parse path text)

section Map

variable {workspace ws : Workspace} {disk : Disk} {root path : Path} {table : ModuleTable}

lemma Indexes.sourceTable?_eq (hindexes : ws.Indexes disk root path table) :
    ws.sourceTable? disk path = some table := by
  cases hindexes with
  | buffer hbuf hplace => simp [sourceTable?, hbuf]
  | file hbuf hbelow hlk hdial hadm htext =>
    exact sourceTable?_eq_parse hbuf (Disk.readSource_eq_ok_iff.mpr ⟨_, hlk, htext⟩)

lemma indexes_of_mem_sourceFiles
    (hprop : disk.root.IsProper) (hroot : disk.isDirectory root.normalize)
    (hmem : path ∈ sourceFiles ws.settings disk root.normalize)
    (htable : ws.sourceTable? disk path = some table) :
    ws.Indexes disk root.normalize path table := by
  cases hbuf : ws.buffers.get? path with
  | some text =>
    obtain rfl : ws.parse path text = table := by
      simpa [sourceTable?, hbuf] using htable
    exact .buffer hbuf (.inl hmem)
  | none =>
    have hpath := normalize_of_mem_sourceFiles hmem
    obtain ⟨names, content, hbelow, hlk, hdial, hadm⟩ :=
      (mem_sourceFiles_iff hprop hroot hpath).mp hmem
    cases hread : readSource disk path with
    | error failure => simp [sourceTable?, hbuf, hread, Except.toOption] at htable
    | ok text =>
      rw [sourceTable?_eq_parse hbuf hread, Option.some.injEq] at htable
      obtain ⟨other, hoth, htext⟩ := Disk.readSource_eq_ok_iff.mp hread
      rw [hlk, Except.ok.injEq, FileTree.file.injEq] at hoth
      rw [← htable]
      exact .file hbuf hbelow hlk hdial hadm (hoth ▸ htext)

lemma indexes_iff (hprop : disk.root.IsProper) (hroot : disk.isDirectory root.normalize)
    (hpath : path.normalize = path) :
    ws.Indexes disk root.normalize path table ↔ path ∈ sourceFiles ws.settings disk root.normalize ∧
          ws.sourceTable? disk path = some table ∨
        (path.startsWith root.normalize ∧ (ws.settings.dialectFor? path).isSome) ∧
          (ws.buffers.get? path).map (ws.parse path) = some table := by
  constructor
  · intro hindexes
    have htable := hindexes.sourceTable?_eq
    cases hindexes with
    | buffer hbuf hplace =>
      rcases hplace with hmem | hbelow
      · exact .inl ⟨hmem, htable⟩
      · exact .inr ⟨hbelow, by simp [hbuf]⟩
    | file hbuf hbelow hlk hdial hadm htext =>
      exact .inl ⟨(mem_sourceFiles_iff hprop hroot hpath).mpr
        ⟨_, _, hbelow, hlk, hdial, hadm⟩, htable⟩
  · rintro (⟨hmem, htable⟩ | ⟨hbelow, htable⟩)
    · exact indexes_of_mem_sourceFiles hprop hroot hmem htable
    · obtain ⟨text, hbuf, rfl⟩ := Option.map_eq_some_iff.mp htable
      exact .buffer hbuf (.inr hbelow)

end Map

/-- The second workspace is the first one after a rebuild below a root: it holds the
map of that root, except that a table which the cache has for the text of a file is
published as it is. -/
structure PublishesIndex
    (workspace : Workspace) (disk : Disk) (root : Path) (built : Workspace) : Prop where
  index : built.snapshot.tables.IsIndex
  paths : ∀ path, path ∈ built.snapshot.tables.map Prod.fst ↔
    path.normalize = path ∧ ∃ table, workspace.Indexes disk root path table
  known : ∀ path table, (path, table) ∈ built.snapshot.tables →
    workspace.Indexes disk root path table ∨
      path ∈ sourceFiles workspace.settings disk root ∧ workspace.HasCached disk path table
  cached : workspace.EntriesDistinct disk (sourceFiles workspace.settings disk root) →
    ∀ path ∈ sourceFiles workspace.settings disk root, ∀ table,
      workspace.HasCached disk path table → (path, table) ∈ built.snapshot.tables
  /-- If the cache has the right tables, then the map is published exactly. -/
  exact : (∀ path ∈ sourceFiles workspace.settings disk root, ∀ table,
      workspace.HasCached disk path table → workspace.sourceTable? disk path = some table) →
    ∀ path table, (path, table) ∈ built.snapshot.tables ↔
      path.normalize = path ∧ workspace.Indexes disk root path table

section Publishing

variable {workspace ws : Workspace} {disk : Disk} {root path : Path} {table : ModuleTable}

/-- What a rebuild collects: for a path what is taken for its source file, or else for
its buffer; and the number of source files that give nothing. -/
lemma collect_sourceFiles (hprop : disk.root.IsProper) (hbufs : ws.BuffersNormal)
    (haside : ws.EntriesAside disk (sourceFiles ws.settings disk root)) :
    let sources := sourceFiles ws.settings disk root
    let collected := (ws.collect disk root).1
    (∀ path, path.normalize = path → ∃ taken?, (path ∉ sources ∧ taken? = none ∨ path ∈ sources ∧
          ws.Takes disk path (ws.EntriesDistinct disk sources) taken?) ∧
      collected.tables.get? path = taken?.or
        (if path.startsWith root ∧ (ws.settings.dialectFor? path).isSome = true then
          (ws.buffers.get? path).map (ws.parse path) else none)) ∧
      collected.failed = sources.countP fun source => (ws.sourceTable? disk source).isNone := by
  intro sources collected
  obtain ⟨htabs, hfailed⟩ := Leaves.foldl_collectFile haside (List.Subset.refl sources)
    (pairwise_sourceFiles hprop ws.settings root)
    (fun file hfile => normalize_of_mem_sourceFiles hfile) (.refl ws _ _ disk) {}
  constructor
  · intro path hpath
    simp only [collected, collect]
    rw [get?_foldl_collectBuffer_eq hpath hbufs]
    rcases htabs path hpath with ⟨hoth, hget⟩ | ⟨hmem, taken?, htakes, hget⟩
    · rw [hget]
      exact ⟨none, .inl ⟨hoth, rfl⟩, rfl⟩
    · rw [hget]
      refine ⟨taken?, .inr ⟨hmem, htakes⟩, ?_⟩
      have hempty : TableMap.get? ({} : Collected).tables path = none := rfl
      rw [hempty, Option.or_none]
  · simp only [collected, collect]
    rw [failed_foldl_collectBuffer, hfailed]
    exact Nat.zero_add _

lemma isIndex_collect (hbufs : ws.BuffersNormal) : (ws.collect disk root).1.tables.IsIndex := by
  apply TableMap.IsIndex.foldl_collectBuffer ws root hbufs
  exact TableMap.IsIndex.foldl_collectFile ws
    (fun file hfile => normalize_of_mem_sourceFiles hfile) .nil

lemma known_of_get?_collect (hprop : disk.root.IsProper) (hbufs : ws.BuffersNormal)
    (hroot : disk.isDirectory root.normalize)
    (haside : ws.EntriesAside disk (sourceFiles ws.settings disk root.normalize))
    (hpath : path.normalize = path)
    (hget : (ws.collect disk root.normalize).1.tables.get? path = some table) :
    ws.Indexes disk root.normalize path table ∨ path ∈ sourceFiles ws.settings disk root.normalize ∧
        ws.HasCached disk path table := by
  obtain ⟨taken?, hcases, hcollect⟩ := (collect_sourceFiles hprop hbufs haside).1 path hpath
  rw [hget, eq_comm, Option.or_eq_some_iff] at hcollect
  rcases hcollect with rfl | ⟨-, hbuf⟩
  · rcases hcases with ⟨-, hnone⟩ | ⟨hmem, htakes⟩
    · cases hnone
    · rcases htakes.known with hsame | ⟨cached, hsome, hcached⟩
      · exact .inl (indexes_of_mem_sourceFiles hprop hroot hmem hsame.symm)
      · cases hsome
        exact .inr ⟨hmem, hcached⟩
  · rw [Option.ite_none_right_eq_some] at hbuf
    exact .inl ((indexes_iff hprop hroot hpath).mpr (.inr hbuf))

lemma exists_get?_collect (hprop : disk.root.IsProper) (hbufs : ws.BuffersNormal)
    (hroot : disk.isDirectory root.normalize)
    (haside : ws.EntriesAside disk (sourceFiles ws.settings disk root.normalize))
    (hpath : path.normalize = path) (hindexes : ws.Indexes disk root.normalize path table) :
    ∃ found, (ws.collect disk root.normalize).1.tables.get? path = some found := by
  obtain ⟨taken?, hcases, hcollect⟩ := (collect_sourceFiles hprop hbufs haside).1 path hpath
  rw [hcollect, ← Option.isSome_iff_exists, Option.isSome_or, Bool.or_eq_true]
  rcases (indexes_iff hprop hroot hpath).mp hindexes with ⟨hmem, htable⟩ | ⟨hbelow, htable⟩
  · rcases hcases with ⟨hoth, -⟩ | ⟨-, htakes⟩
    · exact absurd hmem hoth
    · have hsome := htakes.isNone
      rw [htable] at hsome
      exact .inl (by simpa using hsome)
  · rw [if_pos hbelow, htable]
    exact .inr rfl

lemma get?_collect_of_hasCached (hprop : disk.root.IsProper) (hbufs : ws.BuffersNormal)
    (haside : ws.EntriesAside disk (sourceFiles ws.settings disk root))
    (hdist : ws.EntriesDistinct disk (sourceFiles ws.settings disk root))
    (hmem : path ∈ sourceFiles ws.settings disk root)
    (hcached : ws.HasCached disk path table) :
    (ws.collect disk root).1.tables.get? path = some table := by
  obtain ⟨taken?, ⟨hoth, -⟩ | ⟨-, htakes⟩, hcollect⟩ :=
    (collect_sourceFiles hprop hbufs haside).1 path (normalize_of_mem_sourceFiles hmem)
  · exact absurd hmem hoth
  · rw [hcollect, htakes.kept hdist table hcached, Option.some_or]

end Publishing

lemma publishesIndex_of_collect {built : Workspace} (hprop : disk.root.IsProper)
    (hbufs : ws.BuffersNormal) (hroot : disk.isDirectory root.normalize)
    (haside : ws.EntriesAside disk (sourceFiles ws.settings disk root.normalize))
    (hbuilt : built.snapshot.tables = (ws.collect disk root.normalize).1.tables) :
    ws.PublishesIndex disk root.normalize built := by
  have hindex : built.snapshot.tables.IsIndex := hbuilt ▸ isIndex_collect hbufs
  have hknown (path : Path) (table : ModuleTable) (hmem : (path, table) ∈ built.snapshot.tables) :
      ws.Indexes disk root.normalize path table ∨
        path ∈ sourceFiles ws.settings disk root.normalize ∧ ws.HasCached disk path table := by
    obtain ⟨hpath, hget⟩ := hindex.mem_iff.mp hmem
    rw [hbuilt] at hget
    exact known_of_get?_collect hprop hbufs hroot haside hpath hget
  have hfound {path : Path} {table : ModuleTable} (hpath : path.normalize = path)
      (hindexes : ws.Indexes disk root.normalize path table) :
      ∃ found, (path, found) ∈ built.snapshot.tables := by
    obtain ⟨found, hget⟩ := exists_get?_collect hprop hbufs hroot haside hpath hindexes
    rw [← hbuilt] at hget
    exact ⟨found, hindex.mem_iff.mpr ⟨hpath, hget⟩⟩
  refine ⟨hindex, ?_, hknown, ?_, ?_⟩
  · intro path
    constructor
    · intro hkey
      obtain ⟨⟨key, table⟩, hmem, rfl⟩ := mem_map.mp hkey
      refine ⟨(hindex.mem_iff.mp hmem).1, ?_⟩
      rcases hknown _ _ hmem with hindexes | ⟨hsrc, hbuf, cache, text, -, hread, -⟩
      · exact ⟨table, hindexes⟩
      · exact ⟨_, indexes_of_mem_sourceFiles hprop hroot hsrc (sourceTable?_eq_parse hbuf hread)⟩
    · rintro ⟨hpath, table, hindexes⟩
      obtain ⟨found, hmem⟩ := hfound hpath hindexes
      exact mem_map_of_mem hmem
  · intro hdist path hsrc table hcached
    have hget := get?_collect_of_hasCached hprop hbufs haside hdist hsrc hcached
    rw [← hbuilt] at hget
    exact hindex.mem_iff.mpr ⟨normalize_of_mem_sourceFiles hsrc, hget⟩
  · intro hagr path table
    have hexact {other : ModuleTable} (hmem : (path, other) ∈ built.snapshot.tables) :
        ws.Indexes disk root.normalize path other := by
      rcases hknown path other hmem with hindexes | ⟨hsrc, hcached⟩
      · exact hindexes
      · exact indexes_of_mem_sourceFiles hprop hroot hsrc (hagr path hsrc other hcached)
    constructor
    · intro hmem
      exact ⟨(hindex.mem_iff.mp hmem).1, hexact hmem⟩
    · rintro ⟨hpath, hindexes⟩
      obtain ⟨found, hmem⟩ := hfound hpath hindexes
      have hsame := (hexact hmem).sourceTable?_eq.symm.trans hindexes.sourceTable?_eq
      rwa [← Option.some.inj hsame]

lemma commit_of_recordsBounded (hrecs : ws.RecordsBounded) {ticket : RebuildTicket}
    (hcur : ws.generation = ticket.generation)
    (hstart : ws.edits = ticket.startEdits) (tables : TableMap) :
    (ws.commit ticket tables).1 = some ⟨tables, ticket.generation⟩ ∧
      (ws.commit ticket tables).2.snapshot.tables = tables := by
  simp only [commit, hcur, if_true]
  generalize hfilt : ws.lastEdits.filter _ = recent
  have hrecent : recent = [] := by
    rw [← hfilt, filter_eq_nil_iff]
    intro entry hentry
    have hle := hrecs entry hentry
    simp only [decide_eq_true_eq]
    omega
  rw [hrecent]
  exact ⟨rfl, rfl⟩

lemma fullRebuild_of_recordsBounded (hrecs : ws.RecordsBounded)
    (hroot : disk.isDirectory root.normalize) :
    let collected := (ws.collect disk root.normalize).1
    ∃ built after, ws.fullRebuild disk root =
        (.ok (.completed (ws.generation + 1) collected.tables.length collected.failed),
          built, after) ∧
      built.snapshot.tables = collected.tables := by
  intro collected
  let ticket := (ws.beginRebuild root.normalize).1
  let begun := (ws.beginRebuild root.normalize).2
  have hbegun : begun.RecordsBounded := hrecs
  obtain ⟨hsnapshot, htabs⟩ :=
    commit_of_recordsBounded hbegun (Eq.refl ticket.generation) (Eq.refl ticket.startEdits)
      collected.tables
  refine ⟨(begun.commit ticket collected.tables).2, (ws.collect disk root.normalize).2, ?_, htabs⟩
  have hreb : ws.fullRebuild disk root =
      (.ok (outcome ticket collected.failed (begun.commit ticket collected.tables).1),
        (begun.commit ticket collected.tables).2, (ws.collect disk root.normalize).2) := by
    simp only [fullRebuild, rebuildRoot, hroot, if_true]
    rfl
  rw [hreb, hsnapshot]
  rfl

def isUnreadable (workspace : Workspace) (disk : Disk) (source : Path) : Bool :=
  (workspace.buffers.get? source).isNone && (readSource disk source).toOption.isNone

lemma isNone_sourceTable? (ws : Workspace) (disk : Disk) (source : Path) :
    (ws.sourceTable? disk source).isNone = ws.isUnreadable disk source := by
  simp [sourceTable?, isUnreadable]

end Workspace

namespace WorkspaceRun

lemma buffersNormal_performAll
    {run : WorkspaceRun} (hbufs : run.workspace.BuffersNormal) (steps : List WorkspaceStep) :
    (run.performAll steps).workspace.BuffersNormal :=
  foldlRecOn (motive := fun run => run.workspace.BuffersNormal) steps perform hbufs
    fun _ hrun step _ => buffersNormal_perform hrun step

end WorkspaceRun

namespace Workspace

/-- A rebuild after any run, on any proper disk.  The source files below any path are
strictly sorted.  If the root is a directory, the rebuild publishes the map of its
root, and reports its size and the number of source files that could not be read.
If the root is none, the rebuild fails and changes nothing. -/
theorem fullRebuild_publishesIndex (settings : Settings) (cache? : Option TableCache) (start : Disk)
    (steps : List WorkspaceStep) {disk : Disk} (hproper : disk.root.IsProper) (root : Path) :
    let workspace := ((WorkspaceRun.initial settings cache? start).performAll steps).workspace
    let sources := sourceFiles workspace.settings disk root.normalize
    (∀ base, (sourceFiles workspace.settings disk base).Pairwise Path.Before) ∧
    (disk.isDirectory root.normalize = true → workspace.EntriesAside disk sources →
      ∃ built after, workspace.fullRebuild disk root =
          (.ok (.completed (workspace.generation + 1) built.snapshot.tables.length
            (sources.countP (workspace.isUnreadable disk))), built, after) ∧
        workspace.PublishesIndex disk root.normalize built) ∧
    (disk.isDirectory root.normalize = false → workspace.fullRebuild disk root =
      (.error (.io root.normalize .rootNotDirectory), workspace, disk)) := by
  intro workspace sources
  have hrecords : workspace.RecordsBounded :=
    ((WorkspaceRun.initial_sound settings cache? start).performAll steps).records
  have hbuffers : workspace.BuffersNormal := WorkspaceRun.buffersNormal_performAll
      (by simp [WorkspaceRun.initial, Workspace.BuffersNormal]) steps
  refine ⟨pairwise_sourceFiles hproper workspace.settings, ?_, ?_⟩
  · intro hroot haside
    obtain ⟨built, after, hrebuild, hbuilt⟩ := fullRebuild_of_recordsBounded hrecords hroot
    refine ⟨built, after, ?_, publishesIndex_of_collect hproper hbuffers hroot haside hbuilt⟩
    rw [hrebuild, hbuilt, (collect_sourceFiles hproper hbuffers haside).2]
    simp only [isNone_sourceTable?, sources]
  · intro hroot
    simp [fullRebuild, rebuildRoot, hroot]

/-! ## A small example -/

/-- A disk with a module `w/a.bsl` and a directory for a cache. -/
def moduleDisk (text : String) : Disk where
  root := .directory [(Utf8.encode "c", .directory []),
      (Utf8.encode "w", .directory [(Utf8.encode "a.bsl", .file (.bytes (Utf8.encode text)))])]

lemma isProper_moduleDisk (text : String) : (moduleDisk text).root.IsProper := by
  have hplain : ∀ name ∈ ["a.bsl", "c", "w"], (Component.name (Utf8.encode name)).IsPlain := by
    decide +kernel
  apply FileTree.IsProper.directory
  · change [Utf8.encode "c", Utf8.encode "w"].Nodup
    decide +kernel
  · intro entry hentry
    rcases mem_cons.mp hentry with rfl | hentry
    · exact hplain "c" (by simp)
    · rw [mem_singleton.mp hentry]
      exact hplain "w" (by simp)
  · intro entry hentry
    rcases mem_cons.mp hentry with rfl | hentry
    · exact .directory (by simp) (by simp) (by simp)
    · rw [mem_singleton.mp hentry]
      apply FileTree.IsProper.directory
      · simp
      · intro below hbelow
        rw [mem_singleton.mp hbelow]
        exact hplain "a.bsl" (by simp)
      · intro below hbelow
        rw [mem_singleton.mp hbelow]
        exact .file _

/-- A module on disk, and a buffer beside it that is not on disk yet. -/
theorem fullRebuild_publishesIndex_buffer :
    let disk := moduleDisk "Перем А;"
    let steps := [WorkspaceStep.openBuffer (.ofText "w/b.bsl") ""]
    let workspace := ((WorkspaceRun.initial {} (some TableCache.sampleCache) disk).performAll
      steps).workspace
    let root := Path.ofText "w"
    disk.root.IsProper ∧ disk.isDirectory root.normalize = true ∧
      workspace.EntriesAside disk (sourceFiles workspace.settings disk root.normalize) ∧
      ∃ built after, workspace.fullRebuild disk root = (.ok (.completed 1 2 0), built, after) ∧
          workspace.PublishesIndex disk root.normalize built := by
  intro disk steps workspace root
  have hproper : disk.root.IsProper := isProper_moduleDisk "Перем А;"
  have hroot : disk.isDirectory root.normalize = true := by decide +kernel
  have hsources : sourceFiles workspace.settings disk root.normalize =
      [TableCache.sampleModule] := by
    decide +kernel
  have haside : workspace.EntriesAside disk
      (sourceFiles workspace.settings disk root.normalize) := by
    rw [hsources]
    rintro cache ⟨⟩ source hsource other hother location hlocate hentry
    rw [mem_singleton.mp hsource] at hlocate
    rw [mem_singleton.mp hother] at hentry
    have hplaces : disk.locate TableCache.sampleModule ≠
        disk.locate (TableCache.sampleCache.entryPath TableCache.sampleModule) := by
      decide +kernel
    exact hplaces (hlocate.trans hentry.symm)
  refine ⟨hproper, hroot, haside, ?_⟩
  obtain ⟨built, after, hrebuild, hindex⟩ :=
    (fullRebuild_publishesIndex {} (some TableCache.sampleCache) disk steps hproper root).2.1
      hroot haside
  have houtcome : (workspace.fullRebuild disk root).1 = .ok (.completed 1 2 0) := by
    decide +kernel
  rw [hrebuild] at houtcome
  exact ⟨built, after, hrebuild.trans (Prod.ext houtcome rfl), hindex⟩

/-- A module of three byte order marks is rebuilt, then two of them are left and it is
rebuilt again.  The cache has kept a table with one mark, takes it for the table of
the new text, which begins with one, and so the old table is published. -/
theorem not_mem_tables_behind_marks :
    let path := TableCache.sampleModule
    let root := Path.ofText "w"
    let first := TableCache.sampleWorkspace.fullRebuild (moduleDisk "\ufeff\ufeff\ufeff") root
    let disk := (first.2.2.write path (.bytes (Utf8.encode "\ufeff\ufeff"))).toOption.getD first.2.2
    let second := first.2.1.fullRebuild disk root
    let table := first.2.1.parse path "\ufeff"
    first.2.1.Indexes disk root path table ∧ (path, table) ∉ second.2.1.snapshot.tables := by
  intro path root first disk second table
  constructor
  · have hread : readSource disk path = .ok "\ufeff" := by decide +kernel
    obtain ⟨content, hlookup, htext⟩ := Disk.readSource_eq_ok_iff.mp hread
    have hsize : (disk.lookup path).toOption.map
        (fun tree => tree.content?.map FileContent.size) = some (some 6) := by
      decide +kernel
    have hadmits : first.2.1.settings.Admits [Utf8.encode "a.bsl"] content := by
      have hsix : content.size = 6 := by
        simpa [hlookup, Except.toOption, FileTree.content?] using hsize
      have hlimit : 6 ≤ first.2.1.settings.maxFileSize := by decide +kernel
      exact ⟨hsix.trans_le hlimit, by simp⟩
    exact .file (by decide +kernel) (by decide +kernel) hlookup (by decide +kernel) hadmits htext
  · intro hmem
    have hkept : second.2.1.snapshot.tables.map (fun entry => entry.2.text) = ["\ufeff"] := by
      decide +kernel
    have htext : table.text = "" := by decide +kernel
    have hfound : table.text ∈ second.2.1.snapshot.tables.map fun entry => entry.2.text :=
      mem_map_of_mem hmem
    rw [hkept, htext] at hfound
    revert hfound
    decide

end Workspace

end BslInsight
