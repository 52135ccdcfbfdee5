import BslInsight.Proofs.WorkerFiles

/-!
# Several spellings of a file

Two runs of a worker whose commands differ only in how paths are spelled agree on buffers and
tables if and only if spellings of one file have the same components and are read alike on every
disk.  With such spellings the last text that a file was given is published.
-/

namespace BslInsight

open List

variable {disk : Disk} {pending others : PathMap PendingChange} {location : List FileName}
  {path : Path}

/-- The same command, but for the spelling of its path.  Rebuilds are left out. -/
inductive WorkerCommand.Respelled : WorkerCommand → WorkerCommand → Prop
  | opened {first second : Path} (hpaths : first.normalize = second.normalize) (text : String) :
      Respelled (.opened first text) (.opened second text)
  | changed {first second : Path} (hpaths : first.normalize = second.normalize) (text : String) :
      Respelled (.changed first text) (.changed second text)
  | saved {first second : Path} (hpaths : first.normalize = second.normalize)
      (text? : Option String) : Respelled (.saved first text?) (.saved second text?)
  | closed {first second : Path} (hpaths : first.normalize = second.normalize) :
      Respelled (.closed first) (.closed second)
  | deleted {first second : Path} (hpaths : first.normalize = second.normalize) :
      Respelled (.deleted first) (.deleted second)
  | flush : Respelled .flush .flush
  | shutdown : Respelled .shutdown .shutdown

inductive WorkerStep.Respelled : WorkerStep → WorkerStep → Prop
  | receive {command other : WorkerCommand} (hcmd : command.Respelled other) :
      Respelled (.receive command) (.receive other)
  | wake : Respelled .wake .wake
  | pass (milliseconds : Nat) : Respelled (.pass milliseconds) (.pass milliseconds)
  | changeDisk (disk : Disk) : Respelled (.changeDisk disk) (.changeDisk disk)

/-- Runs that differ only in spellings from a set end with the same buffers and
the same tables. -/
def IdentifiesFiles (paths : Set Path) : Prop :=
  ∀ (workspace : Workspace) (disk : Disk) (steps others : List WorkerStep),
    Forall₂ WorkerStep.Respelled steps others →
    (∀ step ∈ steps ++ others, ∀ path, step.path? = some path → path ∈ paths) →
      let first := ((TimedWorker.start workspace disk).flushed steps).workspace
      let second := ((TimedWorker.start workspace disk).flushed others).workspace
      ∀ path, first.bufferText? path = second.bufferText? path ∧
        first.table? path = second.table? path

/-- What is said last of the buffer of a file, under any spelling from a set,
holds after a flush, and a text is then published. -/
def LastWriteWins (paths : Set Path) : Prop :=
  ∀ (workspace : Workspace) (disk : Disk) (steps : List WorkerStep),
    workspace.settings.debounceMs ≤ flushHorizon → (∀ step ∈ steps, step.Within paths) →
    ∀ path ∈ paths, ∀ text?, lastWrite? path steps = some text? →
      ((TimedWorker.start workspace disk).flushed steps).workspace.Presents path text?

def ReadAlike (paths : Set Path) : Prop :=
  ∀ first ∈ paths, ∀ second ∈ paths, first.normalize = second.normalize →
    ∀ (workspace : Workspace) (disk : Disk),
      workspace.reloaded? disk first = workspace.reloaded? disk second

/-! ## Runs in lockstep -/

namespace Workspace

variable {first second : Path}

variable (hpaths : first.normalize = second.normalize)
include hpaths

lemma updateFile_congr (ws : Workspace) (text : String) :
    ws.updateFile first text = ws.updateFile second text := by
  simp only [updateFile, hpaths]

lemma evictFile_congr (ws : Workspace) (disk : Disk) :
    ws.evictFile disk first = ws.evictFile disk second := by
  simp only [evictFile, evictTable, hpaths]

lemma reload_congr {ws : Workspace} (hread : ws.reloaded? disk first = ws.reloaded? disk second) :
    (ws.reload disk first).2 = (ws.reload disk second).2 := by
  unfold reloaded? at hread
  unfold reload
  cases hfirst : readSource disk first with
  | ok text =>
    cases hsnd : readSource disk second with
    | ok other =>
      simp only [hfirst, hsnd, Except.toOption, Option.map_some, Option.some.injEq, hpaths] at hread
      simp only [updateFile, hpaths, hread]
    | error failure => simp [hfirst, hsnd, Except.toOption] at hread
  | error failure =>
    cases hsnd : readSource disk second with
    | ok other => simp [hfirst, hsnd, Except.toOption] at hread
    | error other => exact evictFile_congr hpaths ws disk

end Workspace

structure Respells (paths : Set Path) (first second : Path) : Prop where
  mem : first ∈ paths ∧ second ∈ paths
  normal : first.normalize = second.normalize

structure SameChange (paths : Set Path) (entry other : Path × PendingChange) : Prop where
  paths : Respells paths entry.1 other.1
  change : entry.2 = other.2

structure Worker.Paired (paths : Set Path) (worker other : Worker) : Prop where
  workspace : worker.workspace = other.workspace
  disk : worker.disk = other.disk
  pending : Forall₂ (SameChange paths) worker.pending other.pending

section Lockstep

variable {paths : Set Path} {first second : Path}

section

variable (halike : SpelledAlike paths) (hpaths : Respells paths first second)
include halike hpaths

lemma SpelledAlike.same_eq {entry other : Path × PendingChange}
    (hentry : SameChange paths entry other) : entry.1.same first = other.1.same second := by
  rw [Bool.eq_iff_iff, halike.same_iff hentry.paths.mem.1 hpaths.mem.1,
    halike.same_iff hentry.paths.mem.2 hpaths.mem.2, hentry.paths.normal, hpaths.normal]

lemma SpelledAlike.rel_erase (hpend : Forall₂ (SameChange paths) pending others) :
    Forall₂ (SameChange paths) (pending.erase first) (others.erase second) := by
  apply rel_filter _ hpend
  intro entry other hentry
  change (!entry.1.same first) ↔ (!other.1.same second)
  rw [halike.same_eq hpaths hentry]

lemma SpelledAlike.get?_eq (hpend : Forall₂ (SameChange paths) pending others) :
    pending.get? first = others.get? second := by
  induction hpend with
  | nil => rfl
  | @cons entry other rest more hentry _ ih =>
    obtain ⟨key, change⟩ := entry
    obtain ⟨otherKey, otherChange⟩ := other
    have hsame := halike.same_eq hpaths hentry
    have hchange : change = otherChange := hentry.change
    rw [PathMap.get?_cons, PathMap.get?_cons, ih, hsame, hchange]

end

namespace Worker.Paired

variable {worker other : Worker} (hprd : worker.Paired paths other)
include hprd

lemma cancel (halike : SpelledAlike paths) (hpaths : Respells paths first second) :
    (worker.cancel first).Paired paths (other.cancel second) :=
  ⟨hprd.workspace, hprd.disk, halike.rel_erase hpaths hprd.pending⟩

lemma parse (hpaths : first.normalize = second.normalize)
    (text : String) : (worker.parse first text).Paired paths (other.parse second text) := by
  refine ⟨?_, hprd.disk, hprd.pending⟩
  simp only [Worker.parse, hprd.workspace, Workspace.updateFile_congr hpaths]

lemma setBuffer (hpaths : first.normalize = second.normalize)
    (text : String) : (worker.setBuffer first text).Paired paths (other.setBuffer second text) := by
  refine ⟨?_, hprd.disk, hprd.pending⟩
  simp only [Worker.setBuffer, Workspace.openBuffer, hprd.workspace, hpaths]

lemma dropBuffer (hpaths : first.normalize = second.normalize) :
    (worker.dropBuffer first).Paired paths (other.dropBuffer second) := by
  refine ⟨?_, hprd.disk, hprd.pending⟩
  simp only [Worker.dropBuffer, Workspace.closeBuffer, hprd.workspace, hpaths]

lemma reload (hreads : ReadAlike paths) (hpaths : Respells paths first second) :
    (worker.reload first).Paired paths (other.reload second) := by
  have hreload : (worker.workspace.reload worker.disk first).2 =
      (other.workspace.reload other.disk second).2 := by
    rw [hprd.workspace, hprd.disk]
    apply Workspace.reload_congr hpaths.normal
    exact hreads first hpaths.mem.1 second hpaths.mem.2 hpaths.normal _ _
  exact ⟨congrArg Prod.fst hreload, congrArg Prod.snd hreload, hprd.pending⟩

lemma foldl_parse {due : PathMap PendingChange} (hdue : Forall₂ (SameChange paths) due others) :
    (due.foldl (fun worker entry => worker.parse entry.1 entry.2.text) worker).Paired paths
      (others.foldl (fun worker entry => worker.parse entry.1 entry.2.text) other) := by
  induction hdue generalizing worker other with
  | nil => exact hprd
  | @cons entry respelled _ _ hentry _ ih =>
    apply ih
    simp only [hentry.change]
    exact hprd.parse hentry.paths.normal _

lemma applyDue (time : Nat) : (worker.applyDue time).Paired paths (other.applyDue time) := by
  have hfilt (condition : PendingChange → Bool) :
      Forall₂ (SameChange paths) (worker.pending.filter fun entry => condition entry.2)
        (other.pending.filter fun entry => condition entry.2) := by
    apply rel_filter _ hprd.pending
    intro entry respelled hentry
    change condition entry.2 ↔ condition respelled.2
    rw [hentry.change]
  refine foldl_parse ?_ (hfilt fun change => decide (change.due ≤ time))
  exact ⟨hprd.workspace, hprd.disk, hfilt fun change => decide (time < change.due)⟩

lemma receive (halike : SpelledAlike paths) (hreads : ReadAlike paths)
    {command respelled : WorkerCommand} (hcmd : command.Respelled respelled)
    (hfirst : ∀ path, command.path? = some path → path ∈ paths)
    (hsnd : ∀ path, respelled.path? = some path → path ∈ paths) (now : Nat) :
    (worker.receive now command).Paired paths (other.receive now respelled) := by
  have hspel {first second : Path} (hnorm : first.normalize = second.normalize)
      (hcmd : command.path? = some first) (hrespelled : respelled.path? = some second) :
      Respells paths first second :=
    ⟨⟨hfirst _ hcmd, hsnd _ hrespelled⟩, hnorm⟩
  cases hcmd with
  | opened hpaths text =>
    exact ((hprd.cancel halike (hspel hpaths rfl rfl)).setBuffer hpaths text).parse hpaths text
  | @changed first second hpaths text =>
    have hbuf := hprd.setBuffer hpaths text
    refine ⟨hbuf.workspace, hbuf.disk, ?_⟩
    apply rel_append
    · exact halike.rel_erase (hspel hpaths rfl rfl) hprd.pending
    · simp only [Worker.setBuffer, Workspace.openBuffer, hprd.workspace]
      exact .cons ⟨hspel hpaths rfl rfl, rfl⟩ .nil
  | @saved first second hpaths text? =>
    have hboth := hspel hpaths rfl rfl
    have hsaved : worker.savedText? first text? = other.savedText? second text? := by
      simp only [savedText?, Workspace.bufferText?, hpaths, hprd.workspace,
        halike.get?_eq hboth hprd.pending]
    simp only [Worker.receive, hsaved]
    split
    · exact ((hprd.cancel halike hboth).setBuffer hpaths _).parse hpaths _
    · exact (hprd.cancel halike hboth).reload hreads hboth
  | closed hpaths =>
    have hboth := hspel hpaths rfl rfl
    exact ((hprd.cancel halike hboth).dropBuffer hpaths).reload hreads hboth
  | @deleted first second hpaths =>
    have hdrp := (hprd.cancel halike (hspel hpaths rfl rfl)).dropBuffer hpaths
    have hevict : ((worker.cancel first).dropBuffer first).workspace.evictFile worker.disk first =
        ((other.cancel second).dropBuffer second).workspace.evictFile other.disk second := by
      rw [hdrp.workspace, hprd.disk]
      exact Workspace.evictFile_congr hpaths _ _
    exact ⟨congrArg Prod.fst hevict, congrArg Prod.snd hevict, hdrp.pending⟩
  | flush => exact hprd.applyDue _
  | shutdown => exact ⟨hprd.workspace, hprd.disk, .nil⟩

end Worker.Paired

namespace TimedWorker

structure InLockstep (paths : Set Path) (worker other : TimedWorker) : Prop where
  paired : worker.toWorker.Paired paths other.toWorker
  now : worker.now = other.now
  stopped : worker.stopped = other.stopped

variable {worker other : TimedWorker}

lemma InLockstep.perform (halike : SpelledAlike paths) (hreads : ReadAlike paths)
    (hlockstep : worker.InLockstep paths other) {step respelled : WorkerStep}
    (hstep : step.Respelled respelled) (hfirst : ∀ path, step.path? = some path → path ∈ paths)
    (hsnd : ∀ path, respelled.path? = some path → path ∈ paths) :
    (worker.perform step).InLockstep paths (other.perform respelled) := by
  obtain ⟨hprd, hnow, hstopped⟩ := hlockstep
  cases hstep with
  | @receive command otherCommand hcmd =>
    have hend : (command == .shutdown) = (otherCommand == .shutdown) := by
      cases hcmd <;> rfl
    simp only [TimedWorker.perform, hnow, hstopped, hend]
    split
    · exact ⟨hprd, hnow, hstopped⟩
    · exact ⟨hprd.receive halike hreads hcmd hfirst hsnd _, rfl, rfl⟩
  | wake =>
    simp only [TimedWorker.perform, hnow, hstopped]
    split
    · exact ⟨hprd, hnow, hstopped⟩
    · exact ⟨hprd.applyDue _, rfl, rfl⟩
  | pass milliseconds => exact ⟨hprd, congrArg (· + milliseconds) hnow, hstopped⟩
  | changeDisk disk => exact ⟨⟨hprd.workspace, rfl, hprd.pending⟩, hnow, hstopped⟩

lemma InLockstep.foldl_perform (halike : SpelledAlike paths) (hreads : ReadAlike paths)
    (hlockstep : worker.InLockstep paths other) {steps others : List WorkerStep}
    (hsteps : Forall₂ WorkerStep.Respelled steps others)
    (hpaths : ∀ step ∈ steps ++ others, ∀ path, step.path? = some path → path ∈ paths) :
    (steps.foldl TimedWorker.perform worker).InLockstep paths
      (others.foldl TimedWorker.perform other) := by
  induction hsteps generalizing worker other with
  | nil => exact hlockstep
  | @cons step respelled rest more hstep _ ih =>
    apply ih
    · exact hlockstep.perform halike hreads hstep (hpaths step (by simp))
        (hpaths respelled (by simp))
    · intro step hmem
      apply hpaths step
      rcases mem_append.mp hmem with hrest | hmore
      · simp [hrest]
      · simp [hmore]

end TimedWorker

lemma identifiesFiles_of_spelledAlike
    (halike : SpelledAlike paths) (hreads : ReadAlike paths) : IdentifiesFiles paths := by
  intro ws disk steps others hsteps hpaths
  have hstart : (TimedWorker.start ws disk).InLockstep paths
      (TimedWorker.start ws disk) := ⟨⟨rfl, rfl, .nil⟩, rfl, rfl⟩
  have hrun := hstart.foldl_perform halike hreads hsteps hpaths
  have hflushed := hrun.perform halike hreads (.receive .flush) (by simp [WorkerStep.path?,
    WorkerCommand.path?]) (by simp [WorkerStep.path?, WorkerCommand.path?])
  intro first second path
  have hworkspace : first = second := hflushed.paired.workspace
  rw [hworkspace]
  exact ⟨rfl, rfl⟩

end Lockstep

/-! ## Reading under several spellings -/

def staysPut (segment : List UInt8) : Bool := segment = [] ∨ segment = [dotByte]

def Path.isTrimmed (path : Path) : Bool := (splitOn slashByte path.bytes).getLast?.all (!staysPut ·)

def Component.segment? : Component → Option (List UInt8)
  | .parent => some [dotByte, dotByte]
  | .name value => some value
  | _ => none

lemma Component.bind_segment? (first : Bool) (segment : List UInt8) :
    (ofSegment? first segment).bind segment? = if staysPut segment then none else some segment := by
  unfold ofSegment? staysPut
  by_cases hempty : segment = []
  · simp [hempty]
  · by_cases hdot : segment = [dotByte]
    · cases first <;> simp [hdot, Component.segment?]
    · by_cases hdots : segment = [dotByte, dotByte] <;>
        simp [hempty, hdot, hdots, Component.segment?]

lemma Path.filterMap_segment? (path : Path) : path.components.filterMap Component.segment? =
      (splitOn slashByte path.bytes).filter (!staysPut ·) := by
  have hrest (segments : List (List UInt8)) :
      (segments.filterMap (Component.ofSegment? false)).filterMap Component.segment? =
        segments.filter (!staysPut ·) := by
    rw [filterMap_filterMap, ← filterMap_eq_filter]
    apply congrArg (List.filterMap · segments)
    funext segment
    rw [Component.bind_segment?]
    cases hstays : staysPut segment <;> simp [Option.guard, hstays]
  unfold components
  split
  · exact hrest _
  · cases splitOn slashByte path.bytes with
    | nil => rfl
    | cons first rest =>
      have hfirst : (Component.ofSegment? true first).toList.filterMap Component.segment? =
          [first].filter (!staysPut ·) := by
        have hoption (component? : Option Component) :
            component?.toList.filterMap Component.segment? =
              (component?.bind Component.segment?).toList := by
          cases component? with
          | none => rfl
          | some component => cases component <;> rfl
        rw [hoption, Component.bind_segment?]
        cases hstays : staysPut first <;> simp [hstays]
      rw [ofSegments, filterMap_append, hrest, hfirst, ← filter_append]
      rfl

lemma Path.isAbsolute_iff (path : Path) : path.isAbsolute ↔ path.components.head? = some .root := by
  unfold components
  split
  next habs => simp [habs]
  next hrlv =>
    constructor
    · intro habs
      exact absurd habs hrlv
    · intro hhead
      have hslash : ∀ segment ∈ splitOn slashByte path.bytes, slashByte ∉ segment :=
        fun segment hseg => slashByte_notMem_of_mem_splitOn hseg
      rcases isPlain_or_current_of_mem_ofSegments hslash (mem_of_mem_head? hhead) with
        hplain | hcur
      · exact hplain.elim
      · cases hcur

namespace Disk

lemma foldlM_step_filter {root : FileTree} {next : List FileName} {segments : List (List UInt8)}
    (hlast : segments.getLast?.all (!staysPut ·)) :
    segments.foldlM (step root) location = .ok next ↔
      (segments.filter (!staysPut ·)).foldlM (step root) location = .ok next := by
  induction segments generalizing location with
  | nil => rfl
  | cons segment rest ih =>
    cases rest with
    | nil =>
      have hstays : (!staysPut segment) := hlast
      simp [hstays]
    | cons other more =>
      have hlater : (other :: more).getLast?.all (!staysPut ·) := by simpa using hlast
      rw [foldlM_step_cons_iff]
      cases hstays : staysPut segment with
      | true =>
        have hfollow : follow location segment = location := by
          simp only [staysPut, decide_eq_true_eq] at hstays
          simp [follow, hstays]
        -- The next segment asks for the same directory.
        rw [filter_cons_of_neg (by simp [hstays]), ← ih hlater, hfollow]
        constructor
        · exact And.right
        · intro hrest
          exact ⟨(foldlM_step_cons_iff.mp hrest).1, hrest⟩
      | false => rw [filter_cons_of_pos (by simp [hstays]), ih hlater, foldlM_step_cons_iff]

lemma locate_eq_ok_iff (htrimmed : path.isTrimmed) : disk.locate path = .ok location ↔
      (path.components.filterMap Component.segment?).foldlM (step disk.root)
        (if path.components.head? = some .root then [] else disk.workingDir) = .ok location := by
  have hbytes : path.bytes ≠ [] := by
    intro hbytes
    unfold Path.isTrimmed at htrimmed
    rw [hbytes] at htrimmed
    revert htrimmed
    decide
  unfold locate start
  rw [if_neg hbytes, foldlM_step_filter htrimmed, Path.filterMap_segment?]
  simp only [Path.isAbsolute_iff]

end Disk

lemma SpelledAlike.readAlike {paths : Set Path} (halike : SpelledAlike paths)
    (htrimmed : ∀ path ∈ paths, path.isTrimmed) : ReadAlike paths := by
  intro first hfirst second hsnd hpaths ws disk
  have hcomps := Path.same_iff.mp (halike first hfirst second hsnd hpaths)
  have hloc (location : List FileName) :
      disk.locate first = .ok location ↔ disk.locate second = .ok location := by
    rw [Disk.locate_eq_ok_iff (htrimmed first hfirst),
      Disk.locate_eq_ok_iff (htrimmed second hsnd), hcomps]
  apply Option.ext
  intro table
  simp only [Workspace.reloaded?_eq_some_iff, Disk.readSource_eq_ok_iff, Disk.lookup_eq_ok_iff,
    hloc, hpaths]

lemma SpelledAlike.lastWriteWins {paths : Set Path} (halike : SpelledAlike paths) :
    LastWriteWins paths := by
  intro ws disk steps hhor hsteps path hpath text? htext
  let reached := steps.foldl TimedWorker.perform (TimedWorker.start ws disk)
  have hstart : (TimedWorker.start ws disk).Orderly paths :=
    TimedWorker.orderly_start paths hhor disk
  have hord : reached.Orderly paths := hstart.foldl_perform hsteps
  have hkeeps : (reached.file path).Keeps (ws.parse path.normalize) text? :=
    TimedWorker.keeps_foldl_perform halike hpath hstart hsteps (by simp) htext
  change (reached.perform (.receive .flush)).workspace.Presents path text?
  simp only [TimedWorker.perform, hord.running, Bool.false_eq_true, if_false]
  exact TimedWorker.presents_flush halike hpath hord hkeeps

/-! ## What spellings must share -/

namespace Worker

variable {worker : Worker}

lemma applyDue_nil (hpend : worker.pending = []) (time : Nat) : worker.applyDue time = worker := by
  unfold applyDue
  rw [hpend]
  exact congrArg (fun pending => { worker with pending }) hpend.symm

lemma applyDue_singleton {change : PendingChange} (hpend : worker.pending = [(path, change)])
    {time : Nat} (hdue : change.due ≤ time) :
    worker.applyDue time = { worker with pending := [] }.parse path change.text := by
  unfold applyDue
  rw [hpend]
  simp [hdue, Nat.not_lt.mpr hdue]

end Worker

section Necessity

variable {paths : Set Path} {first second : Path}

lemma parse_ne (ws other : Workspace) (path : Path) : ws.parse path "a" ≠ other.parse path "" := by
  intro heq
  have htext := congrArg ModuleTable.text heq
  unfold Workspace.parse at htext
  rw [(parseModule_origin path _ "a").2, (parseModule_origin path _ "").2] at htext
  revert htext
  decide

lemma table?_changed_opened
    (hpaths : first.normalize = second.normalize) (hdiff : first.same second = false) :
    ((TimedWorker.start {} {}).flushed
        [.receive (.changed first "a"), .receive (.opened second "")]).workspace.table? second =
      some (Workspace.parse {} second.normalize "a") := by
  let changed := (TimedWorker.start {} {}).receive 0 (.changed first "a")
  let opened := changed.receive 0 (.opened second "")
  let change : PendingChange := ⟨"a", 300⟩
  have hpend : opened.pending = [(first, change)] := by
    change PathMap.erase [(first, change)] second = _
    simp [PathMap.erase, hdiff]
  change (opened.applyDue (0 + flushHorizon)).workspace.table? second = _
  rw [Worker.applyDue_singleton hpend (by decide)]
  have hfile := Worker.file_parse { opened with pending := [] } first "a" second
  rw [if_pos hpaths, hpaths] at hfile
  have htable := congrArg FileState.table? hfile
  rw [Workspace.parse_eq opened.workspace {}] at htable
  exact htable

lemma LastWriteWins.spelledAlike (hwins : LastWriteWins paths) : SpelledAlike paths := by
  intro first hfirst second hsnd hpaths
  by_contra hdiff
  have hstale := table?_changed_opened hpaths (by simpa using hdiff)
  have hfresh := (hwins {} {} [.receive (.changed first "a"), .receive (.opened second "")]
    (by decide) ?_ second hsnd (some "") ?_).table "" rfl
  · rw [hfresh] at hstale
    exact parse_ne _ _ _ (Option.some.inj hstale).symm
  · simp [WorkerStep.Within, WorkerCommand.path?, hfirst, hsnd]
  · simp [lastWrite?, WorkerStep.write?, WorkerCommand.write?, WorkerCommand.path?,
      WorkerCommand.buffer?]

lemma IdentifiesFiles.spelledAlike (hidentifies : IdentifiesFiles paths) : SpelledAlike paths := by
  intro first hfirst second hsnd hpaths
  by_contra hdiff
  have hstale := table?_changed_opened hpaths (by simpa using hdiff)
  have hsteps : Forall₂ WorkerStep.Respelled
      [.receive (.changed first "a"), .receive (.opened second "")]
      [.receive (.changed second "a"), .receive (.opened second "")] :=
    .cons (.receive (.changed hpaths "a")) (.cons (.receive (.opened rfl "")) .nil)
  have htabs := (hidentifies {} {} _ _ hsteps (by simp [WorkerStep.path?, WorkerCommand.path?,
    hfirst, hsnd]) second).2
  -- With one spelling alone the last write wins.
  have hsing : SpelledAlike {second} := by
    rintro _ rfl _ rfl _
    exact Path.same_self _
  have hfresh := (hsing.lastWriteWins {} {}
    [.receive (.changed second "a"), .receive (.opened second "")]
    (by decide) (by simp [WorkerStep.Within, WorkerCommand.path?]) second rfl (some "")
    (by simp [lastWrite?, WorkerStep.write?, WorkerCommand.write?, WorkerCommand.path?,
      WorkerCommand.buffer?])).table "" rfl
  rw [hstale, hfresh] at htabs
  exact parse_ne _ _ _ (Option.some.inj htabs)

lemma IdentifiesFiles.readAlike (hidentifies : IdentifiesFiles paths) : ReadAlike paths := by
  intro first hfirst second hsnd hpaths ws disk
  have hshut (path : Path) :
      ((TimedWorker.start ws disk).flushed [.receive (.closed path)]).workspace.table? path =
        ws.reloaded? disk path := by
    let closed := (TimedWorker.start ws disk).receive 0 (.closed path)
    change (closed.applyDue (0 + flushHorizon)).workspace.table? path = _
    rw [Worker.applyDue_nil rfl]
    have hcmd : (WorkerCommand.closed path).path? = some path := rfl
    have hfile := Worker.file_receive hcmd (TimedWorker.start ws disk).toWorker 0
    exact congrArg FileState.table? hfile
  have hsteps : Forall₂ WorkerStep.Respelled [.receive (.closed first)]
      [.receive (.closed second)] := .cons (.receive (.closed hpaths)) .nil
  have htabs := (hidentifies ws disk _ _ hsteps (by simp [WorkerStep.path?,
    WorkerCommand.path?, hfirst, hsnd]) first).2
  rw [← hshut first, htabs, ← hshut second]
  simp only [Workspace.table?, hpaths]

end Necessity

/-- Respelled runs agree exactly for spellings with the same components that are
read alike, and the last write wins exactly for spellings with the same
components.  Spellings that are trimmed are read alike if their components are the
same. -/
theorem identifiesFiles_iff (paths : Set Path) :
    (IdentifiesFiles paths ↔ SpelledAlike paths ∧ ReadAlike paths) ∧
      (LastWriteWins paths ↔ SpelledAlike paths) ∧
      ((∀ path ∈ paths, path.isTrimmed = true) → (IdentifiesFiles paths ↔ SpelledAlike paths)) := by
  have hidentifies : IdentifiesFiles paths ↔ SpelledAlike paths ∧ ReadAlike paths := by
    constructor
    · intro hidentifies
      exact ⟨hidentifies.spelledAlike, hidentifies.readAlike⟩
    · rintro ⟨halike, hreads⟩
      exact identifiesFiles_of_spelledAlike halike hreads
  refine ⟨hidentifies, ⟨LastWriteWins.spelledAlike, SpelledAlike.lastWriteWins⟩, ?_⟩
  intro htrimmed
  rw [hidentifies]
  exact and_iff_left_of_imp fun halike => halike.readAlike htrimmed

/-- Slashes and dots within a path make no difference. -/
theorem identifiesFiles_inner_slashes :
    let paths : Set Path :=
      {Path.ofText "ws/a.bsl", Path.ofText "ws//a.bsl", Path.ofText "ws/./a.bsl"}
    (∀ path ∈ paths, path.isTrimmed = true) ∧ SpelledAlike paths ∧
      IdentifiesFiles paths ∧ LastWriteWins paths := by
  intro paths
  have htrimmed : ∀ path ∈ paths, path.isTrimmed = true := by
    rintro path (rfl | rfl | rfl) <;> decide +kernel
  have hcomponents : ∀ path ∈ paths, (Path.ofText "ws/a.bsl").components = path.components := by
    rintro path (rfl | rfl | rfl) <;> decide +kernel
  have halike : SpelledAlike paths := by
    intro first hfirst second hsecond _
    rw [Path.same_iff, ← hcomponents first hfirst, ← hcomponents second hsecond]
  obtain ⟨-, hwins, hidentifies⟩ := identifiesFiles_iff paths
  exact ⟨htrimmed, halike, (hidentifies htrimmed).mpr halike, hwins.mpr halike⟩

/-- Normalisation also resolves parent segments, and there the worker tells
spellings apart.  A slash at the end keeps a file from being read. -/
theorem not_identifiesFiles : (¬ IdentifiesFiles Set.univ ∧ ¬ LastWriteWins Set.univ) ∧
      let paths : Set Path := {Path.ofText "a.bsl", Path.ofText "a.bsl/"}
      SpelledAlike paths ∧ ¬ IdentifiesFiles paths := by
  have hunlike : ¬ SpelledAlike Set.univ := by
    intro halike
    have hsame := halike (Path.ofText "ws/x/../a.bsl") trivial (Path.ofText "ws/a.bsl") trivial
      (by decide +kernel)
    revert hsame
    decide +kernel
  refine ⟨⟨fun h => hunlike h.spelledAlike, fun h => hunlike h.spelledAlike⟩, ?_, ?_⟩
  · rintro first (rfl | rfl) second (rfl | rfl) _ <;> decide +kernel
  · intro hidentifies
    let disk : Disk := { root := .directory [((Path.ofText "a.bsl").bytes, .file (.bytes []))] }
    have hread := congrArg Option.isSome (hidentifies.readAlike (Path.ofText "a.bsl") (by simp)
      (Path.ofText "a.bsl/") (by simp) (by decide +kernel) {} disk)
    revert hread
    decide +kernel

end BslInsight
