import BslInsight.Proofs.WorkspaceSteps

/-!
# What a rebuild collects for an open buffer

A rebuild reads the files below its root and then adds the open buffers that
are not among them.  Whichever way a file with an open buffer is met first,
its table is the one of the buffer, and the disk has no part in it.
-/

namespace BslInsight

open List

variable {root : Path} {table : ModuleTable}

lemma normalize_of_mem_sourceFiles {settings : Settings} {disk : Disk} {path : Path}
    (hpath : path ∈ sourceFiles settings disk root) : path.normalize = path := by
  unfold sourceFiles at hpath
  split at hpath
  next => simp at hpath
  next tree _ =>
    rw [sortPaths, mem_mergeSort, mem_filterMap] at hpath
    obtain ⟨⟨names, content⟩, -, hsome⟩ := hpath
    simp only at hsome
    split at hsome
    next =>
      rw [Option.some.injEq] at hsome
      rw [← hsome, Path.normalize_normalize]
    next => cases hsome

namespace Workspace

def BuffersNormal (workspace : Workspace) : Prop :=
  ∀ entry ∈ workspace.buffers, entry.1.normalize = entry.1

lemma BuffersNormal.openBuffer {ws : Workspace} (hbufs : ws.BuffersNormal)
    (path : Path) (text : String) : (ws.openBuffer path text).BuffersNormal := by
  intro entry hentry
  rcases PathMap.mem_insert.mp hentry with ⟨hold, -⟩ | rfl
  · exact hbufs entry hold
  · exact Path.normalize_normalize path

lemma BuffersNormal.closeBuffer {ws : Workspace} (hbufs : ws.BuffersNormal)
    (path : Path) : (ws.closeBuffer path).BuffersNormal := by
  intro entry hentry
  exact hbufs entry (mem_filter.mp hentry).1

section OpenBuffer

variable {workspace ws : Workspace} {path : Path} {text : String}

def CollectsOnly (workspace : Workspace) (path : Path) (text : String) (tables : TableMap) : Prop :=
  ∀ table, tables.get? path = some table → table = workspace.parse path text

lemma CollectsOnly.insert {tables : TableMap} (htabs : ws.CollectsOnly path text tables)
    {key : Path} (hkey : key.same path → table = ws.parse path text) :
    ws.CollectsOnly path text (tables.insert key table) := by
  intro found hfound
  rw [TableMap.get?_insert] at hfound
  split at hfound
  next hsame =>
    rw [Option.some.injEq] at hfound
    rw [← hfound]
    exact hkey hsame
  next => exact htabs found hfound

lemma CollectsOnly.collectFile (hnorm : path.normalize = path)
    (hbuf : ws.buffers.get? path = some text) {state : Collected × Disk}
    (hstate : ws.CollectsOnly path text state.1.tables)
    {file : Path} (hfile : file.normalize = file) :
    ws.CollectsOnly path text (ws.collectFile state file).1.tables := by
  have hload (hsame : file.same path) : ws.loadTable state.2 file =
        (some (ws.parse path text), state.2) := by
    have heq := Path.eq_of_same_of_normalize hsame hfile hnorm
    subst file
    simp [loadTable, hbuf]
  unfold Workspace.collectFile
  simp only
  split
  next table disk hloaded =>
    apply hstate.insert
    intro hsame
    rw [hload hsame, Prod.mk.injEq, Option.some.injEq] at hloaded
    exact hloaded.1.symm
  next => exact hstate

lemma CollectsOnly.foldl_collectFile (hnorm : path.normalize = path)
    (hbuf : ws.buffers.get? path = some text)
    {files : List Path} (hfiles : ∀ file ∈ files, file.normalize = file) :
    ∀ state : Collected × Disk, ws.CollectsOnly path text state.1.tables →
        ws.CollectsOnly path text (files.foldl ws.collectFile state).1.tables := by
  induction files with
  | nil => exact fun state hstate => hstate
  | cons file rest ih =>
    intro state hstate
    rw [foldl_cons]
    apply ih fun other hoth => hfiles other (mem_cons_of_mem file hoth)
    exact hstate.collectFile hnorm hbuf (hfiles file mem_cons_self)

lemma get?_collectBuffer_of_some {collected : Collected}
    (htable : collected.tables.get? path = some table) (buffer : Path × String) :
    (ws.collectBuffer root collected buffer).tables.get? path = some table := by
  unfold collectBuffer
  simp only
  split
  next hadded =>
    have hoth : buffer.1.same path = false := by
      rw [Bool.eq_false_iff]
      intro hsame
      rw [← TableMap.get?_congr _ hsame] at htable
      simp [htable] at hadded
    simpa [TableMap.get?_insert, hoth] using htable
  next => exact htable

lemma get?_foldl_collectBuffer_of_some (buffers : PathMap String) :
    ∀ collected : Collected, collected.tables.get? path = some table →
      (buffers.foldl (ws.collectBuffer root) collected).tables.get? path = some table := by
  induction buffers with
  | nil => exact fun collected htable => htable
  | cons buffer rest ih =>
    intro collected htable
    exact ih _ (get?_collectBuffer_of_some htable buffer)

lemma get?_foldl_collectBuffer (hnorm : path.normalize = path) (hroot : path.startsWith root)
    (hdial : (ws.settings.dialectFor? path).isSome) {buffers : PathMap String}
    (hbuf : buffers.get? path = some text)
    (hkeys : ∀ entry ∈ buffers, entry.1.normalize = entry.1) :
    ∀ collected : Collected, ws.CollectsOnly path text collected.tables →
        (buffers.foldl (ws.collectBuffer root) collected).tables.get? path =
          some (ws.parse path text) := by
  induction buffers with
  | nil => simp [PathMap.get?] at hbuf
  | cons buffer rest ih =>
    intro collected hcoll
    obtain ⟨key, value⟩ := buffer
    rw [foldl_cons]
    rw [PathMap.get?_cons] at hbuf
    by_cases hsame : key.same path
    · -- The buffer itself: either its table is there, or it is added now.
      rw [if_pos hsame, Option.some.injEq] at hbuf
      have hkey := hkeys (key, value) mem_cons_self
      have heq := Path.eq_of_same_of_normalize hsame hkey hnorm
      subst key value
      apply get?_foldl_collectBuffer_of_some
      cases hget : collected.tables.get? path with
      | some table =>
        rw [get?_collectBuffer_of_some hget]
        rw [hcoll table hget]
      | none => simp [collectBuffer, hroot, hget, hdial, TableMap.get?_insert]
    · rw [if_neg hsame] at hbuf
      apply ih hbuf fun entry hentry => hkeys entry (mem_cons_of_mem _ hentry)
      unfold collectBuffer
      simp only
      split
      next => exact hcoll.insert fun hkey => absurd hkey hsame
      next => exact hcoll

lemma get?_collect_of_buffer (hbufs : ws.BuffersNormal)
    (hnorm : path.normalize = path) (hbuf : ws.buffers.get? path = some text)
    (hroot : path.startsWith root)
    (hdial : (ws.settings.dialectFor? path).isSome) (disk : Disk) :
    (ws.collect disk root).1.tables.get? path = some (ws.parse path text) := by
  unfold collect
  apply get?_foldl_collectBuffer hnorm hroot hdial hbuf hbufs
  apply CollectsOnly.foldl_collectFile hnorm hbuf
  · exact fun file hfile => normalize_of_mem_sourceFiles hfile
  · intro table htable
    simp [TableMap.get?] at htable

end OpenBuffer

end Workspace

end BslInsight
