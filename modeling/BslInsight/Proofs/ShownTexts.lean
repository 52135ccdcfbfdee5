import BslInsight.Proofs.RebuildCollection
import BslInsight.Proofs.WorkspaceRun

/-!
# Texts that stay shown

A run shows a text of a path if its table is published and no rebuild can change this by
committing: the path was edited since the rebuild began, it has collected the table of the same
text, or it has collected nothing yet and will find the text in the open buffer.
-/

namespace BslInsight

open List

def WorkspaceStep.keepsBuffers : WorkspaceStep → Bool
  | .openBuffer _ _ | .closeBuffer _ => false
  | _ => true

namespace WorkspaceRun

def Shows (run : WorkspaceRun) (path : Path) (text : String) : Prop :=
  run.workspace.snapshot.get? path = some (run.workspace.parse path text) ∧
    ∀ rebuild, run.rebuild? run.workspace.generation = some rebuild →
      run.workspace.EditedSince rebuild.ticket.startEdits path ∨
        ∀ tables, rebuild.tables? = some tables →
          tables.get? path = some (run.workspace.parse path text)

variable {run : WorkspaceRun} {path : Path} {text : String}

lemma shows_update (hrun : run.Sound) (hnorm : path.normalize = path) :
    (run.perform (.update path text)).Shows path text := by
  have hedit := Workspace.isEdit_updateFile run.workspace path text
  rw [hnorm] at hedit
  have hparse := Workspace.parse_congr hedit.settings
  constructor
  · change (run.workspace.updateFile path text).2.snapshot.get? path =
      some ((run.workspace.updateFile path text).2.parse path text)
    rw [hedit.get?, hparse, Path.same_self, if_pos rfl]
  · intro rebuild hreb
    have hstarted := (hrun.rebuilds rebuild (mem_of_rebuild?_eq_some hreb).1).started
    left
    exact (hedit.editedSince path _ hstarted).mpr (.inl (Path.same_self path))

section

variable (hshows : run.Shows path text)
include hshows

lemma Shows.afterEdit (hrun : run.Sound)
    {workspace : Workspace} {edited : Path} {effect : Option ModuleTable}
    (hedit : Workspace.IsEdit run.workspace workspace edited effect)
    (hoth : edited.same path = false) (disk : Disk) (history : WorkspaceHistory) :
    ({ run with workspace, disk, history } : WorkspaceRun).Shows path text := by
  have hparse := Workspace.parse_congr hedit.settings
  constructor
  · simp only [hedit.get?, hoth, hparse]
    exact hshows.1
  · simp only [hedit.generation, hparse]
    intro rebuild hreb
    have hstarted := (hrun.rebuilds rebuild (mem_of_rebuild?_eq_some hreb).1).started
    rw [hedit.editedSince path _ hstarted]
    exact (hshows.2 rebuild hreb).imp_left Or.inr

lemma Shows.afterBegin (root : Path) : (run.perform (.beginRebuild root)).Shows path text := by
  refine ⟨hshows.1, ?_⟩
  intro rebuild hreb
  right
  have hnew : rebuild = ⟨⟨run.workspace.generation + 1, run.workspace.edits⟩, root, none⟩ := by
    simpa [perform, beginRebuild, rebuild?, Workspace.beginRebuild] using hreb.symm
  intro tables htabs
  rw [hnew] at htabs
  cases htabs

lemma Shows.afterCollect (hrun : run.Sound)
    (hbufs : run.workspace.BuffersNormal) (hnorm : path.normalize = path)
    (hbuf : run.workspace.buffers.get? path = some text)
    (hdial : (run.workspace.settings.dialectFor? path).isSome)
    (hroots : ∀ generation root, .began generation root ∈ run.history → path.startsWith root)
    (generation : Nat) : (run.perform (.collectTables generation)).Shows path text := by
  rw [perform]
  rcases run.collectTables_cases generation with
    hsame | ⟨ticket, root, hreb, hcollect⟩
  · rw [hsame]
    exact hshows
  obtain ⟨hmem, htick⟩ := mem_of_rebuild?_eq_some hreb
  have hroot := hroots _ root (hrun.rebuilds _ hmem).recorded
  rw [hcollect]
  refine ⟨hshows.1, ?_⟩
  intro found hfound
  by_cases hcur : ticket.generation = run.workspace.generation
  · right
    have hnew : found.tables? = some (run.workspace.collect run.disk root).1.tables := by
      simp only [rebuild?, find?_cons, hcur, beq_self_eq_true, Option.some.injEq] at hfound
      rw [← hfound]
    intro tables htabs
    rw [hnew, Option.some.injEq] at htabs
    rw [← htabs]
    exact Workspace.get?_collect_of_buffer hbufs hnorm hbuf hroot hdial run.disk
  · apply hshows.2 found
    simp only [rebuild?, find?_cons] at hfound
    rw [beq_eq_false_iff_ne.mpr hcur] at hfound
    simp only at htick
    simpa [find?_otherRebuilds, ← htick, hcur] using hfound

lemma Shows.afterCommit (generation : Nat) :
    (run.perform (.commitRebuild generation)).Shows path text := by
  rw [perform]
  rcases run.commitRebuild_cases generation with
    hsame | ⟨ticket, root, tables, hreb, hended⟩
  · rw [hsame]
    exact hshows
  have htick := (mem_of_rebuild?_eq_some hreb).2
  rcases hended with ⟨hcur, hcmt⟩ | ⟨hsup, hcmt⟩
  · have hgen := hcur.trans htick.symm
    have hstgs : (run.workspace.commit ticket tables).2.settings =
        run.workspace.settings := Workspace.commit_settings tables
    have hparse := Workspace.parse_congr hstgs
    rw [hcmt]
    constructor
    · simp only [hparse]
      by_cases hedited : run.workspace.EditedSince ticket.startEdits path
      · rw [Workspace.get?_commit_of_editedSince hgen tables hedited]
        exact hshows.1
      · rw [Workspace.get?_commit_of_not_editedSince hgen tables hedited]
        have hcoll := (hshows.2 _ (hcur.symm ▸ hreb)).resolve_left hedited
        exact hcoll tables rfl
    · intro found hfound
      rw [Workspace.commit_generation, rebuild?, find?_otherRebuilds, if_pos hcur.symm] at hfound
      cases hfound
  · rw [hcmt]
    refine ⟨hshows.1, ?_⟩
    intro found hfound
    rw [rebuild?, find?_otherRebuilds, if_neg (Ne.symm hsup)] at hfound
    exact hshows.2 found hfound

end

/-! ## What steps keep -/

lemma commitRebuild_workspace (run : WorkspaceRun) (generation : Nat) :
    (run.commitRebuild generation).workspace = run.workspace ∨
      ∃ ticket tables, (run.commitRebuild generation).workspace =
        (run.workspace.commit ticket tables).2 := by
  rcases run.commitRebuild_cases generation with
    hsame | ⟨ticket, root, tables, -, ⟨-, hcmt⟩ | ⟨-, hcmt⟩⟩
  · exact .inl (by rw [hsame])
  · exact .inr ⟨ticket, tables, by rw [hcmt]⟩
  · exact .inl (by rw [hcmt])

lemma perform_keeps (run : WorkspaceRun) (step : WorkspaceStep) :
    (run.perform step).workspace.settings = run.workspace.settings ∧ (step.keepsBuffers →
        (run.perform step).workspace.buffers = run.workspace.buffers) := by
  cases step with
  | update | beginRebuild | changeDisk => exact ⟨rfl, fun _ => rfl⟩
  | openBuffer | closeBuffer => exact ⟨rfl, by simp [WorkspaceStep.keepsBuffers]⟩
  | evict path =>
    have hedit := Workspace.isEdit_evictTable run.workspace path
    exact ⟨hedit.settings, fun _ => hedit.buffers⟩
  | collectTables generation => simp [perform]
  | commitRebuild generation =>
    rw [perform]
    rcases run.commitRebuild_workspace generation with
      hsame | ⟨ticket, tables, hcmt⟩
    · simp [hsame]
    · rw [hcmt, Workspace.commit_settings, Workspace.commit_buffers]
      exact ⟨rfl, fun _ => rfl⟩

@[simp] lemma perform_settings (run : WorkspaceRun) (step : WorkspaceStep) :
    (run.perform step).workspace.settings = run.workspace.settings :=
  (run.perform_keeps step).1

lemma perform_buffers (run : WorkspaceRun) {step : WorkspaceStep} (hstep : step.keepsBuffers) :
    (run.perform step).workspace.buffers = run.workspace.buffers :=
  (run.perform_keeps step).2 hstep

lemma buffersNormal_perform (hbufs : run.workspace.BuffersNormal) (step : WorkspaceStep) :
    (run.perform step).workspace.BuffersNormal := by
  have hkept (hstep : step.keepsBuffers) : (run.perform step).workspace.BuffersNormal := by
    unfold Workspace.BuffersNormal
    rw [run.perform_buffers hstep]
    exact hbufs
  cases step with
  | openBuffer path text => exact hbufs.openBuffer path text
  | closeBuffer path => exact hbufs.closeBuffer path
  | _ => exact hkept rfl

lemma mem_history_perform {record : WorkspaceRecord} (hrec : record ∈ run.history)
    (step : WorkspaceStep) : record ∈ (run.perform step).history := by
  cases step with
  | update path text | evict path | beginRebuild root => exact mem_cons_of_mem _ hrec
  | openBuffer path text | closeBuffer path | changeDisk disk => exact hrec
  | collectTables generation =>
    rw [perform]
    rcases run.collectTables_cases generation with
      hsame | ⟨ticket, root, -, hcollect⟩
    · rwa [hsame]
    · rw [hcollect]
      exact mem_cons_of_mem _ hrec
  | commitRebuild generation =>
    rw [perform]
    rcases run.commitRebuild_cases generation with
      hsame | ⟨ticket, root, tables, -, ⟨-, hcmt⟩ | ⟨-, hcmt⟩⟩
    · rwa [hsame]
    · rw [hcmt]
      exact mem_cons_of_mem _ hrec
    · rw [hcmt]
      exact mem_cons_of_mem _ hrec

end WorkspaceRun

end BslInsight
