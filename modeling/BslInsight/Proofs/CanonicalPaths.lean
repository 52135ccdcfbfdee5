import BslInsight.Proofs.WorkspaceSteps
import Mathlib.Logic.Function.Iterate

/-!
# Canonical paths

A normalised path has no dots, and a parent at most where it begins.  The paths of this shape are
the ones that normalisation leaves as they are.  So what a workspace keeps under a path is found
again however often the path is normalised in between.
-/

namespace BslInsight

open List

variable {components : List Component} {first second : Path}

namespace Path

lemma IsReduced.current_not_mem (hreduced : IsReduced components) : .current ∉ components := by
  obtain ⟨front, hfront, names⟩ := hreduced
  have hkept : ∀ front ∈ keptFronts, .current ∉ front := by decide
  simp [hkept front hfront]

/-- No parent stands behind a name, however far. -/
lemma IsReduced.not_sublist (hreduced : IsReduced components) (name : FileName) :
    ¬ [.name name, .parent] <+ components := by
  obtain ⟨front, hfront, names⟩ := hreduced
  have hnames : ¬ [.name name, .parent] <+ names.map Component.name := by
    intro hsub
    have hparent : .parent ∈ names.map Component.name := hsub.subset (by simp)
    simp at hparent
  simp only [keptFronts, mem_cons, not_mem_nil, or_false] at hfront
  rcases hfront with rfl | rfl | rfl | rfl <;> simpa [sublist_cons_iff] using hnames

lemma normalize_same_iff (path : Path) : path.normalize.same path ↔ IsReduced path.components := by
  rw [same_iff]
  constructor
  · intro hcomps
    rw [← hcomps]
    exact path.isReduced_normalize
  · intro hreduced
    rw [components_normalize, hreduced.normalizeComponents_eq]

lemma normalize_iterate (path : Path) (times : Nat) :
    (normalize^[times] path).normalize = path.normalize := by
  induction times with
  | zero => rfl
  | succ times ih => rw [Function.iterate_succ_apply', normalize_normalize, ih]

end Path

namespace Workspace

variable (hpaths : first.normalize = second.normalize) (ws : Workspace) (text : String)
include hpaths

lemma table?_updateFile :
    (ws.updateFile first text).2.table? second = some (ws.updateFile first text).1 := by
  rw [table?, ← hpaths, (ws.isEdit_updateFile first text).get?, if_pos first.normalize.same_self]
  rfl

lemma bufferText?_openBuffer : (ws.openBuffer first text).bufferText? second = some text := by
  rw [bufferText?, openBuffer, PathMap.get?_insert, hpaths, if_pos second.normalize.same_self]

end Workspace

theorem Path.normalize_canonical (path : Path) :
    path.normalize.normalize = path.normalize ∧
      .current ∉ path.normalize.components ∧
      (∀ name, ¬ [.name name, .parent] <+ path.normalize.components) ∧
      (path.normalize.same path ↔ IsReduced path.components) ∧
      ∀ (workspace : Workspace) (text : String) (given asked : Nat),
        let updated := workspace.updateFile (normalize^[given] path) text
        let opened := workspace.openBuffer (normalize^[given] path) text
        updated.2.table? (normalize^[asked] path) = some updated.1 ∧
          opened.bufferText? (normalize^[asked] path) = some text := by
  have hreduced := path.isReduced_normalize
  refine ⟨path.normalize_normalize, hreduced.current_not_mem, hreduced.not_sublist,
    path.normalize_same_iff, ?_⟩
  intro workspace text given asked
  have hpaths : (normalize^[given] path).normalize = (normalize^[asked] path).normalize := by
    rw [normalize_iterate, normalize_iterate]
  exact ⟨workspace.table?_updateFile hpaths text, workspace.bufferText?_openBuffer hpaths text⟩

end BslInsight
