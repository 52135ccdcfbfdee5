import BslInsight.Proofs.WorkerRun

/-!
# No text of an editor is lost

Three places hold a text of an open file: its buffer, the change that waits to be parsed, and the
published table.  The proof follows what they hold for one path.  The invariant is that the
actions left to do will lead to a settled view, in which the last text of the path is shown or
waits.
-/

namespace BslInsight

open List

variable {action : WorkerAction} {file : Path} {time : Nat} {text : String}
  {command : WorkerCommand} {event : WorkerEvent} {events : List WorkerEvent}

def WorkerCommand.path? : WorkerCommand → Option Path
  | .opened path _ => some path
  | .changed path _ => some path
  | .saved path _ => some path
  | .closed path => some path
  | .deleted path => some path
  | _ => none

/-- What a command makes of the buffer of its file, if it says so itself. -/
def WorkerCommand.buffer? : WorkerCommand → Option (Option String)
  | .opened _ text => some (some text)
  | .changed _ text => some (some text)
  | .saved _ (some text) => some (some text)
  | .closed _ => some none
  | .deleted _ => some none
  | _ => none

def WorkerEvent.IsNormal : WorkerEvent → Prop
  | .receive command => ∀ path ∈ command.path?, path.normalize = path
  | _ => True

def WorkerAction.path? : WorkerAction → Option Path
  | .cancel path => some path
  | .setBuffer path _ => some path
  | .dropBuffer path => some path
  | .wait path _ => some path
  | .parse path _ => some path
  | .reload path => some path
  | .evict path => some path
  | _ => none

def WorkerAction.IsNormal (action : WorkerAction) : Prop :=
  ∀ path ∈ action.path?, path.normalize = path

lemma WorkerAction.isNormal_of_no_path (hpath : action.path? = none) : action.IsNormal := by
  simp [IsNormal, hpath]

/-- The text that the last command about the buffer of a path left there; the
commands are given newest first. -/
def lastText? (path : Path) (told : List WorkerCommand) : Option String :=
  (told.findSome? fun command =>
    if command.path?.any (·.same path) then command.buffer? else none).join

/-- What is known of a path: its buffer, the text that waits, and whether the
text of the buffer is shown. -/
structure PathView where
  buffer? : Option String
  waiting? : Option String
  shown : Bool

def WorkerAction.effect (view : PathView) : WorkerAction → PathView
  | .cancel _ => { view with waiting? := none }
  | .setBuffer _ text => { view with buffer? := some text, shown := false }
  | .dropBuffer _ => { view with buffer? := none, shown := false }
  | .wait _ text => { view with waiting? := some text }
  | .parse _ text => { view with shown := view.buffer? == some text }
  | .reload _ => { view with shown := false }
  | .evict _ => { view with shown := false }
  | _ => view

namespace PathView

def after (path : Path) (view : PathView) (action : WorkerAction) : PathView :=
  if action.path?.any (·.same path) then action.effect view else view

structure Settled (view : PathView) (text? : Option String) : Prop where
  buffer : view.buffer? = text?
  waiting : ∀ text, view.waiting? = some text → text? = some text
  shown : view.waiting? = none → text?.isSome = true → view.shown = true

lemma settled_none : PathView.Settled ⟨none, none, false⟩ none := ⟨rfl, by simp, by simp⟩

end PathView

namespace WorkerRun

structure Views (run : WorkerRun) (path : Path) (view : PathView) : Prop where
  buffer : run.workspace.buffers.get? path = view.buffer?
  waiting : (run.pending.get? path).map (·.text) = view.waiting?
  shown : view.shown = true → ∃ text, view.buffer? = some text ∧ run.toWorkspaceRun.Shows path text

structure Orderly (run : WorkerRun) : Prop where
  sound : run.toWorkspaceRun.Sound
  buffers : run.workspace.BuffersNormal
  changes : ∀ entry ∈ run.pending, entry.1.normalize = entry.1
  distinct : run.HasDistinctChanges
  due : ∀ entry ∈ run.pending, entry.2.due ≤ run.now + run.workspace.settings.debounceMs
  todo : ∀ action ∈ run.todo, action.IsNormal

def Settles (run : WorkerRun) (path : Path) : Prop := .stop ∈ run.todo ∨
    ∃ view, run.Views path view ∧ (run.todo.foldl (PathView.after path) view).Settled
        (lastText? path run.told) ∧
      (.reply ∈ run.todo → (run.todo.foldl (PathView.after path) view).waiting? = none)

variable {run : WorkerRun} {path : Path} {view : PathView}

/-! ## Orderly runs -/

lemma initial_orderly (settings : Settings) (cache? : Option TableCache) (disk : Disk) :
    (initial settings cache? disk).Orderly where
  sound := WorkspaceRun.initial_sound settings cache? disk
  buffers := by simp [initial, WorkspaceRun.initial, Workspace.BuffersNormal]
  changes := by simp [initial]
  distinct := by simp [HasDistinctChanges, initial]
  due := by simp [initial]
  todo := by simp [initial]

section

variable (hrun : run.Orderly)
include hrun

lemma Orderly.withPending {pending : PathMap PendingChange}
    (hsublist : pending.Sublist run.pending) : ({ run with pending } : WorkerRun).Orderly where
  sound := hrun.sound
  buffers := hrun.buffers
  changes := fun entry hentry => hrun.changes entry (hsublist.subset hentry)
  distinct := Pairwise.sublist hsublist hrun.distinct
  due := fun entry hentry => hrun.due entry (hsublist.subset hentry)
  todo := hrun.todo

lemma Orderly.step (step : WorkspaceStep) : (run.step step).Orderly where
  sound := hrun.sound.perform step
  buffers := WorkspaceRun.buffersNormal_perform hrun.buffers step
  changes := hrun.changes
  distinct := hrun.distinct
  due := fun entry hentry => by
    change _ ≤ run.now + (run.toWorkspaceRun.perform step).workspace.settings.debounceMs
    rw [WorkspaceRun.perform_settings]
    exact hrun.due entry hentry
  todo := hrun.todo

lemma Orderly.wait (hfile : file.normalize = file) (text : String) :
    (run.carryOut (.wait file text)).Orderly where
  sound := hrun.sound
  buffers := hrun.buffers
  changes := fun entry hentry => by
    rcases PathMap.mem_insert.mp hentry with ⟨hold, -⟩ | rfl
    · exact hrun.changes entry hold
    · exact hfile
  distinct := PathMap.pairwise_insert hrun.distinct file _
  due := fun entry hentry => by
    rcases PathMap.mem_insert.mp hentry with ⟨hold, -⟩ | rfl
    · exact hrun.due entry hold
    · exact Nat.le_refl _
  todo := hrun.todo

lemma Orderly.carryOut (hac : action.IsNormal) : (run.carryOut action).Orderly := by
  cases action with
  | cancel file => exact hrun.withPending filter_sublist
  | setBuffer | dropBuffer | parse | evict => exact hrun.step _
  | wait file text => exact hrun.wait (hac file rfl) text
  | reload file =>
    simp only [WorkerRun.carryOut]
    split <;> exact hrun.step _
  | spawn root => exact { hrun with }
  | reply => exact hrun
  | stop => exact { hrun.withPending (nil_sublist _) with }

end

/-! ## Views of a path -/

section

variable (hview : run.Views path view)
include hview

lemma Views.step {step : WorkspaceStep} (hstep : step.keepsBuffers) {shown : Bool}
    (hshown : shown → ∃ text, view.buffer? = some text ∧
      (run.toWorkspaceRun.perform step).Shows path text) :
    (run.step step).Views path { view with shown } where
  buffer := by
    change (run.toWorkspaceRun.perform step).workspace.buffers.get? path = _
    rw [WorkspaceRun.perform_buffers _ hstep]
    exact hview.buffer
  waiting := hview.waiting
  shown := hshown

lemma Views.stepShowing {step : WorkspaceStep} (hstep : step.keepsBuffers)
    (hshows : ∀ text, view.buffer? = some text → run.toWorkspaceRun.Shows path text →
      (run.toWorkspaceRun.perform step).Shows path text) : (run.step step).Views path view := by
  refine hview.step hstep fun hshown => ?_
  obtain ⟨text, hbuf, htext⟩ := hview.shown hshown
  exact ⟨text, hbuf, hshows text hbuf htext⟩

variable (hrun : run.Orderly)
include hrun

lemma Views.updateOther
    (hfile : file.normalize = file) (hoth : file.same path = false) (text : String) :
    (run.step (.update file text)).Views path view := by
  refine hview.stepShowing rfl fun shown _ hshows => ?_
  have hedit := Workspace.isEdit_updateFile run.workspace file text
  rw [hfile] at hedit
  exact hshows.afterEdit hrun.sound hedit hoth run.disk _

lemma Views.evictOther (hfile : file.normalize = file) (hoth : file.same path = false) :
    (run.step (.evict file)).Views path view := by
  refine hview.stepShowing rfl fun shown _ hshows => ?_
  have hedit := Workspace.isEdit_evictTable run.workspace file
  rw [hfile] at hedit
  exact hshows.afterEdit hrun.sound hedit hoth _ _

lemma Views.carryOut
    (hnorm : path.normalize = path) (hac : action.IsNormal) (hstop : action ≠ .stop) :
    (run.carryOut action).Views path (view.after path action) := by
  have hevict {file : Path} (hfile : file.normalize = file) : (run.step (.evict file)).Views path
        (if file.same path then { view with shown := false } else view) := by
    split
    next => exact hview.step rfl (by simp)
    next hoth => exact hview.evictOther hrun hfile (eq_false_of_ne_true hoth)
  cases action with
  | cancel file | wait file text =>
    change Views _ path (if file.same path then _ else _)
    split
    next hsame =>
      refine ⟨hview.buffer, ?_, hview.shown⟩
      simp [WorkerRun.carryOut, WorkerAction.effect, PathMap.get?_erase, PathMap.get?_insert, hsame]
    next hoth =>
      refine ⟨hview.buffer, ?_, hview.shown⟩
      simp [WorkerRun.carryOut, PathMap.get?_erase, PathMap.get?_insert, hoth, hview.waiting]
  | setBuffer file text | dropBuffer file =>
    have hfile := hac file rfl
    change Views _ path (if file.same path then _ else _)
    split
    next hsame =>
      refine ⟨?_, hview.waiting, by simp [WorkerAction.effect]⟩
      simp [WorkerRun.carryOut, WorkerRun.step, WorkspaceRun.perform, Workspace.openBuffer,
        Workspace.closeBuffer, WorkerAction.effect, PathMap.get?_erase, PathMap.get?_insert, hfile,
        hsame]
    next hoth =>
      refine ⟨?_, hview.waiting, hview.shown⟩
      simp [WorkerRun.carryOut, WorkerRun.step, WorkspaceRun.perform, Workspace.openBuffer,
        Workspace.closeBuffer, PathMap.get?_erase, PathMap.get?_insert, hfile, hoth, hview.buffer]
  | parse file text =>
    change Views _ path (if file.same path then _ else _)
    split
    next hsame =>
      obtain rfl := Path.eq_of_same_of_normalize hsame (hac file rfl) hnorm
      refine hview.step rfl fun hshown => ⟨text, by simpa using hshown, ?_⟩
      exact WorkspaceRun.shows_update hrun.sound hnorm
    next hoth => exact hview.updateOther hrun (hac file rfl) (eq_false_of_ne_true hoth) text
  | reload file =>
    simp only [WorkerRun.carryOut]
    split
    · change Views _ path (if file.same path then _ else _)
      split
      next => exact hview.step rfl (by simp)
      next hoth => exact hview.updateOther hrun (hac file rfl) (eq_false_of_ne_true hoth) _
    · exact hevict (hac file rfl)
  | evict file => exact hevict (hac file rfl)
  | spawn root => exact { hview with }
  | reply => exact hview
  | stop => exact absurd rfl hstop

/-! ## Changes that are due -/

lemma Views.waiting_of_mem {entry : Path × PendingChange} (hentry : entry ∈ run.pending)
    (hsame : entry.1.same path) : view.waiting? = some entry.2.text := by
  rw [← hview.waiting]
  cases hget : run.pending.get? path with
  | none =>
    rw [PathMap.get?, Option.map_eq_none_iff] at hget
    exact absurd hsame (find?_eq_none.mp hget entry hentry)
  | some change =>
    obtain ⟨key, hkey, hpath⟩ := PathMap.mem_of_get?_eq_some hget
    have hboth : entry.1.same key := by
      rw [Path.same_congr_left hsame, Path.same_comm]
      exact hpath
    rw [hrun.distinct.eq_of_same hentry hkey hboth]
    rfl

end

lemma path?_of_mem_dueActions (hac : action ∈ run.dueActions time) :
    ∃ entry ∈ run.pending, entry.2.due ≤ time ∧ action.path? = some entry.1 := by
  obtain ⟨entry, hentry, hdue, rfl | rfl⟩ := mem_dueActions.mp hac
  · exact ⟨entry, hentry, hdue, rfl⟩
  · exact ⟨entry, hentry, hdue, rfl⟩

lemma foldl_after_of_others {actions : List WorkerAction}
    (hoths : ∀ action ∈ actions, ∀ file ∈ action.path?,
      file.same path = false) : actions.foldl (PathView.after path) view = view := by
  induction actions with
  | nil => rfl
  | cons action actions ih =>
    have hone : view.after path action = view := by
      have hac := hoths action mem_cons_self
      unfold PathView.after
      cases hpath : action.path? with
      | none => rfl
      | some file => simp [hac file hpath]
    rw [foldl_cons, hone]
    exact ih fun other hoth => hoths other (mem_cons_of_mem _ hoth)

lemma foldl_after_due {entries : PathMap PendingChange}
    (htext : ∀ entry ∈ entries, entry.1.same path → entry.2.text = text)
    (hbuf : view.buffer? = some text) :
    (entries.flatMap fun entry => [WorkerAction.cancel entry.1, .parse entry.1 entry.2.text]).foldl
      (PathView.after path) view =
      if entries.any (·.1.same path) then ⟨some text, none, true⟩ else view := by
  induction entries generalizing view with
  | nil => rfl
  | cons entry entries ih =>
    have htail : ∀ other ∈ entries, other.1.same path → other.2.text = text :=
      fun other hoth => htext other (mem_cons_of_mem _ hoth)
    rw [flatMap_cons, foldl_append, any_cons]
    cases hsame : entry.1.same path with
    | true =>
      have hone : [WorkerAction.cancel entry.1,
          .parse entry.1 entry.2.text].foldl (PathView.after path) view =
            ⟨some text, none, true⟩ := by
        simp [PathView.after, WorkerAction.path?, WorkerAction.effect, hsame,
          hbuf, htext entry mem_cons_self hsame]
      rw [hone, ih htail rfl]
      simp
    | false =>
      have hone : [WorkerAction.cancel entry.1,
          .parse entry.1 entry.2.text].foldl (PathView.after path) view =
            view :=
        foldl_after_of_others (by simp [WorkerAction.path?, hsame])
      rw [hone, ih htail hbuf, Bool.false_or]

/-- Applying what is due keeps a view settled, and nothing waits afterwards if
all changes are due. -/
lemma Views.settled_dueActions
    (hview : run.Views path view) (hrun : run.Orderly) {text? : Option String}
    (hset : view.Settled text?) (time : Nat) :
    ((run.dueActions time).foldl (PathView.after path) view).Settled text? ∧
      ((∀ entry ∈ run.pending, entry.2.due ≤ time) →
        ((run.dueActions time).foldl (PathView.after path) view).waiting? = none) := by
  by_cases hdue : (run.pending.filter fun entry => entry.2.due ≤ time).any (·.1.same path)
  · obtain ⟨entry, hentry, hsame⟩ := any_eq_true.mp hdue
    have hwait := hview.waiting_of_mem hrun (mem_filter.mp hentry).1 hsame
    have htext := hset.waiting _ hwait
    have hall : ∀ other ∈ run.pending.filter fun entry => entry.2.due ≤ time,
        other.1.same path → other.2.text = entry.2.text := by
      intro other hoth hsame'
      have hother' := hview.waiting_of_mem hrun (mem_filter.mp hoth).1 hsame'
      rw [hwait] at hother'
      exact (Option.some.inj hother').symm
    rw [dueActions, foldl_after_due hall (hset.buffer.trans htext), if_pos hdue]
    exact ⟨⟨htext.symm, by simp, fun _ _ => rfl⟩, fun _ => rfl⟩
  · have hoths : ∀ entry ∈ run.pending, entry.2.due ≤ time → entry.1.same path = false := by
      simpa using hdue
    rw [foldl_after_of_others]
    · refine ⟨hset, fun hall => ?_⟩
      rw [← hview.waiting, Option.map_eq_none_iff]
      by_contra hsome
      obtain ⟨change, hchange⟩ := Option.ne_none_iff_exists'.mp hsome
      obtain ⟨key, hkey, hsame⟩ := PathMap.mem_of_get?_eq_some hchange
      have hoth := hoths _ hkey (hall _ hkey)
      rw [hsame] at hoth
      cases hoth
    · intro action hac file hfile
      obtain ⟨entry, hentry, htime, hpath⟩ := path?_of_mem_dueActions hac
      rw [hpath, Option.mem_some_iff] at hfile
      exact hfile ▸ hoths entry hentry htime

/-! ## Commands -/

lemma lastText?_cons (command : WorkerCommand) (told : List WorkerCommand) :
    lastText? path (command :: told) = if command.path?.any (·.same path) then
        command.buffer?.getD (lastText? path told)
      else lastText? path told := by
  unfold lastText?
  rw [findSome?_cons]
  cases command.path?.any (·.same path) with
  | false => rfl
  | true => cases command.buffer? <;> rfl

lemma path?_of_mem_program (hfile : command.path? = some file) :
    ∀ action ∈ run.program command, action.path? = some file := by
  cases command with
  | opened path text | changed path text | closed path | deleted path =>
    obtain rfl := Option.some.inj hfile
    simp [program, WorkerAction.path?]
  | saved path text? =>
    obtain rfl := Option.some.inj hfile
    rw [program]
    split
    · simp [WorkerAction.path?]
    · simp [WorkerAction.path?]
  | _ => cases hfile

lemma Orderly.normal_of_mem_dueActions (hrun : run.Orderly)
    (hac : action ∈ run.dueActions time) : action.IsNormal := by
  obtain ⟨entry, hentry, -, hpath⟩ := path?_of_mem_dueActions hac
  intro file hfile
  rw [hpath, Option.mem_some_iff] at hfile
  exact hfile ▸ hrun.changes entry hentry

lemma Orderly.normal_of_mem_program (hrun : run.Orderly)
    (hcmd : ∀ file ∈ command.path?, file.normalize = file)
    (hac : action ∈ run.program command) : action.IsNormal := by
  cases hpath : command.path? with
  | some file =>
    intro other hoth
    rw [path?_of_mem_program hpath action hac, Option.mem_some_iff] at hoth
    exact hoth ▸ hcmd file hpath
  | none =>
    cases command with
    | rebuild root? =>
      simp only [program] at hac
      split at hac
      next =>
        rw [mem_singleton.mp hac]
        exact WorkerAction.isNormal_of_no_path rfl
      next => cases hac
    | flush =>
      rcases mem_append.mp hac with hdue | hreply
      · exact hrun.normal_of_mem_dueActions hdue
      · rw [mem_singleton.mp hreply]
        exact WorkerAction.isNormal_of_no_path rfl
    | shutdown =>
      rw [mem_singleton.mp hac]
      exact WorkerAction.isNormal_of_no_path rfl
    | _ => cases hpath

lemma Views.savedText?_eq (hview : run.Views path view) (hnorm : path.normalize = path)
    {last? : Option String} (hset : view.Settled last?) (text? : Option String) :
    run.toWorker.savedText? path text? = (text? <|> last?) := by
  have hbuf : run.workspace.bufferText? path = last? := by
    rw [Workspace.bufferText?, hnorm, hview.buffer, hset.buffer]
  unfold Worker.savedText?
  simp only [toWorker, hview.waiting, hbuf]
  congr 1
  funext _
  cases hwait : view.waiting? with
  | none => rfl
  | some text => exact (hset.waiting text hwait).symm

lemma reply_not_mem_program (hfile : command.path? = some file) : .reply ∉ run.program command := by
  intro hreply
  cases path?_of_mem_program hfile _ hreply

lemma foldl_after_parse (path : Path) (view : PathView) (text : String) :
    [WorkerAction.cancel path, .setBuffer path text, .parse path text].foldl
      (PathView.after path) view = ⟨some text, none, true⟩ := by
  simp [PathView.after, WorkerAction.path?, WorkerAction.effect]

lemma Views.settled_program_self (hview : run.Views path view) (hnorm : path.normalize = path)
    (hset : view.Settled (lastText? path run.told)) (hself : command.path? = some path) :
    ((run.program command).foldl (PathView.after path) view).Settled
      (lastText? path (command :: run.told)) := by
  have hlast : lastText? path (command :: run.told) =
      command.buffer?.getD (lastText? path run.told) := by
    rw [lastText?_cons, hself, Option.any_some, Path.same_self, if_pos rfl]
  rw [hlast]
  cases command with
  | opened file text =>
    obtain rfl := Option.some.inj hself
    rw [program, foldl_after_parse]
    exact ⟨rfl, by simp, fun _ _ => rfl⟩
  | changed file text =>
    obtain rfl := Option.some.inj hself
    have hwaits : (run.program (.changed file text)).foldl
        (PathView.after file) view = ⟨some text, some text, false⟩ := by
      simp [program, PathView.after, WorkerAction.path?, WorkerAction.effect]
    rw [hwaits]
    exact ⟨rfl, fun _ htext => htext, by simp⟩
  | saved file text? =>
    obtain rfl := Option.some.inj hself
    have hsaved := hview.savedText?_eq hnorm hset text?
    have hgiven : (WorkerCommand.saved file text?).buffer?.getD
        (lastText? file run.told) = (text? <|> lastText? file run.told) := by
      cases text? <;> rfl
    rw [program, hgiven, ← hsaved]
    cases htext : run.toWorker.savedText? file text? with
    | some text =>
      simp only [foldl_after_parse]
      exact ⟨rfl, by simp, fun _ _ => rfl⟩
    | none =>
      have hnone : view.buffer? = none := by
        rw [hset.buffer]
        rw [htext] at hsaved
        cases text? with
        | none => exact hsaved.symm
        | some text => cases hsaved
      have hreloads : [WorkerAction.cancel file, .reload file].foldl
          (PathView.after file) view = ⟨none, none, false⟩ := by
        simp [PathView.after, WorkerAction.path?, WorkerAction.effect, hnone]
      simp only [hreloads]
      exact PathView.settled_none
  | closed file | deleted file =>
    obtain rfl := Option.some.inj hself
    simpa [program, PathView.after, WorkerAction.path?, WorkerAction.effect, WorkerCommand.buffer?]
      using PathView.settled_none
  | _ => cases hself

/-- A command leads to a settled view, and a flush leaves nothing waiting if
all changes fall due within its horizon. -/
lemma Views.settled_program (hview : run.Views path view) (hrun : run.Orderly)
    (hnorm : path.normalize = path) (hset : view.Settled (lastText? path run.told))
    (hhor : run.workspace.settings.debounceMs ≤ flushHorizon)
    (hcmd : ∀ file ∈ command.path?, file.normalize = file) (hstop : command ≠ .shutdown) :
    ((run.program command).foldl (PathView.after path) view).Settled
        (lastText? path (command :: run.told)) ∧
      (.reply ∈ run.program command →
        ((run.program command).foldl (PathView.after path) view).waiting? = none) := by
  cases hpath : command.path? with
  | some file =>
    refine ⟨?_, fun hreply => absurd hreply (reply_not_mem_program hpath)⟩
    by_cases hsame : file.same path
    · have hself : file = path := Path.eq_of_same_of_normalize hsame (hcmd file hpath) hnorm
      exact hview.settled_program_self hnorm hset (hself ▸ hpath)
    · have hoth := eq_false_of_ne_true hsame
      rw [foldl_after_of_others, lastText?_cons, hpath, Option.any_some, hoth]
      · exact hset
      · intro action hac other hmem
        rw [path?_of_mem_program hpath action hac] at hmem
        exact Option.some.inj hmem ▸ hoth
  | none =>
    have hlast : lastText? path (command :: run.told) = lastText? path run.told := by
      rw [lastText?_cons, hpath, Option.any_none]
      rfl
    rw [hlast]
    cases command with
    | rebuild root? =>
      have hsilent : (run.program (.rebuild root?)).foldl (PathView.after path) view = view := by
        rw [program]
        split <;> rfl
      rw [hsilent]
      refine ⟨hset, fun hreply => ?_⟩
      rw [program] at hreply
      split at hreply
      · cases mem_singleton.mp hreply
      · cases hreply
    | flush =>
      obtain ⟨hdue, hempty⟩ := hview.settled_dueActions hrun hset (run.now + flushHorizon)
      have hreply : (run.program .flush).foldl (PathView.after path) view =
          (run.dueActions (run.now + flushHorizon)).foldl (PathView.after path) view := by
        rw [program, foldl_append]
        rfl
      rw [hreply]
      refine ⟨hdue, fun _ => hempty fun entry hentry => ?_⟩
      exact Nat.le_trans (hrun.due entry hentry) (Nat.add_le_add_left hhor run.now)
    | shutdown => exact absurd rfl hstop
    | _ => cases hpath

/-! ## Runs -/

lemma carryOut_toWorkspaceRun (run : WorkerRun) (action : WorkerAction) :
    (run.carryOut action).toWorkspaceRun = run.toWorkspaceRun ∨
      ∃ step, (run.carryOut action).toWorkspaceRun = run.toWorkspaceRun.perform step := by
  cases action with
  | setBuffer file text => exact .inr ⟨.openBuffer file text, rfl⟩
  | dropBuffer file => exact .inr ⟨.closeBuffer file, rfl⟩
  | parse file text => exact .inr ⟨.update file text, rfl⟩
  | reload file =>
    rw [WorkerRun.carryOut]
    split
    next text _ => exact .inr ⟨.update file text, rfl⟩
    next => exact .inr ⟨.evict file, rfl⟩
  | evict file => exact .inr ⟨.evict file, rfl⟩
  | _ => exact .inl rfl

lemma perform_toWorkspaceRun (run : WorkerRun) (event : WorkerEvent) :
    (run.perform event).toWorkspaceRun = run.toWorkspaceRun ∨
      ∃ step, (run.perform event).toWorkspaceRun = run.toWorkspaceRun.perform step := by
  cases event with
  | receive command | wake =>
    rw [perform]
    split <;> exact .inl rfl
  | act =>
    rw [perform]
    rcases run.act_cases with
      hsame | ⟨rest, -, hact⟩ | ⟨action, rest, -, -, hact⟩
    · exact .inl (by rw [hsame])
    · rw [hact]
      exact run.carryOut_toWorkspaceRun .stop
    · rw [hact]
      exact carryOut_toWorkspaceRun { run with todo := rest } action
  | tick milliseconds => exact .inl rfl
  | beginRebuild index =>
    rw [perform, beginRequested]
    split
    next => exact .inl rfl
    next root _ =>
      simp only
      split
      next => exact .inl rfl
      next normal _ => exact .inr ⟨.beginRebuild normal, rfl⟩
  | collectTables generation => exact .inr ⟨.collectTables generation, rfl⟩
  | commitRebuild generation => exact .inr ⟨.commitRebuild generation, rfl⟩
  | changeDisk disk => exact .inr ⟨.changeDisk disk, rfl⟩

lemma perform_settings (run : WorkerRun) (event : WorkerEvent) :
    (run.perform event).workspace.settings = run.workspace.settings := by
  rcases run.perform_toWorkspaceRun event with hsame | ⟨step, hstep⟩
  · rw [hsame]
  · rw [hstep, WorkspaceRun.perform_settings]

lemma mem_history_perform {record : WorkspaceRecord} (hrec : record ∈ run.history)
    (event : WorkerEvent) : record ∈ (run.perform event).history := by
  rcases run.perform_toWorkspaceRun event with hsame | ⟨step, hstep⟩
  · rwa [hsame]
  · rw [hstep]
    exact WorkspaceRun.mem_history_perform hrec step

lemma Orderly.perform (hrun : run.Orderly) (hevent : event.IsNormal) :
    (run.perform event).Orderly := by
  cases event with
  | receive command =>
    rw [WorkerRun.perform]
    split
    next =>
      exact { hrun with
        todo := fun action hac => hrun.normal_of_mem_program hevent hac }
    next => exact hrun
  | wake =>
    rw [WorkerRun.perform]
    split
    next =>
      exact { hrun with
        todo := fun action hac => hrun.normal_of_mem_dueActions hac }
    next => exact hrun
  | act =>
    rw [WorkerRun.perform]
    rcases run.act_cases with
      hsame | ⟨rest, -, hact⟩ | ⟨action, rest, htodo, -, hact⟩
    · rwa [hsame]
    · rw [hact]
      exact hrun.carryOut (WorkerAction.isNormal_of_no_path rfl)
    · have hrest : ({ run with todo := rest } : WorkerRun).Orderly := { hrun with
          todo := fun other hoth => hrun.todo other (htodo ▸ mem_cons_of_mem _ hoth) }
      rw [hact]
      exact hrest.carryOut (hrun.todo action (htodo ▸ mem_cons_self))
  | tick milliseconds =>
    exact { hrun with
      due := fun entry hentry =>
        Nat.le_trans (hrun.due entry hentry) (Nat.add_le_add_right (Nat.le_add_right _ _) _) }
  | beginRebuild index =>
    rw [WorkerRun.perform, beginRequested]
    split
    next => exact hrun
    next root _ =>
      simp only
      split
      next => exact { hrun with }
      next normal _ =>
        have hbegun : (run.step (.beginRebuild normal)).Orderly := hrun.step _
        exact { hbegun with }
  | collectTables generation | commitRebuild generation | changeDisk disk => exact hrun.step _

lemma Orderly.performAll (hrun : run.Orderly) (hevs : ∀ event ∈ events, event.IsNormal) :
    (run.performAll events).Orderly :=
  foldlRecOn events _ hrun fun _ hbef event hmem => hbef.perform (hevs event hmem)

section

variable (hstl : run.Settles path)
include hstl

lemma Settles.act (hrun : run.Orderly) (hnorm : path.normalize = path) : run.act.Settles path := by
  rcases run.act_cases with
    hsame | ⟨rest, htodo, hact⟩ | ⟨action, rest, htodo, hstop, hact⟩
  · rwa [hsame]
  · rw [hact]
    left
    change .stop ∈ run.todo
    rw [htodo]
    exact mem_cons_self
  · have hnext : run.act = { run.carryOut action with todo := rest, told := run.told } :=
      hact.trans (carryOut_with run action rest run.told)
    rw [hnext]
    unfold Settles at hstl
    rw [htodo] at hstl
    rcases hstl with hstopped | ⟨view, hview, hset, hreply⟩
    · exact .inl (mem_of_ne_of_mem hstop.symm hstopped)
    · right
      have hac := hrun.todo action (htodo ▸ mem_cons_self)
      have hafter := hview.carryOut hrun hnorm hac hstop
      refine ⟨view.after path action, { hafter with }, hset, ?_⟩
      exact fun hmem => hreply (mem_cons_of_mem _ hmem)

lemma Settles.withRequested (now : Nat) (requested : List Path) :
    ({ run with now, requested } : WorkerRun).Settles path := by
  rcases hstl with hstopped | ⟨view, hview, hset⟩
  · exact .inl hstopped
  · exact .inr ⟨view, { hview with }, hset⟩

lemma Settles.step {step : WorkspaceStep} (hstep : step.keepsBuffers)
    (hshows : ∀ text, run.workspace.buffers.get? path = some text →
      run.toWorkspaceRun.Shows path text →
        (run.toWorkspaceRun.perform step).Shows path text) : (run.step step).Settles path := by
  rcases hstl with hstopped | ⟨view, hview, hset, hreply⟩
  · exact .inl hstopped
  · refine .inr ⟨view, ?_, hset, hreply⟩
    refine hview.stepShowing hstep ?_
    intro text hbuf hbef
    exact hshows text (hview.buffer.trans hbuf) hbef

lemma Settles.idle (htodo : run.todo = []) :
    ∃ view, run.Views path view ∧ view.Settled (lastText? path run.told) := by
  unfold Settles at hstl
  rw [htodo] at hstl
  rcases hstl with hstopped | ⟨view, hview, hset, -⟩
  · cases hstopped
  · exact ⟨view, hview, hset⟩

lemma Settles.perform (hrun : run.Orderly) (hnorm : path.normalize = path)
    (hdial : (run.workspace.settings.dialectFor? path).isSome)
    (hhor : run.workspace.settings.debounceMs ≤ flushHorizon)
    (hroots : ∀ generation root, .began generation root ∈ run.history →
      path.startsWith root) (hevent : event.IsNormal) :
    (run.perform event).Settles path := by
  cases event with
  | receive command =>
    rw [WorkerRun.perform]
    split
    next htodo =>
      by_cases hshutdown : command = .shutdown
      · subst command
        exact .inl mem_cons_self
      · obtain ⟨view, hview, hset⟩ := hstl.idle htodo
        have hprog := hview.settled_program hrun hnorm hset hhor hevent hshutdown
        exact .inr ⟨view, { hview with }, hprog⟩
    next => exact hstl
  | wake =>
    rw [WorkerRun.perform]
    split
    next htodo =>
      obtain ⟨view, hview, hset⟩ := hstl.idle htodo
      have hdue := hview.settled_dueActions hrun hset run.now
      refine .inr ⟨view, { hview with }, hdue.1, fun hreply => ?_⟩
      cases isPlain_of_mem_dueActions hreply
    next => exact hstl
  | act => exact hstl.act hrun hnorm
  | tick milliseconds => exact hstl.withRequested _ run.requested
  | beginRebuild index =>
    rw [WorkerRun.perform, beginRequested]
    split
    next => exact hstl
    next root _ =>
      simp only
      split
      next => exact hstl.withRequested run.now _
      next normal _ =>
        have hbegun : (run.step (.beginRebuild normal)).Settles path :=
          hstl.step rfl (fun text _ hshows => hshows.afterBegin normal)
        exact hbegun.withRequested run.now _
  | collectTables generation =>
    refine hstl.step rfl ?_
    intro text hbuf hshows
    exact hshows.afterCollect hrun.sound hrun.buffers hnorm hbuf hdial hroots generation
  | commitRebuild generation =>
    exact hstl.step rfl (fun text _ hshows => hshows.afterCommit generation)
  | changeDisk disk => exact hstl.step rfl (fun text _ hshows => hshows)

end

structure Follows (run : WorkerRun) (settings : Settings) (path : Path) : Prop where
  orderly : run.Orderly
  settings : run.workspace.settings = settings
  settles : (∀ generation root, .began generation root ∈ run.history →
      path.startsWith root = true) → run.Settles path

lemma initial_follows (settings : Settings) (cache? : Option TableCache) (disk : Disk)
    (path : Path) : (initial settings cache? disk).Follows settings path where
  orderly := initial_orderly settings cache? disk
  settings := rfl
  settles := fun _ =>
    .inr ⟨⟨none, none, false⟩, ⟨rfl, rfl, fun hshown => by cases hshown⟩, PathView.settled_none,
      fun hreply => by cases hreply⟩

section Follows

variable {settings : Settings} (hnorm : path.normalize = path)
  (hdial : (settings.dialectFor? path).isSome = true)
  (hhor : settings.debounceMs ≤ flushHorizon)

include hnorm hdial hhor

lemma Follows.perform (hrun : run.Follows settings path) (hevent : event.IsNormal) :
    (run.perform event).Follows settings path where
  orderly := hrun.orderly.perform hevent
  settings := (run.perform_settings event).trans hrun.settings
  settles := fun hroots => by
    have hearl : ∀ generation root, .began generation root ∈ run.history → path.startsWith root :=
      fun generation root hbegan => hroots generation root (mem_history_perform hbegan event)
    have hstgs := hrun.settings
    subst hstgs
    exact (hrun.settles hearl).perform hrun.orderly hnorm hdial hhor hearl hevent

lemma Follows.performAll (hrun : run.Follows settings path)
    (hevs : ∀ event ∈ events, event.IsNormal) :
    (run.performAll events).Follows settings path :=
  foldlRecOn (motive := (Follows · settings path)) events _ hrun
    fun _ hbef event hmem => hbef.perform hnorm hdial hhor (hevs event hmem)

end Follows

lemma Settles.shown_of_replies (hstl : run.Settles path) (hreplies : run.Replies)
    (htext : lastText? path run.told = some text) :
    run.workspace.buffers.get? path = some text ∧ run.toWorkspaceRun.Shows path text := by
  unfold Settles at hstl
  rw [hreplies.1] at hstl
  rcases hstl with hstopped | ⟨view, hview, hset, hreply⟩
  · cases mem_singleton.mp hstopped
  · have hview' : [WorkerAction.reply].foldl (PathView.after path) view = view := rfl
    rw [hview', htext] at hset
    have hshown := hset.shown (hreply mem_cons_self) rfl
    obtain ⟨shown, hbuf, hshows⟩ := hview.shown hshown
    have heq : text = shown := by
      rw [hset.buffer] at hbuf
      exact Option.some.inj hbuf
    exact ⟨hview.buffer.trans hset.buffer, heq ▸ hshows⟩

/-- Whenever a flush is answered and all rebuilds have been of directories
above the path, its buffer holds the last text that the commands gave for it,
and the published table is the one of that text. -/
def KeepsTexts (settings : Settings) (cache? : Option TableCache) (disk : Disk)
    (path : Path) : Prop :=
  ∀ events : List WorkerEvent, (∀ event ∈ events, event.IsNormal) →
    let run := (initial settings cache? disk).performAll events
    run.Replies →
    (∀ generation root, .began generation root ∈ run.history → path.startsWith root = true) →
    ∀ text, lastText? path run.told = some text → run.workspace.bufferText? path = some text ∧
        run.workspace.table? path = some (run.workspace.parse path text)

lemma not_keepsTexts_of_late {settings : Settings} (hlate : flushHorizon < settings.debounceMs)
    (cache? : Option TableCache) (disk : Disk) {path : Path} (hnorm : path.normalize = path) :
    ¬ KeepsTexts settings cache? disk path := by
  intro hkeeps
  let events : List WorkerEvent := [.receive (.changed path ""), .act, .act, .receive .flush]
  have hevs : ∀ event ∈ events, event.IsNormal := by
    simpa [events, WorkerEvent.IsNormal, WorkerCommand.path?] using hnorm
  have hrun : (initial settings cache? disk).performAll events = { initial settings cache? disk with
        workspace := { settings, cache?, buffers := [(path.normalize, "")] }
        pending := [(path, ⟨"", settings.debounceMs⟩)]
        todo := [.reply]
        told := [.flush, .changed path ""] } := by
    have hnotDue : ¬ settings.debounceMs ≤ flushHorizon := Nat.not_le_of_lt hlate
    simp [events, performAll, perform, program, act, carryOut, step, initial,
      WorkspaceRun.initial, WorkspaceRun.perform, Workspace.openBuffer,
      PathMap.insert, PathMap.erase, dueActions, hnotDue]
  have hkept := hkeeps events hevs
  simp only [hrun] at hkept
  have hlast : lastText? path [.flush, .changed path ""] = some "" := by
    simp [lastText?, WorkerCommand.path?, WorkerCommand.buffer?]
  have htable := (hkept ⟨rfl, rfl, rfl⟩ (by simp [initial, WorkspaceRun.initial]) "" hlast).2
  cases htable

lemma keepsTexts_of_horizon {settings : Settings} (hhor : settings.debounceMs ≤ flushHorizon)
    (cache? : Option TableCache) (disk : Disk) {path : Path} (hnorm : path.normalize = path)
    (hdial : (settings.dialectFor? path).isSome) :
    KeepsTexts settings cache? disk path := by
  intro events hevs run hreplies hroots text htext
  have hrun : run.Follows settings path :=
    (initial_follows settings cache? disk path).performAll hnorm hdial hhor hevs
  obtain ⟨hbuf, hshows⟩ := (hrun.settles hroots).shown_of_replies hreplies htext
  rw [Workspace.bufferText?, Workspace.table?, hnorm]
  exact ⟨hbuf, hshows.1⟩

/-- The worker keeps the texts of editors exactly if changes rest no longer
than a flush looks ahead.  The runs that this speaks of are those of the
worker: whenever it waits and is then left alone, it does what its state
functions compute. -/
theorem keepsTexts_iff (settings : Settings) (cache? : Option TableCache) (disk : Disk)
    {path : Path} (hnormal : path.normalize = path)
    (hdialect : (settings.dialectFor? path).isSome = true) :
    (KeepsTexts settings cache? disk path ↔ settings.debounceMs ≤ flushHorizon) ∧
      ∀ events : List WorkerEvent, (∀ event ∈ events, event.IsNormal) →
        let run := (initial settings cache? disk).performAll events
        run.IsIdle → run.EndsAs .wake (run.toWorker.applyDue run.now) ∧
            ∀ command, run.EndsAs (.receive command) (run.toWorker.receive run.now command) := by
  refine ⟨⟨?_, ?_⟩, ?_⟩
  · intro hkeeps
    by_contra hlate
    exact not_keepsTexts_of_late (Nat.lt_of_not_le hlate) cache? disk hnormal hkeeps
  · intro hhorizon
    exact keepsTexts_of_horizon hhorizon cache? disk hnormal hdialect
  · intro events hevents run hidle
    have hrun : run.Orderly := (initial_orderly settings cache? disk).performAll hevents
    exact ⟨endsAs_applyDue hidle hrun.distinct, endsAs_receive hidle hrun.distinct⟩

theorem keepsTexts_default :
    let path := Path.ofText "/w/m.bsl"
    path.normalize = path ∧ (Settings.dialectFor? {} path).isSome = true ∧
      KeepsTexts {} none {} path ∧
      ¬ KeepsTexts { debounceMs := 86400001 } none {} path := by
  intro path
  have hnormal : path.normalize = path := by decide +kernel
  have hdialect : (Settings.dialectFor? {} path).isSome = true := by
    decide +kernel
  refine ⟨hnormal, hdialect, ?_, ?_⟩
  · exact (keepsTexts_iff {} none {} hnormal hdialect).1.mpr (by decide)
  · intro hkeeps
    have hhorizon := (keepsTexts_iff { debounceMs := 86400001 } none {} hnormal
      hdialect).1.mp hkeeps
    exact absurd hhorizon (by decide)

end WorkerRun

end BslInsight
