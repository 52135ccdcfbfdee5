import BslInsight.Proofs.EditorTexts
import BslInsight.Proofs.ReloadAgreement
import Mathlib.Data.Set.Defs

/-!
# The files of a worker

A worker keeps buffers and tables under normalised paths, but changes wait under paths as they are
spelled.  As long as no file is named by two spellings that differ, each file is a small machine
of its own: what a command last said of its buffer is kept, and a flush publishes it.
-/

namespace BslInsight

open List

variable {first second : Path} {time : Nat} {command : WorkerCommand} {α : Type}
  {steps : List WorkerStep} {last? : Option (Option String)} {paths : Set Path}

def SpelledAlike (paths : Set Path) : Prop := ∀ first ∈ paths, ∀ second ∈ paths,
    first.normalize = second.normalize → first.same second = true

lemma Path.normalize_congr (hsame : first.same second) : first.normalize = second.normalize := by
  rw [normalize, normalize, same_iff.mp hsame]

lemma SpelledAlike.same_iff (halike : SpelledAlike paths) (hfirst : first ∈ paths)
    (hsnd : second ∈ paths) :
    first.same second ↔ first.normalize = second.normalize :=
  ⟨Path.normalize_congr, halike first hfirst second hsnd⟩

/-! ## States of a file -/

structure FileState where
  buffer? : Option String
  waiting? : Option PendingChange
  table? : Option ModuleTable

namespace FileState

def parsed (parse : String → ModuleTable) (text : String) : FileState :=
  ⟨some text, none, some (parse text)⟩

def settle (parse : String → ModuleTable) (time : Nat) (state : FileState) : FileState :=
  match state.waiting? with
  | some change =>
    if change.due ≤ time then
      { state with waiting? := none, table? := some (parse change.text) }
    else state
  | none => state

/-- The state after a command about the file.  `stored?` is the table of the file
on disk, and `due` the time until which a change waits. -/
def after (parse : String → ModuleTable) (stored? : Option ModuleTable) (due : Nat)
    (state : FileState) : WorkerCommand → FileState
  | .opened _ text => parsed parse text
  | .changed _ text => { state with buffer? := some text, waiting? := some ⟨text, due⟩ }
  | .saved _ text? =>
    match text? <|> state.waiting?.map (·.text) <|> state.buffer? with
    | some text => parsed parse text
    | none => ⟨none, none, stored?⟩
  | .closed _ => ⟨none, none, stored?⟩
  | .deleted _ => ⟨none, none, none⟩
  | _ => state

structure Keeps
    (parse : String → ModuleTable) (text? : Option String) (state : FileState) : Prop where
  buffer : state.buffer? = text?
  waiting : ∀ change, state.waiting? = some change → text? = some change.text
  shown : state.waiting? = none → ∀ text, text? = some text → state.table? = some (parse text)

variable {parse : String → ModuleTable} {text? : Option String} {state : FileState}

lemma keeps_parsed (parse : String → ModuleTable) (text : String) :
    (parsed parse text).Keeps parse (some text) where
  buffer := rfl
  waiting := by simp [parsed]
  shown := by simp [parsed]

lemma keeps_none (parse : String → ModuleTable) (table? : Option ModuleTable) :
    Keeps parse none ⟨none, none, table?⟩ where
  buffer := rfl
  waiting := by simp
  shown := by simp

lemma Keeps.settle (hkeeps : state.Keeps parse text?) (time : Nat) :
    (state.settle parse time).Keeps parse text? := by
  unfold FileState.settle
  cases hwait : state.waiting? with
  | none => exact hkeeps
  | some change =>
    simp only
    split
    · refine ⟨hkeeps.buffer, by simp, ?_⟩
      intro _ text htext
      rw [hkeeps.waiting change hwait] at htext
      rw [Option.some.inj htext]
    · exact hkeeps

lemma Keeps.table?_settle (hkeeps : state.Keeps parse text?)
    (hdue : ∀ change, state.waiting? = some change → change.due ≤ time) {text : String}
    (htext : text? = some text) : (state.settle parse time).table? = some (parse text) := by
  apply (hkeeps.settle time).shown _ text htext
  unfold FileState.settle
  cases hwait : state.waiting? with
  | none => exact hwait
  | some change => simp [hdue change hwait]

/-- What a command says of the buffer is kept, whatever was there before.  If it
says nothing, then what was kept still is. -/
lemma keeps_after (hlast : ∀ text?, last? = some text? → state.Keeps parse text?)
    (stored? : Option ModuleTable) (due : Nat) (htext : command.buffer?.or last? = some text?) :
    (state.after parse stored? due command).Keeps parse text? := by
  cases command with
  | opened path text =>
    obtain rfl : some text = text? := Option.some.inj htext
    exact keeps_parsed parse text
  | changed path text =>
    obtain rfl : some text = text? := Option.some.inj htext
    exact ⟨rfl, by simp [after], by simp [after]⟩
  | saved path sent? =>
    cases sent? with
    | some text =>
      obtain rfl : some text = text? := Option.some.inj htext
      exact keeps_parsed parse text
    | none =>
      have hkeeps := hlast text? htext
      cases hwait : state.waiting? with
      | some change =>
        rw [hkeeps.waiting change hwait]
        simpa [after, hwait] using keeps_parsed parse change.text
      | none =>
        have hbuf := hkeeps.buffer
        cases text? with
        | some text => simpa [after, hwait, hbuf] using keeps_parsed parse text
        | none => simpa [after, hwait, hbuf] using keeps_none parse stored?
  | closed path | deleted path =>
    obtain rfl : none = text? := Option.some.inj htext
    exact keeps_none parse _
  | rebuild root? | flush | shutdown => exact hlast text? htext

end FileState

namespace PathMap

lemma get?_eq_none_of_distinct {key path : Path} {entries : PathMap α}
    (hdist : ∀ entry ∈ entries, key.same entry.1 = false) (hsame : key.same path) :
    entries.get? path = none := by
  cases hget : entries.get? path with
  | none => rfl
  | some value =>
    obtain ⟨other, hoth, hpath⟩ := mem_of_get?_eq_some hget
    have hdifferent := hdist _ hoth
    rw [Path.same_congr_left hsame, Path.same_comm, hpath] at hdifferent
    cases hdifferent

lemma get?_filter {entries : PathMap α}
    (hdist : entries.Pairwise fun first second => first.1.same second.1 = false)
    (condition : α → Bool) (path : Path) :
    get? (entries.filter fun entry => condition entry.2) path =
      (entries.get? path).filter condition := by
  induction entries with
  | nil => rfl
  | cons entry rest ih =>
    obtain ⟨key, value⟩ := entry
    obtain ⟨hkey, hrest⟩ := pairwise_cons.mp hdist
    rw [get?_cons]
    by_cases hsame : key.same path
    · have habsent := get?_eq_none_of_distinct hkey hsame
      by_cases hcondition : condition value
      · simp [hcondition, get?_cons, hsame, Option.filter]
      · simp [hcondition, hsame, ih hrest, habsent, Option.filter]
    · by_cases hcondition : condition value
      · simp [hcondition, get?_cons, hsame, ih hrest]
      · simp [hcondition, hsame, ih hrest]

end PathMap

namespace Worker

def file (worker : Worker) (path : Path) : FileState where
  buffer? := worker.workspace.bufferText? path
  waiting? := worker.pending.get? path
  table? := worker.workspace.table? path

variable {worker : Worker} {path other : Path}

lemma file_congr (hsame : path.same other) : worker.file path = worker.file other := by
  have hnorm := Path.normalize_congr hsame
  have hwait : worker.pending.get? path = worker.pending.get? other := by
    simp only [PathMap.get?, Path.same_congr_right hsame]
  simp only [file, Workspace.bufferText?, Workspace.table?, hnorm, hwait]

lemma same_normalize_iff :
    path.normalize.same other.normalize ↔ path.normalize = other.normalize := by
  constructor
  · intro hsame
    exact Path.eq_of_same_of_normalize hsame (Path.normalize_normalize path)
      (Path.normalize_normalize other)
  · intro heq
    rw [heq]
    exact Path.same_self _

/-! ## Single steps of a command -/

lemma file_edit (worker after : Worker) {table? : Option ModuleTable}
    (hedit : Workspace.IsEdit worker.workspace after.workspace path.normalize table?)
    (hpend : after.pending = worker.pending) (other : Path) :
    after.file other = if path.normalize = other.normalize then { worker.file other with table? }
      else worker.file other := by
  have htable := hedit.get? other.normalize
  simp only [same_normalize_iff] at htable
  unfold file Workspace.table? Workspace.bufferText?
  rw [htable, hedit.buffers, hpend]
  split <;> rfl

lemma file_parse (worker : Worker) (path : Path) (text : String) (other : Path) :
    (worker.parse path text).file other = if path.normalize = other.normalize then
        { worker.file other with table? := some (worker.workspace.parse path.normalize text) }
      else worker.file other :=
  worker.file_edit (worker.parse path text)
    (Workspace.isEdit_updateFile worker.workspace path text) rfl other

lemma file_setBuffer (worker : Worker) (path : Path) (text : String) (other : Path) :
    (worker.setBuffer path text).file other =
      if path.normalize = other.normalize then { worker.file other with buffer? := some text }
      else worker.file other := by
  have hbuf := worker.workspace.buffers.get?_insert path.normalize other.normalize text
  simp only [same_normalize_iff] at hbuf
  unfold file Workspace.bufferText? setBuffer Workspace.openBuffer
  simp only [hbuf]
  split <;> rfl

lemma file_dropBuffer (worker : Worker) (path other : Path) : (worker.dropBuffer path).file other =
      if path.normalize = other.normalize then { worker.file other with buffer? := none }
      else worker.file other := by
  have hbuf := worker.workspace.buffers.get?_erase path.normalize other.normalize
  simp only [same_normalize_iff] at hbuf
  unfold file Workspace.bufferText? dropBuffer Workspace.closeBuffer
  simp only [hbuf]
  split <;> rfl

lemma file_cancel (worker : Worker) (path other : Path) : (worker.cancel path).file other =
      if path.same other then { worker.file other with waiting? := none }
      else worker.file other := by
  unfold file cancel
  simp only [PathMap.get?_erase]
  split <;> rfl

lemma file_reload (worker : Worker) (path other : Path) : (worker.reload path).file other =
      if path.normalize = other.normalize then
        { worker.file other with table? := worker.workspace.reloaded? worker.disk path }
      else worker.file other :=
  worker.file_edit (worker.reload path) (worker.workspace.isEdit_reload worker.disk path) rfl other

lemma file_evict (worker : Worker) (path other : Path) : file { worker with
        workspace := worker.workspace.evictTable path
        disk := (worker.workspace.evictFile worker.disk path).2 } other =
      if path.normalize = other.normalize then { worker.file other with table? := none }
      else worker.file other :=
  worker.file_edit ⟨worker.workspace.evictTable path, _, worker.pending⟩
    (Workspace.isEdit_evictTable worker.workspace path) rfl other

lemma file_receive_of_other (hcmd : command.path? = some other)
    (hoth : other.normalize ≠ path.normalize) (worker : Worker) (now : Nat) :
    (worker.receive now command).file path = worker.file path := by
  have hsame : other.same path = false := by
    rw [Bool.eq_false_iff]
    exact fun hsame => hoth (Path.normalize_congr hsame)
  have hcancel (worker : Worker) : (worker.cancel other).file path = worker.file path := by
    simp [file_cancel, hsame]
  cases command with
  | opened file text =>
    obtain rfl : file = other := Option.some.inj hcmd
    simp only [receive, file_parse, file_setBuffer, if_neg hoth, hcancel]
  | changed file text =>
    obtain rfl : file = other := Option.some.inj hcmd
    have hbuf := file_setBuffer worker file text path
    rw [if_neg hoth] at hbuf
    rw [← hbuf]
    simp only [receive, Worker.file, PathMap.get?_insert, hsame]
    rfl
  | saved file text? =>
    obtain rfl : file = other := Option.some.inj hcmd
    simp only [receive]
    split
    · simp only [file_parse, file_setBuffer, if_neg hoth, hcancel]
    · simp only [file_reload, if_neg hoth, hcancel]
  | closed file =>
    obtain rfl : file = other := Option.some.inj hcmd
    simp only [receive, file_reload, file_dropBuffer, if_neg hoth, hcancel]
  | deleted file =>
    obtain rfl : file = other := Option.some.inj hcmd
    have hevict := file_evict ((worker.cancel file).dropBuffer file) file path
    rw [if_neg hoth, file_dropBuffer, if_neg hoth, hcancel] at hevict
    exact hevict
  | rebuild root? | flush | shutdown => cases hcmd

lemma file_receive (hcmd : command.path? = some path) (worker : Worker) (now : Nat) :
    (worker.receive now command).file path =
      (worker.file path).after (worker.workspace.parse path.normalize)
        (worker.workspace.reloaded? worker.disk path)
        (now + worker.workspace.settings.debounceMs) command := by
  have hcancel (worker : Worker) :
      (worker.cancel path).file path = { worker.file path with waiting? := none } := by
    simp [file_cancel, Path.same_self]
  cases command with
  | opened file text =>
    obtain rfl : file = path := Option.some.inj hcmd
    simp only [receive, file_parse, file_setBuffer, if_true, hcancel]
    rfl
  | changed file text =>
    obtain rfl : file = path := Option.some.inj hcmd
    have hbuf := file_setBuffer worker file text file
    rw [if_pos rfl] at hbuf
    have hfile := FileState.mk.inj hbuf
    have hwait : (worker.pending.insert file
        ⟨text, now + worker.workspace.settings.debounceMs⟩).get? file =
        some ⟨text, now + worker.workspace.settings.debounceMs⟩ := by
      rw [PathMap.get?_insert, if_pos (Path.same_self file)]
    exact FileState.mk.injEq .. ▸ ⟨hfile.1, hwait, hfile.2.2⟩
  | saved file text? =>
    obtain rfl : file = path := Option.some.inj hcmd
    have hsaved : (text? <|> (worker.file file).waiting?.map (·.text) <|>
        (worker.file file).buffer?) = worker.savedText? file text? := rfl
    simp only [receive, FileState.after]
    rw [hsaved]
    cases htext : worker.savedText? file text? with
    | some text =>
      simp only [file_parse, file_setBuffer, if_true, hcancel]
      rfl
    | none =>
      have hbuf : (worker.file file).buffer? = none := by
        simp only [savedText?, Option.orElse_eq_orElse, Option.orElse_eq_or,
          Option.or_eq_none_iff] at htext
        exact htext.2.2
      simp only [file_reload, if_true, hcancel, hbuf]
      rfl
  | closed file =>
    obtain rfl : file = path := Option.some.inj hcmd
    simp only [receive, file_reload, file_dropBuffer, if_true, hcancel]
    rfl
  | deleted file =>
    obtain rfl : file = path := Option.some.inj hcmd
    have hevict := file_evict ((worker.cancel file).dropBuffer file) file file
    rw [if_pos rfl, file_dropBuffer, if_pos rfl, hcancel] at hevict
    exact hevict
  | rebuild root? | flush | shutdown => cases hcmd

/-! ## Changes that are due -/

/-- All changes wait under paths from a set, at most one for each path, and none
for longer than the settings say. -/
structure Tidy (worker : Worker) (now : Nat) (paths : Set Path) : Prop where
  waiting : ∀ entry ∈ worker.pending, entry.1 ∈ paths
  distinct : worker.pending.Pairwise fun first second => first.1.same second.1 = false
  due : ∀ entry ∈ worker.pending, entry.2.due ≤ now + worker.workspace.settings.debounceMs

lemma file_foldl_parse (halike : SpelledAlike paths) (hpath : path ∈ paths)
    {entries : PathMap PendingChange} (hents : ∀ entry ∈ entries, entry.1 ∈ paths)
    (hdist : entries.Pairwise fun first second => first.1.same second.1 = false)
    (worker : Worker) :
    (entries.foldl (fun worker (key, change) => worker.parse key change.text) worker).file path =
      (entries.get? path).elim (worker.file path) fun change =>
        { worker.file path with
          table? := some (worker.workspace.parse path.normalize change.text) } := by
  induction entries generalizing worker with
  | nil => rfl
  | cons entry rest ih =>
    obtain ⟨key, change⟩ := entry
    obtain ⟨hkey, hrest⟩ := pairwise_cons.mp hdist
    have hmem : key ∈ paths := hents (key, change) mem_cons_self
    have hlater := ih (fun other hoth => hents other (mem_cons_of_mem _ hoth)) hrest
      (worker.parse key change.text)
    rw [foldl_cons, PathMap.get?_cons, hlater, file_parse,
      Workspace.parse_eq (worker.parse key change.text).workspace worker.workspace]
    by_cases hsame : key.same path
    · -- No later change is about the same path.
      have habsent := PathMap.get?_eq_none_of_distinct hkey hsame
      have hnorm := Path.normalize_congr hsame
      simp [habsent, hsame, hnorm]
    · have hnorm : key.normalize ≠ path.normalize := by
        intro heq
        exact hsame ((halike.same_iff hmem hpath).mpr heq)
      simp [hsame, hnorm]

lemma file_applyDue (halike : SpelledAlike paths) (hpath : path ∈ paths) {now : Nat}
    (htidy : worker.Tidy now paths) (time : Nat) :
    (worker.applyDue time).file path =
      (worker.file path).settle (worker.workspace.parse path.normalize) time := by
  let due := worker.pending.filter fun entry => decide (entry.2.due ≤ time)
  let rest := worker.pending.filter fun entry => decide (time < entry.2.due)
  let waiting? := worker.pending.get? path
  have hdue := PathMap.get?_filter htidy.distinct (fun change => decide (change.due ≤ time)) path
  have hrest := PathMap.get?_filter htidy.distinct (fun change => decide (time < change.due)) path
  have hpaths : ∀ entry ∈ due, entry.1 ∈ paths :=
    fun entry hentry => htidy.waiting entry (mem_filter.mp hentry).1
  have happlied : (worker.applyDue time).file path =
      (PathMap.get? due path).elim ⟨worker.workspace.bufferText? path, PathMap.get? rest path,
        worker.workspace.table? path⟩ fun change => ⟨worker.workspace.bufferText? path,
          PathMap.get? rest path, some (worker.workspace.parse path.normalize change.text)⟩ :=
    file_foldl_parse halike hpath hpaths (htidy.distinct.sublist filter_sublist)
      { worker with pending := rest }
  rw [happlied, hdue, hrest]
  unfold FileState.settle
  cases hwait : waiting? with
  | none =>
    have hnone : worker.pending.get? path = none := hwait
    simp [Worker.file, hnone]
  | some change =>
    have hsome : worker.pending.get? path = some change := hwait
    by_cases hnow : change.due ≤ time
    · simp [Worker.file, hsome, Option.filter, hnow, Nat.not_lt.mpr hnow]
    · simp [Worker.file, hsome, Option.filter, hnow, Nat.lt_of_not_le hnow]

lemma settings_foldl_parse (entries : PathMap PendingChange) (worker : Worker) :
    (entries.foldl (fun worker (key, change) => worker.parse key change.text)
        worker).workspace.settings = worker.workspace.settings ∧
      (entries.foldl (fun worker (key, change) => worker.parse key change.text)
        worker).pending = worker.pending := by
  induction entries generalizing worker with
  | nil => exact ⟨rfl, rfl⟩
  | cons entry rest ih => exact ih (worker.parse entry.1 entry.2.text)

lemma settings_applyDue (worker : Worker) (time : Nat) :
    (worker.applyDue time).workspace.settings = worker.workspace.settings :=
  (settings_foldl_parse _ _).1

lemma settings_reload (worker : Worker) (path : Path) :
    (worker.reload path).workspace.settings = worker.workspace.settings :=
  (worker.workspace.isEdit_reload worker.disk path).settings

lemma settings_receive (hcmd : command.path? = some path) (worker : Worker) (now : Nat) :
    (worker.receive now command).workspace.settings = worker.workspace.settings := by
  cases command with
  | opened file text | changed file text => rfl
  | saved file text? =>
    simp only [receive]
    split
    · rfl
    · exact settings_reload _ file
  | closed file => exact settings_reload _ file
  | deleted file => exact (Workspace.isEdit_evictTable _ file).settings
  | rebuild root? | flush | shutdown => cases hcmd

namespace Tidy

variable {now : Nat} {paths : Set Path}

variable (htidy : worker.Tidy now paths)
include htidy

lemma later (htime : now ≤ time) : worker.Tidy time paths where
  waiting := htidy.waiting
  distinct := htidy.distinct
  due entry hentry := by
    have hdue := htidy.due entry hentry
    omega

lemma sublist {after : Worker} (hpend : after.pending.Sublist worker.pending)
    (hstgs : after.workspace.settings = worker.workspace.settings) : after.Tidy now paths where
  waiting entry hentry := htidy.waiting entry (hpend.subset hentry)
  distinct := htidy.distinct.sublist hpend
  due entry hentry := by
    rw [hstgs]
    exact htidy.due entry (hpend.subset hentry)

lemma applyDue (time : Nat) : (worker.applyDue time).Tidy now paths := by
  apply htidy.sublist _ (settings_applyDue worker time)
  have hpend := (settings_foldl_parse
    (worker.pending.filter fun entry => decide (entry.2.due ≤ time))
    { worker with pending := worker.pending.filter fun entry => decide (time < entry.2.due) }).2
  exact hpend ▸ filter_sublist

lemma receive (hpath : command.path? = some path)
    (hmem : path ∈ paths) : (worker.receive now command).Tidy now paths := by
  have hstgs := settings_receive hpath worker now
  have herase : (worker.pending.erase path).Sublist worker.pending := filter_sublist
  cases command with
  | opened file text | closed file | deleted file =>
    obtain rfl : file = path := Option.some.inj hpath
    exact htidy.sublist herase hstgs
  | changed file text =>
    obtain rfl : file = path := Option.some.inj hpath
    refine ⟨?_, PathMap.pairwise_insert htidy.distinct _ _, ?_⟩
    · intro entry hentry
      rcases PathMap.mem_insert.mp hentry with ⟨hold, -⟩ | rfl
      · exact htidy.waiting entry hold
      · exact hmem
    · intro entry hentry
      rcases PathMap.mem_insert.mp hentry with ⟨hold, -⟩ | rfl
      · exact htidy.due entry hold
      · exact Nat.le_refl _
  | saved file text? =>
    obtain rfl : file = path := Option.some.inj hpath
    refine htidy.sublist ?_ hstgs
    simp only [Worker.receive]
    split
    · exact herase
    · exact herase
  | rebuild root? | flush | shutdown => cases hpath

end Tidy

end Worker

/-! ## Runs in time -/

/-- What a command says of the buffer of a file, by whatever path it names it. -/
def WorkerCommand.write? (command : WorkerCommand) (path : Path) : Option (Option String) :=
  if command.path?.any (·.normalize == path.normalize) then command.buffer? else none

lemma Worker.keeps_receive (halike : SpelledAlike paths) {path named : Path}
    (hpath : path ∈ paths) (hnamed : named ∈ paths) (hcmd : command.path? = some named)
    {worker : Worker} {ws : Workspace} (hlast : ∀ text?, last? = some text? →
      (worker.file path).Keeps (ws.parse path.normalize) text?) (now : Nat)
    {text? : Option String} (htext : (command.write? path).or last? = some text?) :
    ((worker.receive now command).file path).Keeps (ws.parse path.normalize) text? := by
  by_cases hnorm : named.normalize = path.normalize
  · -- The command is about this file, and so it names it by the same components.
    have hsame : path.same named := (halike.same_iff hpath hnamed).mpr hnorm.symm
    have hwrite : command.write? path = command.buffer? := by
      simp [WorkerCommand.write?, hcmd, hnorm]
    rw [hwrite] at htext
    simp only [Worker.file_congr hsame] at hlast ⊢
    rw [Worker.file_receive hcmd, hnorm, Workspace.parse_eq worker.workspace ws]
    exact FileState.keeps_after hlast _ _ htext
  · have hwrite : command.write? path = none := by
      simp [WorkerCommand.write?, hcmd, hnorm]
    rw [hwrite] at htext
    rw [Worker.file_receive_of_other hcmd hnorm]
    exact hlast text? htext

structure Workspace.Presents
    (workspace : Workspace) (path : Path) (text? : Option String) : Prop where
  buffer : workspace.bufferText? path = text?
  table : ∀ text, text? = some text →
    workspace.table? path = some (workspace.parse path.normalize text)

inductive WorkerStep where
  | receive (command : WorkerCommand)
  | wake
  | pass (milliseconds : Nat)
  | changeDisk (disk : Disk)

namespace WorkerStep

def path? : WorkerStep → Option Path
  | .receive command => command.path?
  | _ => none

def write? (path : Path) : WorkerStep → Option (Option String)
  | .receive command => command.write? path
  | _ => none

def Within (paths : Set Path) : WorkerStep → Prop
  | .receive command => command = .flush ∨ ∃ path ∈ paths, command.path? = some path
  | _ => True

end WorkerStep

/-- What some steps said of the buffer of a file last, if they said anything. -/
def lastWrite? (path : Path) (steps : List WorkerStep) : Option (Option String) :=
  steps.foldl (fun last? step => (step.write? path).or last?) none

structure TimedWorker extends Worker where
  now : Nat := 0
  stopped : Bool := false

namespace TimedWorker

def start (workspace : Workspace) (disk : Disk) : TimedWorker where
  workspace := workspace
  disk := disk

def perform (worker : TimedWorker) : WorkerStep → TimedWorker
  | .receive command =>
    if worker.stopped then worker
    else
      { worker with
        toWorker := worker.toWorker.receive worker.now command
        stopped := command == .shutdown }
  | .wake =>
    if worker.stopped then worker
    else { worker with toWorker := worker.toWorker.applyDue worker.now }
  | .pass milliseconds => { worker with now := worker.now + milliseconds }
  | .changeDisk disk => { worker with disk }

def flushed (worker : TimedWorker) (steps : List WorkerStep) : TimedWorker :=
  (steps.foldl perform worker).perform (.receive .flush)

structure Orderly (worker : TimedWorker) (paths : Set Path) : Prop where
  running : worker.stopped = false
  tidy : worker.Tidy worker.now paths
  horizon : worker.workspace.settings.debounceMs ≤ flushHorizon

section Runs

variable {paths : Set Path} {worker : TimedWorker} {step : WorkerStep}

lemma orderly_start (paths : Set Path) {ws : Workspace}
    (hhor : ws.settings.debounceMs ≤ flushHorizon) (disk : Disk) :
    (start ws disk).Orderly paths :=
  ⟨rfl, ⟨by simp [start], Pairwise.nil, by simp [start]⟩, hhor⟩

lemma Orderly.perform (hord : worker.Orderly paths) (hstep : step.Within paths) :
    (worker.perform step).Orderly paths := by
  obtain ⟨hrunning, htidy, hhor⟩ := hord
  have happly (time : Nat) : Orderly ⟨worker.toWorker.applyDue time, worker.now, false⟩ paths := by
    refine ⟨rfl, htidy.applyDue time, ?_⟩
    rw [Worker.settings_applyDue]
    exact hhor
  cases step with
  | receive command =>
    simp only [TimedWorker.perform, hrunning, Bool.false_eq_true, if_false]
    rcases hstep with rfl | ⟨path, hpath, hcmd⟩
    · exact happly _
    · refine ⟨?_, htidy.receive hcmd hpath, ?_⟩
      · cases command with
        | shutdown => cases hcmd
        | _ => rfl
      · rw [Worker.settings_receive hcmd]
        exact hhor
  | wake =>
    simp only [TimedWorker.perform, hrunning, Bool.false_eq_true, if_false]
    exact happly _
  | pass milliseconds => exact ⟨hrunning, htidy.later (Nat.le_add_right _ _), hhor⟩
  | changeDisk disk => exact ⟨hrunning, ⟨htidy.waiting, htidy.distinct, htidy.due⟩, hhor⟩

lemma Orderly.foldl_perform (hord : worker.Orderly paths)
    (hsteps : ∀ step ∈ steps, step.Within paths) :
    (steps.foldl TimedWorker.perform worker).Orderly paths :=
  foldlRecOn (motive := (Orderly · paths)) steps _ hord
    fun _ hbef step hmem => hbef.perform (hsteps step hmem)

variable {path : Path} {workspace ws : Workspace} {last? : Option (Option String)}
  {text? : Option String}

lemma keeps_perform
    (halike : SpelledAlike paths) (hpath : path ∈ paths) (hord : worker.Orderly paths)
    (hstep : step.Within paths) (hlast : ∀ text?, last? = some text? →
      (worker.file path).Keeps (ws.parse path.normalize) text?)
    (htext : (step.write? path).or last? = some text?) :
    ((worker.perform step).file path).Keeps (ws.parse path.normalize) text? := by
  have happly (time : Nat) (htext : last? = some text?) :
      ((worker.applyDue time).file path).Keeps (ws.parse path.normalize) text? := by
    rw [Worker.file_applyDue halike hpath hord.tidy, Workspace.parse_eq worker.workspace ws]
    exact (hlast text? htext).settle time
  cases step with
  | receive command =>
    simp only [TimedWorker.perform, hord.running, Bool.false_eq_true, if_false]
    rcases hstep with rfl | ⟨named, hnamed, hcmd⟩
    · exact happly _ htext
    · exact Worker.keeps_receive halike hpath hnamed hcmd hlast _ htext
  | wake =>
    simp only [TimedWorker.perform, hord.running, Bool.false_eq_true, if_false]
    exact happly _ htext
  | pass milliseconds | changeDisk disk => exact hlast text? htext

lemma keeps_foldl_perform (halike : SpelledAlike paths) (hpath : path ∈ paths)
    (hord : worker.Orderly paths) (hsteps : ∀ step ∈ steps, step.Within paths)
    (hlast : ∀ text?, last? = some text? → (worker.file path).Keeps (ws.parse path.normalize) text?)
    (htext : steps.foldl (fun last? step => (step.write? path).or last?) last? = some text?) :
    ((steps.foldl perform worker).file path).Keeps (ws.parse path.normalize) text? := by
  induction steps generalizing worker last? with
  | nil => exact hlast text? htext
  | cons step rest ih =>
    have hstep := hsteps step mem_cons_self
    apply ih (hord.perform hstep)
    · exact fun other hoth => hsteps other (mem_cons_of_mem _ hoth)
    · exact fun _ => keeps_perform halike hpath hord hstep hlast
    · exact htext

lemma presents_flush
    (halike : SpelledAlike paths) (hpath : path ∈ paths) (hord : worker.Orderly paths)
    (hkeeps : (worker.file path).Keeps (ws.parse path.normalize) text?) :
    (worker.receive worker.now .flush).workspace.Presents path text? := by
  let after := worker.receive worker.now .flush
  have hfile : after.file path = (worker.file path).settle (ws.parse path.normalize)
      (worker.now + flushHorizon) := by
    rw [← Workspace.parse_eq worker.workspace ws]
    exact Worker.file_applyDue halike hpath hord.tidy _
  have hdue (change : PendingChange) (hwait : (worker.file path).waiting? = some change) :
      change.due ≤ worker.now + flushHorizon := by
    obtain ⟨key, hkey, -⟩ := PathMap.mem_of_get?_eq_some hwait
    exact (hord.tidy.due _ hkey).trans (Nat.add_le_add_left hord.horizon _)
  constructor
  · change (after.file path).buffer? = text?
    rw [hfile]
    exact (hkeeps.settle _).buffer
  · intro text htext
    change (after.file path).table? = some (after.workspace.parse path.normalize text)
    rw [hfile, Workspace.parse_eq after.workspace ws]
    exact hkeeps.table?_settle hdue htext

end Runs

end TimedWorker

end BslInsight
