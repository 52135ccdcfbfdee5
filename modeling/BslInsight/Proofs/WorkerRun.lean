import BslInsight.Proofs.ShownTexts
import BslInsight.Workspace.Worker
import Mathlib.Data.List.Pairwise

/-!
# Runs of the update worker

Between any two actions of the worker the rebuilds it has started may take their own steps, time
may pass, and others may change the disk.  A worker that does everything at once is one of these
runs: without interruption, a run ends in the state that `Worker.receive` and `Worker.applyDue`
compute.
-/

namespace BslInsight

open List

variable {run : WorkerRun} {action : WorkerAction} {actions : List WorkerAction} {time : Nat}
  {command : WorkerCommand} {root : Path}

inductive WorkerAction where
  | cancel (path : Path)
  | setBuffer (path : Path) (text : String)
  | dropBuffer (path : Path)
  | wait (path : Path) (text : String)
  | parse (path : Path) (text : String)
  | reload (path : Path)
  | evict (path : Path)
  | spawn (root : Path)
  | reply
  | stop

def WorkerAction.IsPlain : WorkerAction → Prop
  | .spawn _ | .reply | .stop => False
  | _ => True

/-- A run of a workspace with a worker.  `todo` is left of the command that is
being worked off, `requested` are the roots of rebuilds that have not begun,
and `told` are the commands, newest first. -/
structure WorkerRun extends WorkspaceRun where
  pending : PathMap PendingChange := []
  now : Nat := 0
  todo : List WorkerAction := []
  requested : List Path := []
  told : List WorkerCommand := []

inductive WorkerEvent where
  | receive (command : WorkerCommand)
  | wake
  | act
  | tick (milliseconds : Nat)
  | beginRebuild (index : Nat)
  | collectTables (generation : Nat)
  | commitRebuild (generation : Nat)
  | changeDisk (disk : Disk)

/-- The events that are the doing of the worker and of its rebuilds. -/
def WorkerEvent.IsOwn : WorkerEvent → Prop
  | .act | .beginRebuild _ | .collectTables _ | .commitRebuild _ => True
  | _ => False

namespace WorkerRun

def toWorker (run : WorkerRun) : Worker where
  workspace := run.workspace
  disk := run.disk
  pending := run.pending

def step (run : WorkerRun) (step : WorkspaceStep) : WorkerRun :=
  { run with toWorkspaceRun := run.toWorkspaceRun.perform step }

def dueActions (run : WorkerRun) (time : Nat) : List WorkerAction :=
  (run.pending.filter fun entry => entry.2.due ≤ time).flatMap
    fun entry => [.cancel entry.1, .parse entry.1 entry.2.text]

def program (run : WorkerRun) : WorkerCommand → List WorkerAction
  | .opened path text => [.cancel path, .setBuffer path text, .parse path text]
  | .changed path text => [.setBuffer path text, .wait path text]
  | .saved path text? =>
    match run.toWorker.savedText? path text? with
    | some text => [.cancel path, .setBuffer path text, .parse path text]
    | none => [.cancel path, .reload path]
  | .closed path => [.cancel path, .dropBuffer path, .reload path]
  | .deleted path => [.cancel path, .dropBuffer path, .evict path]
  | .rebuild root? =>
    match root? <|> run.workspace.root? with
    | some root => [.spawn root]
    | none => []
  | .flush => run.dueActions (run.now + flushHorizon) ++ [.reply]
  | .shutdown => [.stop]

def carryOut (run : WorkerRun) : WorkerAction → WorkerRun
  | .cancel path => { run with pending := run.pending.erase path }
  | .setBuffer path text => run.step (.openBuffer path text)
  | .dropBuffer path => run.step (.closeBuffer path)
  | .wait path text =>
    let due := run.now + run.workspace.settings.debounceMs
    { run with pending := run.pending.insert path ⟨text, due⟩ }
  | .parse path text => run.step (.update path text)
  | .reload path =>
    match readSource run.disk path with
    | .ok text => run.step (.update path text)
    | .error _ => run.step (.evict path)
  | .evict path => run.step (.evict path)
  | .spawn root => { run with requested := run.requested ++ [root] }
  | .reply => run
  | .stop => { run with pending := [], requested := [] }

/-- The next action of the worker.  A reply waits for the rebuilds, and a
worker that has stopped does nothing more. -/
def act (run : WorkerRun) : WorkerRun := match run.todo with
  | [] => run
  | .stop :: _ => run.carryOut .stop
  | .reply :: rest =>
    if run.requested.isEmpty && run.rebuilds.isEmpty then
      { run with todo := rest }
    else run
  | action :: rest => carryOut { run with todo := rest } action

/-- One of the requested rebuilds begins, or ends at once if its root is no
directory. -/
def beginRequested (run : WorkerRun) (index : Nat) : WorkerRun := match run.requested[index]? with
  | none => run
  | some root =>
    let requested := run.requested.eraseIdx index
    match Workspace.rebuildRoot run.disk root with
    | .error _ => { run with requested }
    | .ok root => { run.step (.beginRebuild root) with requested }

def perform (run : WorkerRun) : WorkerEvent → WorkerRun
  | .receive command =>
    match run.todo with
    | [] =>
      { run with
        todo := run.program command
        told := command :: run.told }
    | _ => run
  | .wake =>
    match run.todo with
    | [] => { run with todo := run.dueActions run.now }
    | _ => run
  | .act => run.act
  | .tick milliseconds => { run with now := run.now + milliseconds }
  | .beginRebuild index => run.beginRequested index
  | .collectTables generation => run.step (.collectTables generation)
  | .commitRebuild generation => run.step (.commitRebuild generation)
  | .changeDisk disk => run.step (.changeDisk disk)

def performAll (run : WorkerRun) (events : List WorkerEvent) : WorkerRun := events.foldl perform run

def initial (settings : Settings) (cache? : Option TableCache) (disk : Disk) : WorkerRun where
  toWorkspaceRun := WorkspaceRun.initial settings cache? disk

def Replies (run : WorkerRun) : Prop := run.todo = [.reply] ∧ run.requested = [] ∧ run.rebuilds = []

structure IsIdle (run : WorkerRun) : Prop where
  todo : run.todo = []
  requested : run.requested = []
  rebuilds : run.rebuilds = []

/-- The worker, left alone after an event, ends in a state.  But for a shutdown
it waits for commands again. -/
def EndsAs (run : WorkerRun) (event : WorkerEvent) (worker : Worker) : Prop :=
  ∃ events : List WorkerEvent, (∀ own ∈ events, own.IsOwn) ∧
    (run.performAll (event :: events)).toWorker = worker ∧
      (event ≠ .receive .shutdown → (run.performAll (event :: events)).IsIdle)

lemma performAll_append (run : WorkerRun) (first second : List WorkerEvent) :
    run.performAll (first ++ second) = (run.performAll first).performAll second :=
  foldl_append

/-! ## Single actions -/

lemma carryOut_with (run : WorkerRun) (action : WorkerAction) (todo : List WorkerAction)
    (told : List WorkerCommand) :
    carryOut { run with todo, told } action = { run.carryOut action with todo, told } := by
  cases action with
  | reload path =>
    simp only [carryOut]
    split <;> rfl
  | _ => rfl

lemma act_cases (run : WorkerRun) : run.act = run ∨
      (∃ rest, run.todo = .stop :: rest ∧ run.act = run.carryOut .stop) ∨
      ∃ action rest, run.todo = action :: rest ∧ action ≠ .stop ∧
        run.act = carryOut { run with todo := rest } action := by
  unfold act
  split
  next => exact .inl rfl
  next rest htodo => exact .inr (.inl ⟨rest, htodo, rfl⟩)
  next rest htodo =>
    split
    · exact .inr (.inr ⟨.reply, rest, htodo, nofun, rfl⟩)
    · exact .inl rfl
  next action rest hstop _ htodo => exact .inr (.inr ⟨action, rest, htodo, hstop, rfl⟩)

/-! ## Work without interruption -/

lemma act_of_isPlain {rest : List WorkerAction} (htodo : run.todo = action :: rest)
    (hplain : action.IsPlain) : run.act = carryOut { run with todo := rest } action := by
  unfold act
  rw [htodo]
  cases action <;> first | rfl | exact hplain.elim

lemma performAll_act (run : WorkerRun) (hplain : ∀ action ∈ actions, action.IsPlain)
    (rest : List WorkerAction) (told : List WorkerCommand) :
    performAll { run with todo := actions ++ rest, told } (replicate actions.length .act) =
      { actions.foldl carryOut run with todo := rest, told } := by
  induction actions generalizing run with
  | nil => rfl
  | cons action actions ih =>
    have hact : act { run with todo := action :: actions ++ rest, told } =
        { run.carryOut action with todo := actions ++ rest, told } := by
      rw [← carryOut_with]
      exact act_of_isPlain rfl (hplain action mem_cons_self)
    have htail := ih (run.carryOut action) (fun other hoth => hplain other (mem_cons_of_mem _ hoth))
    rw [length_cons, replicate_succ, foldl_cons, ← htail, ← hact]
    rfl

lemma isOwn_of_mem_replicate {count : Nat} {event : WorkerEvent}
    (hevent : event ∈ replicate count .act) : event.IsOwn := by
  rw [eq_of_mem_replicate hevent]
  trivial

lemma foldl_carryOut_rebuilds (run : WorkerRun) (hplain : ∀ action ∈ actions, action.IsPlain) :
    (actions.foldl carryOut run).requested = run.requested ∧
      (actions.foldl carryOut run).rebuilds = run.rebuilds := by
  induction actions generalizing run with
  | nil => exact ⟨rfl, rfl⟩
  | cons action actions ih =>
    have hone : (run.carryOut action).requested = run.requested ∧
        (run.carryOut action).rebuilds = run.rebuilds := by
      have hac := hplain action mem_cons_self
      cases action with
      | reload path =>
        simp only [carryOut]
        split <;> exact ⟨rfl, rfl⟩
      | spawn root => exact hac.elim
      | stop => exact hac.elim
      | _ => exact ⟨rfl, rfl⟩
    have htail := ih (run.carryOut action) (fun other hoth => hplain other (mem_cons_of_mem _ hoth))
    rw [foldl_cons]
    exact ⟨htail.1.trans hone.1, htail.2.trans hone.2⟩

lemma IsIdle.foldl_carryOut (hidle : run.IsIdle) (hplain : ∀ action ∈ actions, action.IsPlain)
    (told : List WorkerCommand) :
    ({ actions.foldl carryOut run with todo := [], told } : WorkerRun).IsIdle := by
  obtain ⟨hrequested, hrebs⟩ := foldl_carryOut_rebuilds run hplain
  exact ⟨rfl, hrequested.trans hidle.requested, hrebs.trans hidle.rebuilds⟩

lemma toWorker_carryOut_reload (run : WorkerRun) (path : Path) :
    (run.carryOut (.reload path)).toWorker = run.toWorker.reload path := by
  simp only [carryOut, Worker.reload, Workspace.reload, toWorker]
  cases readSource run.disk path with
  | ok text | error _ => rfl

lemma mem_dueActions : action ∈ run.dueActions time ↔ ∃ entry ∈ run.pending, entry.2.due ≤ time ∧
        (action = .cancel entry.1 ∨ action = .parse entry.1 entry.2.text) := by
  simp [dueActions, and_assoc]

lemma isPlain_of_mem_dueActions (hac : action ∈ run.dueActions time) : action.IsPlain := by
  obtain ⟨entry, -, -, rfl | rfl⟩ := mem_dueActions.mp hac
  · trivial
  · trivial

lemma toWorker_foldl_due (run : WorkerRun) (entries : PathMap PendingChange) :
    ((entries.flatMap fun entry =>
        [WorkerAction.cancel entry.1, .parse entry.1 entry.2.text]).foldl carryOut run).toWorker =
      entries.foldl (fun worker entry => worker.parse entry.1 entry.2.text) { run.toWorker with
          pending := entries.foldl (fun pending entry => pending.erase entry.1) run.pending } := by
  induction entries generalizing run with
  | nil => rfl
  | cons entry entries ih =>
    rw [flatMap_cons, foldl_append, ih]
    rfl

lemma foldl_erase_eq_filter (entries removed : PathMap PendingChange) :
    removed.foldl (fun pending entry => pending.erase entry.1) entries = entries.filter fun entry =>
        removed.all fun other => !entry.1.same other.1 := by
  induction removed generalizing entries with
  | nil => exact (filter_eq_self.mpr fun _ _ => rfl).symm
  | cons other removed ih =>
    rw [foldl_cons, ih, PathMap.erase, filter_filter]
    simp [Bool.and_comm]

def HasDistinctChanges (run : WorkerRun) : Prop :=
  run.pending.Pairwise fun first second => first.1.same second.1 = false

section

variable (hdist : run.HasDistinctChanges)
include hdist

lemma HasDistinctChanges.eq_of_same
    {first second : Path × PendingChange} (hfirst : first ∈ run.pending)
    (hsnd : second ∈ run.pending) (hsame : first.1.same second.1) : first = second := by
  have : Std.Symm fun first second : Path × PendingChange => first.1.same second.1 = false :=
    ⟨fun a b h => (Path.same_comm b.1 a.1).trans h⟩
  by_contra hne
  have hoth := Pairwise.forall hdist hfirst hsnd hne
  rw [hsame] at hoth
  cases hoth

lemma HasDistinctChanges.foldl_erase_due (time : Nat) :
    (run.pending.filter fun entry => entry.2.due ≤ time).foldl
        (fun pending entry => pending.erase entry.1) run.pending =
      run.pending.filter fun entry => time < entry.2.due := by
  rw [foldl_erase_eq_filter]
  apply filter_congr
  intro entry hentry
  rw [Bool.eq_iff_iff]
  simp only [all_eq_true, mem_filter, decide_eq_true_eq, Bool.not_eq_true']
  constructor
  · intro hkept
    by_contra hdue
    have hoth := hkept entry ⟨hentry, Nat.le_of_not_lt hdue⟩
    rw [Path.same_self] at hoth
    cases hoth
  · rintro hlater other ⟨hoth, hdue⟩
    by_contra hsame
    have heq := hdist.eq_of_same hentry hoth (eq_true_of_ne_false hsame)
    rw [heq] at hlater
    exact Nat.not_le_of_lt hlater hdue

lemma toWorker_foldl_dueActions (time : Nat) :
    ((run.dueActions time).foldl carryOut run).toWorker = run.toWorker.applyDue time := by
  rw [dueActions, toWorker_foldl_due, hdist.foldl_erase_due]
  rfl

end

lemma endsAs_of_actions {event : WorkerEvent} {told : List WorkerCommand} (hidle : run.IsIdle)
    (hplain : ∀ action ∈ actions, action.IsPlain)
    (hevent : run.perform event = { run with todo := actions ++ [], told }) :
    run.EndsAs event (actions.foldl carryOut run).toWorker := by
  have hdone := performAll_act run hplain [] told
  rw [← hevent] at hdone
  refine ⟨replicate actions.length .act, ?_, ?_, ?_⟩
  · intro own hown
    exact isOwn_of_mem_replicate hown
  · have hworker := congrArg toWorker hdone
    exact hworker
  · intro _
    have hend := hidle.foldl_carryOut hplain told
    rwa [← hdone] at hend

lemma endsAs_applyDue (hidle : run.IsIdle) (hdist : run.HasDistinctChanges) :
    run.EndsAs .wake (run.toWorker.applyDue run.now) := by
  have hwake : run.perform .wake =
      { run with todo := run.dueActions run.now ++ [], told := run.told } := by
    simp only [perform, hidle.todo, append_nil]
  rw [← toWorker_foldl_dueActions hdist run.now]
  exact endsAs_of_actions hidle (fun action hac => isPlain_of_mem_dueActions hac) hwake

lemma endsAs_of_plain (hidle : run.IsIdle) (hprog : run.program command = actions)
    (hplain : ∀ action ∈ actions, action.IsPlain) :
    run.EndsAs (.receive command) (actions.foldl carryOut run).toWorker := by
  have hreceive : run.perform (.receive command) =
      { run with todo := actions ++ [], told := command :: run.told } := by
    simp only [perform, hidle.todo, hprog, append_nil]
  exact endsAs_of_actions hidle hplain hreceive

lemma performAll_rebuild (run : WorkspaceRun) (hrebs : run.rebuilds = []) {normal : Path}
    (hroot : Workspace.rebuildRoot run.disk root = .ok normal) :
    let generation := run.workspace.generation + 1
    let rebuilt := run.performAll [.beginRebuild normal,
      .collectTables generation, .commitRebuild generation]
    (rebuilt.workspace, rebuilt.disk) = (run.workspace.fullRebuild run.disk root).2 ∧
      rebuilt.rebuilds = [] := by
  intro generation rebuilt
  simp [rebuilt, generation, WorkspaceRun.performAll, WorkspaceRun.perform,
    WorkspaceRun.beginRebuild, WorkspaceRun.collectTables,
    WorkspaceRun.commitRebuild, WorkspaceRun.rebuild?,
    WorkspaceRun.otherRebuilds, hrebs, Workspace.beginRebuild, Workspace.fullRebuild, hroot]

lemma endsAs_rebuild (hidle : run.IsIdle) (hprog : run.program command = [.spawn root]) :
    run.EndsAs (.receive command) (run.toWorker.rebuild root) := by
  have hspawn : (run.perform (.receive command)).perform .act = { run with
        todo := []
        requested := [root]
        told := command :: run.told } := by
    simp only [perform, act, carryOut, hidle.todo, hprog, hidle.requested, nil_append]
  let generation := run.workspace.generation + 1
  cases hroot : Workspace.rebuildRoot run.disk root with
  | error problem =>
    refine ⟨[.act, .beginRebuild 0], by simp [WorkerEvent.IsOwn], ?_⟩
    simp only [performAll, foldl_cons, foldl_nil, hspawn]
    simp only [perform, beginRequested, getElem?_cons_zero, hroot]
    constructor
    · simp [toWorker, Worker.rebuild, Workspace.fullRebuild, hroot]
    · exact fun _ => ⟨rfl, rfl, hidle.rebuilds⟩
  | ok normal =>
    refine ⟨[.act, .beginRebuild 0, .collectTables generation,
      .commitRebuild generation], by simp [WorkerEvent.IsOwn], ?_⟩
    simp only [performAll, foldl_cons, foldl_nil, hspawn]
    simp only [perform, beginRequested, getElem?_cons_zero, hroot]
    obtain ⟨hstate, hended⟩ := performAll_rebuild run.toWorkspaceRun hidle.rebuilds hroot
    constructor
    · simp only [toWorker, Worker.rebuild, Worker.mk.injEq]
      exact ⟨congrArg Prod.fst hstate, congrArg Prod.snd hstate, rfl⟩
    · exact fun _ => ⟨rfl, rfl, hended⟩

lemma endsAs_flush (hidle : run.IsIdle) (hdist : run.HasDistinctChanges) :
    run.EndsAs (.receive .flush) (run.toWorker.applyDue (run.now + flushHorizon)) := by
  let actions := run.dueActions (run.now + flushHorizon)
  have hplain (action) (hac : action ∈ actions) := isPlain_of_mem_dueActions hac
  have hreceive : run.perform (.receive .flush) =
      { run with todo := actions ++ [.reply], told := .flush :: run.told } := by
    simp only [perform, hidle.todo]
    rfl
  have hdone := performAll_act run hplain [.reply] (.flush :: run.told)
  rw [← hreceive] at hdone
  obtain ⟨hrequested, hrebs⟩ := foldl_carryOut_rebuilds run hplain
  have hreply : (run.perform (.receive .flush)).performAll
          (replicate actions.length WorkerEvent.act ++ [WorkerEvent.act]) =
        { actions.foldl carryOut run with
          todo := []
          told := .flush :: run.told } := by
    rw [performAll_append, hdone]
    simp [performAll, perform, act, hrequested, hrebs, hidle.requested, hidle.rebuilds]
  refine ⟨replicate actions.length .act ++ [.act], ?_, ?_, ?_⟩
  · intro own hown
    rw [← replicate_succ'] at hown
    exact isOwn_of_mem_replicate hown
  · have hworker := congrArg toWorker hreply
    exact hworker.trans (toWorker_foldl_dueActions hdist _)
  · intro _
    have hend := hidle.foldl_carryOut hplain (.flush :: run.told)
    rwa [← hreply] at hend

lemma endsAs_receive (hidle : run.IsIdle) (hdist : run.HasDistinctChanges)
    (command : WorkerCommand) :
    run.EndsAs (.receive command) (run.toWorker.receive run.now command) := by
  have hplainly {actions : List WorkerAction} (hprog : run.program command = actions)
      (hplain : ∀ action ∈ actions, action.IsPlain)
      (hworker : (actions.foldl carryOut run).toWorker = run.toWorker.receive run.now command) :
      run.EndsAs (.receive command) (run.toWorker.receive run.now command) :=
    hworker ▸ endsAs_of_plain hidle hprog hplain
  cases command with
  | opened path text | changed path text | deleted path =>
    exact hplainly rfl (by simp [program, WorkerAction.IsPlain]) rfl
  | saved path text? =>
    cases htext : run.toWorker.savedText? path text? with
    | some text =>
      apply hplainly (by simp only [program, htext]; rfl) (by simp [WorkerAction.IsPlain])
      simp only [Worker.receive, htext]
      rfl
    | none =>
      apply hplainly (by simp only [program, htext]; rfl) (by simp [WorkerAction.IsPlain])
      simp only [Worker.receive, htext]
      exact toWorker_carryOut_reload _ path
  | closed path =>
    apply hplainly rfl (by simp [program, WorkerAction.IsPlain])
    exact toWorker_carryOut_reload _ path
  | rebuild root? =>
    cases hroot : root? <|> run.workspace.root? with
    | none =>
      apply hplainly (by simp only [program, hroot]; rfl) (by simp)
      simp only [Worker.receive, toWorker, hroot]
      rfl
    | some root =>
      have hprog : run.program (.rebuild root?) = [.spawn root] := by
        simp only [program, hroot]
      have hreceive : run.toWorker.receive run.now (.rebuild root?) =
          run.toWorker.rebuild root := by
        simp only [Worker.receive, toWorker, hroot]
      rw [hreceive]
      exact endsAs_rebuild hidle hprog
  | flush => exact endsAs_flush hidle hdist
  | shutdown =>
    refine ⟨[.act], by simp [WorkerEvent.IsOwn], ?_, fun h => absurd rfl h⟩
    simp only [performAll, foldl_cons, foldl_nil, perform, hidle.todo]
    rfl

end WorkerRun

end BslInsight
