import BslInsight.Proofs.WorkspaceSteps

/-!
# Runs of a workspace

Edits of single files happen between the three steps of a rebuild, and several rebuilds may be
under way.  The published table of a path can be read off the history: the last edit since the
beginning of the rebuild that committed last decides, or else that rebuild.  For this the edit
records tell which files were edited since the only rebuild that may still commit began.
-/

namespace BslInsight

open List

variable {record : WorkspaceRecord} {generation : Nat} {workspace ws first second : Workspace}
  {path : Path} {run : WorkspaceRun} {rebuild : Rebuild}

structure Rebuild where
  ticket : RebuildTicket
  root : Path
  tables? : Option TableMap

inductive WorkspaceStep where
  | update (path : Path) (text : String)
  | evict (path : Path)
  | openBuffer (path : Path) (text : String)
  | closeBuffer (path : Path)
  | beginRebuild (root : Path)
  | collectTables (generation : Nat)
  | commitRebuild (generation : Nat)
  | changeDisk (disk : Disk)

/-- What a run remembers of a step.  An edit is an update with a text, or an
eviction. -/
inductive WorkspaceRecord where
  | edited (path : Path) (text? : Option String)
  | began (generation : Nat) (root : Path)
  | collected (generation : Nat) (tables : TableMap)
  | committed (generation : Nat)
  | superseded (generation : Nat)

abbrev WorkspaceHistory := List WorkspaceRecord

namespace WorkspaceRecord

def begins (generation : Nat) : WorkspaceRecord → Bool
  | .began other _ => other == generation
  | _ => false

def began? : WorkspaceRecord → Option Nat
  | .began generation _ => some generation
  | _ => none

def committed? : WorkspaceRecord → Option Nat
  | .committed generation => some generation
  | _ => none

def collectedBy? (generation : Nat) : WorkspaceRecord → Option TableMap
  | .collected other tables => if other = generation then some tables else none
  | _ => none

/-- What an edit leaves published for a path, if it is one of that path. -/
def effectOn? (workspace : Workspace) (path : Path) : WorkspaceRecord → Option (Option ModuleTable)
  | .edited file text? =>
    if file.normalize.same path then
      some (text?.map (workspace.parse file.normalize))
    else none
  | _ => none

end WorkspaceRecord

namespace WorkspaceHistory

def since (history : WorkspaceHistory) (generation : Nat) : WorkspaceHistory :=
  history.takeWhile fun record => !record.begins generation

def lastBegan? (history : WorkspaceHistory) : Option Nat := history.findSome? WorkspaceRecord.began?

def lastCommitted? (history : WorkspaceHistory) : Option Nat :=
  history.findSome? WorkspaceRecord.committed?

def collectedBy? (history : WorkspaceHistory) (generation : Nat) : Option TableMap :=
  history.findSome? (WorkspaceRecord.collectedBy? generation)

/-- What the latest edit of a path left published, if there was one. -/
def latestEffect? (workspace : Workspace) (history : WorkspaceHistory)
    (path : Path) : Option (Option ModuleTable) :=
  history.findSome? (WorkspaceRecord.effectOn? workspace path)

/-- What the last writer of a path left: its latest edit since the rebuild
that committed last began, or else that rebuild. -/
def lastWritten (workspace : Workspace) (history : WorkspaceHistory)
    (path : Path) : Option ModuleTable :=
  match history.lastCommitted? with
  | none => (latestEffect? workspace history path).getD none
  | some generation =>
    (latestEffect? workspace (history.since generation) path).getD
      (((history.collectedBy? generation).getD []).get? path)

end WorkspaceHistory

structure WorkspaceRun where
  workspace : Workspace
  disk : Disk
  rebuilds : List Rebuild := []
  history : WorkspaceHistory := []

namespace WorkspaceRun

def rebuild? (run : WorkspaceRun) (generation : Nat) : Option Rebuild :=
  run.rebuilds.find? fun rebuild => rebuild.ticket.generation == generation

def otherRebuilds (run : WorkspaceRun) (generation : Nat) : List Rebuild :=
  run.rebuilds.filter fun rebuild => rebuild.ticket.generation != generation

def beginRebuild (run : WorkspaceRun) (root : Path) : WorkspaceRun :=
  let (ticket, workspace) := run.workspace.beginRebuild root
  { run with
    workspace
    rebuilds := ⟨ticket, root, none⟩ :: run.rebuilds
    history := .began ticket.generation root :: run.history }

def collectTables (run : WorkspaceRun) (generation : Nat) : WorkspaceRun :=
  match run.rebuild? generation with
  | some ⟨ticket, root, none⟩ =>
    let (collected, disk) := run.workspace.collect run.disk root
    { run with
      disk
      rebuilds := ⟨ticket, root, some collected.tables⟩ :: run.otherRebuilds generation
      history := .collected generation collected.tables :: run.history }
  | _ => run

def commitRebuild (run : WorkspaceRun) (generation : Nat) : WorkspaceRun :=
  match run.rebuild? generation with
  | some ⟨ticket, _, some tables⟩ =>
    let (snapshot?, workspace) := run.workspace.commit ticket tables
    { run with
      workspace
      rebuilds := run.otherRebuilds generation
      history := (if snapshot?.isSome then .committed generation
          else .superseded generation) :: run.history }
  | _ => run

def perform (run : WorkspaceRun) : WorkspaceStep → WorkspaceRun
  | .update path text =>
    { run with
      workspace := (run.workspace.updateFile path text).2
      history := .edited path (some text) :: run.history }
  | .evict path =>
    let (workspace, disk) := run.workspace.evictFile run.disk path
    { run with
      workspace
      disk
      history := .edited path none :: run.history }
  | .openBuffer path text => { run with workspace := run.workspace.openBuffer path text }
  | .closeBuffer path => { run with workspace := run.workspace.closeBuffer path }
  | .beginRebuild root => run.beginRebuild root
  | .collectTables generation => run.collectTables generation
  | .commitRebuild generation => run.commitRebuild generation
  | .changeDisk disk => { run with disk }

def performAll (run : WorkspaceRun) (steps : List WorkspaceStep) : WorkspaceRun :=
  steps.foldl perform run

def initial (settings : Settings) (cache? : Option TableCache) (disk : Disk) : WorkspaceRun where
  workspace := { settings, cache? }
  disk

end WorkspaceRun

/-! ## Histories that grow by one record -/

namespace WorkspaceHistory

variable (history : WorkspaceHistory)

lemma since_cons_of_not_begins (hbeg : record.begins generation = false) :
    since (record :: history) generation = record :: history.since generation := by
  simp [since, hbeg]

lemma since_cons_began (generation : Nat) (root : Path) :
    since (.began generation root :: history) generation = [] := by
  simp [since, WorkspaceRecord.begins]

lemma latestEffect?_cons_of_none (hrec : record.effectOn? ws path = none) :
    latestEffect? ws (record :: history) path = latestEffect? ws history path := by
  simp [latestEffect?, hrec]

lemma latestEffect?_cons_edited (ws : Workspace) (file path : Path) (text? : Option String) :
    latestEffect? ws (.edited file text? :: history) path = if file.normalize.same path then
        some (text?.map (ws.parse file.normalize))
      else latestEffect? ws history path := by
  unfold latestEffect?
  rw [findSome?_cons]
  by_cases hsame : file.normalize.same path
  · simp [WorkspaceRecord.effectOn?, hsame]
  · simp [WorkspaceRecord.effectOn?, hsame]

lemma latestEffect?_congr (hstgs : first.settings = second.settings) :
    latestEffect? first = latestEffect? second := by
  funext history path
  unfold latestEffect?
  congr 1
  funext record
  cases record <;> simp [WorkspaceRecord.effectOn?, Workspace.parse_congr hstgs]

lemma lastWritten_congr (hstgs : first.settings = second.settings) :
    lastWritten first = lastWritten second := by
  funext history path
  simp only [lastWritten, latestEffect?_congr hstgs]

lemma lastWritten_cons_edited (ws : Workspace) (file path : Path) (text? : Option String) :
    lastWritten ws (.edited file text? :: history) path = if file.normalize.same path then
        text?.map (ws.parse file.normalize)
      else lastWritten ws history path := by
  have hcmtd : lastCommitted? (.edited file text? :: history) =
      history.lastCommitted? := rfl
  have hcoll (generation : Nat) : collectedBy? (.edited file text? :: history) generation =
        history.collectedBy? generation := rfl
  unfold lastWritten
  rw [hcmtd]
  cases history.lastCommitted? with
  | none =>
    simp only [latestEffect?_cons_edited]
    split <;> rfl
  | some generation =>
    simp only [hcoll]
    rw [since_cons_of_not_begins history rfl, latestEffect?_cons_edited]
    split <;> rfl

lemma lastWritten_cons_of_silent (ws : Workspace) (record : WorkspaceRecord)
    (heff : ∀ path, record.effectOn? ws path = none)
    (hcmtd : record.committed? = none)
    (hoth : ∀ generation, history.lastCommitted? = some generation →
      record.begins generation = false ∧ record.collectedBy? generation = none)
    (path : Path) :
    lastWritten ws (record :: history) path = lastWritten ws history path := by
  have hlast : lastCommitted? (record :: history) = history.lastCommitted? := by
    simp [lastCommitted?, hcmtd]
  unfold lastWritten
  rw [hlast]
  cases hgen : history.lastCommitted? with
  | none => simp only [latestEffect?_cons_of_none history (heff path)]
  | some generation =>
    obtain ⟨hbeg, hcollects⟩ := hoth generation hgen
    have hcoll : collectedBy? (record :: history) generation = history.collectedBy? generation := by
      simp [collectedBy?, hcollects]
    simp only [hcoll]
    rw [since_cons_of_not_begins history hbeg, latestEffect?_cons_of_none _ (heff path)]

/-- An edit since a rebuild began decides, as long as no rebuild that began
later has committed. -/
lemma lastWritten_of_latestEffect?_since {history : WorkspaceHistory}
    {effect : Option ModuleTable} (hnested : ∀ earlier, history.lastCommitted? = some earlier →
      history.since generation <+: history.since earlier)
    (heff : latestEffect? ws (history.since generation) path =
      some effect) : lastWritten ws history path = effect := by
  unfold lastWritten
  cases hcmtd : history.lastCommitted? with
  | none =>
    have hprefix : history.since generation <+: history := takeWhile_prefix _
    have hwhole : latestEffect? ws history path = some effect := hprefix.findSome?_eq_some heff
    simp only [hwhole, Option.getD_some]
  | some earlier =>
    have hearl : latestEffect? ws (history.since earlier) path = some effect :=
      (hnested earlier hcmtd).findSome?_eq_some heff
    simp only [hearl, Option.getD_some]

end WorkspaceHistory

namespace WorkspaceRun

open WorkspaceHistory

lemma mem_of_rebuild?_eq_some (hreb : run.rebuild? generation = some rebuild) :
    rebuild ∈ run.rebuilds ∧ rebuild.ticket.generation = generation := by
  refine ⟨mem_of_find?_eq_some hreb, ?_⟩
  have hfound := find?_some hreb
  simpa using hfound

lemma mem_otherRebuilds : rebuild ∈ run.otherRebuilds generation ↔
      rebuild ∈ run.rebuilds ∧ rebuild.ticket.generation ≠ generation := by
  simp [otherRebuilds]

lemma find?_otherRebuilds (run : WorkspaceRun) (removed generation : Nat) :
    ((run.otherRebuilds removed).find? fun rebuild => rebuild.ticket.generation == generation) =
      if removed = generation then none else run.rebuild? generation := by
  unfold otherRebuilds
  rw [find?_filter]
  split
  next heq =>
    subst removed
    rw [find?_eq_none]
    intro rebuild _
    simp
  next hne =>
    unfold rebuild?
    congr 1
    funext rebuild
    by_cases hgen : rebuild.ticket.generation = generation
    · simp [hgen, Ne.symm hne]
    · simp [hgen]

structure RebuildSound (run : WorkspaceRun) (rebuild : Rebuild) : Prop where
  positive : 0 < rebuild.ticket.generation
  began : rebuild.ticket.generation ≤ run.workspace.generation
  started : rebuild.ticket.startEdits ≤ run.workspace.edits
  recorded : .began rebuild.ticket.generation rebuild.root ∈ run.history
  uncommitted : run.history.lastCommitted? ≠ some rebuild.ticket.generation
  collected : ∀ tables, rebuild.tables? = some tables →
      run.history.collectedBy? rebuild.ticket.generation = some tables

/-- The state of a run agrees with its history.  `tracked` is about the one
rebuild that may still commit: no record that it needs has been dropped. -/
structure Sound (run : WorkspaceRun) : Prop where
  records : run.workspace.RecordsBounded
  rebuilds : ∀ rebuild ∈ run.rebuilds, run.RebuildSound rebuild
  lastBegan : run.history.lastBegan? = if run.workspace.generation = 0 then none
      else some run.workspace.generation
  committed_le : ∀ generation, run.history.lastCommitted? = some generation →
      generation ≤ run.workspace.generation
  nested : ∀ earlier later, earlier ≤ later → later ≤ run.workspace.generation →
      run.history.since later <+: run.history.since earlier
  snapshot_le : run.workspace.snapshot.generation ≤ run.workspace.generation
  tracked : ∀ rebuild, run.rebuild? run.workspace.generation = some rebuild →
      ∀ path, run.workspace.EditedSince rebuild.ticket.startEdits path ↔
        (latestEffect? run.workspace
          (run.history.since run.workspace.generation) path).isSome = true
  published : ∀ path, run.workspace.snapshot.get? path = lastWritten run.workspace run.history path

lemma initial_sound (settings : Settings) (cache? : Option TableCache) (disk : Disk) :
    (initial settings cache? disk).Sound where
  records := by simp [initial, Workspace.RecordsBounded]
  rebuilds := by simp [initial]
  lastBegan := rfl
  committed_le := by simp [initial, lastCommitted?]
  nested := by simp [initial, since]
  snapshot_le := Nat.le_refl 0
  tracked := by simp [initial, rebuild?]
  published := fun _ => rfl

lemma RebuildSound.after {next : WorkspaceRun} (hsound : run.RebuildSound rebuild)
    (hgen : run.workspace.generation ≤ next.workspace.generation)
    (hedits : run.workspace.edits ≤ next.workspace.edits)
    (hhistory : next.history = record :: run.history)
    (hcmtd : record.committed? ≠ some rebuild.ticket.generation)
    (hcoll : record.collectedBy? rebuild.ticket.generation = none) :
    next.RebuildSound rebuild where
  positive := hsound.positive
  began := Nat.le_trans hsound.began hgen
  started := Nat.le_trans hsound.started hedits
  recorded := by
    rw [hhistory]
    exact mem_cons_of_mem _ hsound.recorded
  uncommitted := by
    rw [hhistory, lastCommitted?, findSome?_cons]
    cases hrec : record.committed? with
    | none => exact hsound.uncommitted
    | some generation => rwa [hrec] at hcmtd
  collected := fun tables htabs => by
    rw [hhistory, WorkspaceHistory.collectedBy?, findSome?_cons, hcoll]
    exact hsound.collected tables htabs

lemma Sound.nested_cons (hrun : run.Sound)
    (hbeg : ∀ generation, record.begins generation = false) {earlier later : Nat}
    (hle : earlier ≤ later) (hbound : later ≤ run.workspace.generation) :
    since (record :: run.history) later <+: since (record :: run.history) earlier := by
  rw [since_cons_of_not_begins _ (hbeg later),
    since_cons_of_not_begins _ (hbeg earlier), prefix_cons_inj]
  exact hrun.nested earlier later hle hbound

lemma Sound.afterEdit (hrun : run.Sound) {file : Path} (text? : Option String)
    (hedit : Workspace.IsEdit run.workspace workspace file.normalize
      (text?.map (run.workspace.parse file.normalize))) (disk : Disk) :
    ({ run with
        workspace
        disk
        history := .edited file text? :: run.history } : WorkspaceRun).Sound := by
  have heff := latestEffect?_congr hedit.settings
  have hwritten := lastWritten_congr hedit.settings
  constructor
  · exact hedit.recordsBounded hrun.records
  · intro rebuild hreb
    have hedits : run.workspace.edits ≤ workspace.edits := by
      rw [hedit.edits]
      exact Nat.le_succ _
    exact (hrun.rebuilds rebuild hreb).after
      (Nat.le_of_eq hedit.generation.symm) hedits rfl nofun rfl
  · rw [hedit.generation]
    exact hrun.lastBegan
  · rw [hedit.generation]
    exact hrun.committed_le
  · rw [hedit.generation]
    intro earlier later hle hbound
    exact hrun.nested_cons (fun _ => rfl) hle hbound
  · rw [hedit.snapshotGeneration, hedit.generation]
    exact hrun.snapshot_le
  · rw [hedit.generation]
    intro rebuild hreb path
    have hstarted := (hrun.rebuilds rebuild (mem_of_rebuild?_eq_some hreb).1).started
    rw [hedit.editedSince path _ hstarted, hrun.tracked rebuild hreb path,
      since_cons_of_not_begins _ rfl, heff,
      latestEffect?_cons_edited]
    by_cases hsame : file.normalize.same path
    · simp [hsame]
    · simp [hsame]
  · intro path
    rw [hedit.get? path, hwritten, lastWritten_cons_edited, hrun.published path]

lemma Sound.afterBegin (hrun : run.Sound) (root : Path) : (run.beginRebuild root).Sound := by
  have hcommittedLt : ∀ generation, run.history.lastCommitted? = some generation →
        generation ≠ run.workspace.generation + 1 := by
    intro generation hgen
    have hle := hrun.committed_le generation hgen
    omega
  constructor
  · exact hrun.records
  · intro rebuild hreb
    rcases mem_cons.mp hreb with rfl | hold
    · refine ⟨Nat.succ_pos _, Nat.le_refl _, Nat.le_refl _, mem_cons_self, ?_, ?_⟩
      · intro hcmtd
        exact hcommittedLt _ hcmtd rfl
      · intro tables htabs
        cases htabs
    · exact (hrun.rebuilds rebuild hold).after (Nat.le_succ _) (Nat.le_refl _) rfl nofun rfl
  · rfl
  · intro generation hgen
    exact Nat.le_succ_of_le (hrun.committed_le generation hgen)
  · intro earlier later hle hbound
    change later ≤ run.workspace.generation + 1 at hbound
    change since (.began (run.workspace.generation + 1) root :: run.history) later <+:
      since (.began (run.workspace.generation + 1) root :: run.history) earlier
    by_cases hlater : later = run.workspace.generation + 1
    · rw [hlater, since_cons_began]
      exact nil_prefix
    · have hbeg (generation : Nat) (hgen : generation ≤ run.workspace.generation) :
          WorkspaceRecord.begins generation
            (.began (run.workspace.generation + 1) root) = false := by
        simp only [WorkspaceRecord.begins, beq_eq_false_iff_ne]
        omega
      rw [since_cons_of_not_begins _ (hbeg later (by omega)),
        since_cons_of_not_begins _ (hbeg earlier (by omega)),
        prefix_cons_inj]
      exact hrun.nested earlier later hle (by omega)
  · exact Nat.le_succ_of_le hrun.snapshot_le
  · intro rebuild hreb path
    have hnew : rebuild = ⟨⟨run.workspace.generation + 1, run.workspace.edits⟩, root, none⟩ := by
      simpa [beginRebuild, rebuild?, Workspace.beginRebuild] using hreb.symm
    have hnone : ¬ (run.beginRebuild root).workspace.EditedSince
        run.workspace.edits path := hrun.records.not_editedSince path
    have hsince : (run.beginRebuild root).history.since
        (run.beginRebuild root).workspace.generation = [] :=
      since_cons_began _ _ _
    rw [hnew, hsince]
    simpa [latestEffect?] using hnone
  · intro path
    have hsilent := lastWritten_cons_of_silent run.history run.workspace
      (.began (run.workspace.generation + 1) root)
      (fun _ => rfl) rfl
      (fun generation hgen =>
        ⟨by simpa [WorkspaceRecord.begins] using (hcommittedLt generation hgen).symm, rfl⟩) path
    exact (hrun.published path).trans hsilent.symm

/-! ## Rebuilds that collect and commit -/

lemma collectTables_cases (run : WorkspaceRun) (generation : Nat) :
    run.collectTables generation = run ∨ ∃ ticket root,
        run.rebuild? generation = some ⟨ticket, root, none⟩ ∧
        run.collectTables generation = { run with
            disk := (run.workspace.collect run.disk root).2
            rebuilds := ⟨ticket, root, some (run.workspace.collect run.disk root).1.tables⟩ ::
                run.otherRebuilds generation
            history := .collected generation (run.workspace.collect run.disk root).1.tables ::
                run.history } := by
  unfold collectTables
  split
  next ticket root hreb => exact .inr ⟨ticket, root, hreb, rfl⟩
  next => exact .inl rfl

@[simp] lemma collectTables_workspace (run : WorkspaceRun) (generation : Nat) :
    (run.collectTables generation).workspace = run.workspace := by
  unfold collectTables
  split <;> rfl

lemma commitRebuild_cases (run : WorkspaceRun) (generation : Nat) :
    run.commitRebuild generation = run ∨ ∃ ticket root tables,
        run.rebuild? generation = some ⟨ticket, root, some tables⟩ ∧
        (run.workspace.generation = generation ∧ run.commitRebuild generation = { run with
                workspace := (run.workspace.commit ticket tables).2
                rebuilds := run.otherRebuilds generation
                history := .committed generation :: run.history } ∨
          run.workspace.generation ≠ generation ∧ run.commitRebuild generation = { run with
                rebuilds := run.otherRebuilds generation
                history := .superseded generation :: run.history }) := by
  unfold commitRebuild
  split
  next ticket root tables hreb =>
    have htick : ticket.generation = generation := (mem_of_rebuild?_eq_some hreb).2
    refine .inr ⟨ticket, root, tables, hreb, ?_⟩
    by_cases hcur : run.workspace.generation = generation
    · have hsome := (Workspace.isSome_commit_iff tables).mpr (hcur.trans htick.symm)
      left
      simp only [hsome, if_true]
      exact ⟨hcur, trivial⟩
    · right
      rw [Workspace.commit_of_ne (by rwa [htick])]
      exact ⟨hcur, rfl⟩
  next => exact .inl rfl

section

variable (hrun : run.Sound)
include hrun

lemma Sound.afterCollect (generation : Nat) : (run.collectTables generation).Sound := by
  rcases run.collectTables_cases generation with
    hsame | ⟨ticket, root, hreb, hcollect⟩
  · rw [hsame]
    exact hrun
  obtain ⟨hmem, htick⟩ := mem_of_rebuild?_eq_some hreb
  have hcollector := hrun.rebuilds _ hmem
  simp only at htick
  subst generation
  rw [hcollect]
  constructor
  · exact hrun.records
  · intro rebuild hreb
    rcases mem_cons.mp hreb with rfl | hoth
    · refine ⟨hcollector.positive, hcollector.began, hcollector.started,
        mem_cons_of_mem _ hcollector.recorded, hcollector.uncommitted, ?_⟩
      intro tables htabs
      simp only [Option.some.injEq] at htabs
      subst tables
      simp [WorkspaceHistory.collectedBy?, WorkspaceRecord.collectedBy?]
    · obtain ⟨hold, hne⟩ := mem_otherRebuilds.mp hoth
      exact (hrun.rebuilds rebuild hold).after (Nat.le_refl _) (Nat.le_refl _)
        rfl nofun (if_neg (Ne.symm hne))
  · exact hrun.lastBegan
  · exact hrun.committed_le
  · intro earlier later hle hbound
    exact hrun.nested_cons (fun _ => rfl) hle hbound
  · exact hrun.snapshot_le
  · intro rebuild hfound path
    rw [since_cons_of_not_begins _ rfl, latestEffect?_cons_of_none _ rfl]
    -- Collecting changes neither the edit records nor where a rebuild began.
    by_cases hcur : ticket.generation = run.workspace.generation
    · have hnew : rebuild.ticket = ticket := by
        simp only [rebuild?, find?_cons, hcur, beq_self_eq_true, Option.some.injEq] at hfound
        rw [← hfound]
      rw [hnew]
      rw [hcur] at hreb
      exact hrun.tracked _ hreb path
    · have hoth : run.rebuild? run.workspace.generation = some rebuild := by
        have hcons := hfound
        simp only [rebuild?, find?_cons] at hcons
        rw [beq_eq_false_iff_ne.mpr hcur] at hcons
        simpa [find?_otherRebuilds, hcur] using hcons
      exact hrun.tracked rebuild hoth path
  · intro path
    have hsilent := lastWritten_cons_of_silent run.history run.workspace
      (.collected ticket.generation (run.workspace.collect run.disk root).1.tables)
      (fun _ => rfl) rfl
      (fun generation hgen => ⟨rfl, by
        have hne : ticket.generation ≠ generation := by
          rintro rfl
          exact hcollector.uncommitted hgen
        simp [WorkspaceRecord.collectedBy?, hne]⟩) path
    exact (hrun.published path).trans hsilent.symm

lemma Sound.get?_commit {ticket : RebuildTicket} {root : Path}
    {tables : TableMap} (hcur : run.workspace.generation = generation)
    (hreb : run.rebuild? generation = some ⟨ticket, root, some tables⟩) (path : Path) :
    (run.workspace.commit ticket tables).2.snapshot.get? path = lastWritten run.workspace
        (.committed generation :: run.history) path := by
  obtain ⟨hmem, htick⟩ := mem_of_rebuild?_eq_some hreb
  simp only at htick
  have hcommitter := hrun.rebuilds _ hmem
  have hcmt := hcur.trans htick.symm
  have hcoll := htick ▸ hcommitter.collected tables rfl
  have htracked := hrun.tracked _ (hcur.symm ▸ hreb) path
  rw [hcur] at htracked
  have hwritten : lastWritten run.workspace (.committed generation :: run.history) path =
      (latestEffect? run.workspace
        (run.history.since generation) path).getD (tables.get? path) := by
    change (latestEffect? run.workspace (since (.committed generation :: run.history) generation)
      path).getD (((run.history.collectedBy? generation).getD []).get? path) = _
    rw [hcoll, since_cons_of_not_begins _ rfl, latestEffect?_cons_of_none _ rfl]
    rfl
  rw [hwritten]
  cases heff : latestEffect? run.workspace (run.history.since generation) path with
  | none =>
    rw [heff] at htracked
    exact Workspace.get?_commit_of_not_editedSince hcmt tables
      (fun hedited => by simpa using htracked.mp hedited)
  | some effect =>
    rw [heff] at htracked
    rw [Workspace.get?_commit_of_editedSince hcmt tables (htracked.mpr rfl), hrun.published path]
    apply lastWritten_of_latestEffect?_since _ heff
    intro earlier hearl
    exact hrun.nested earlier generation
      (hcur ▸ hrun.committed_le earlier hearl) (Nat.le_of_eq hcur.symm)

lemma Sound.afterCommit (generation : Nat) : (run.commitRebuild generation).Sound := by
  rcases run.commitRebuild_cases generation with
    hsame | ⟨ticket, root, tables, hreb, hended⟩
  · rw [hsame]
    exact hrun
  obtain ⟨hmem, htick⟩ := mem_of_rebuild?_eq_some hreb
  rcases hended with ⟨hcur, hcmt⟩ | ⟨hsup, hcmt⟩
  · have hgen := hcur.trans htick.symm
    rw [hcmt]
    constructor
    · exact hrun.records.commit tables
    · intro rebuild hoth
      obtain ⟨hold, hne⟩ := mem_otherRebuilds.mp hoth
      have hoth : some generation ≠ some rebuild.ticket.generation :=
        fun h => hne (Option.some.inj h).symm
      exact (hrun.rebuilds rebuild hold).after
        (Nat.le_of_eq (Workspace.commit_generation tables).symm)
        (Nat.le_of_eq (Workspace.commit_edits tables).symm) rfl hoth rfl
    · rw [Workspace.commit_generation]
      exact hrun.lastBegan
    · intro committed hcmtd
      rw [Workspace.commit_generation, hcur]
      exact Nat.le_of_eq (Option.some.inj hcmtd).symm
    · rw [Workspace.commit_generation]
      intro earlier later hle hbound
      exact hrun.nested_cons (fun _ => rfl) hle hbound
    · rw [Workspace.commit_generation]
      exact Nat.le_of_eq (Workspace.commit_snapshot_generation hgen tables)
    · intro rebuild hfound
      rw [Workspace.commit_generation, rebuild?, find?_otherRebuilds, if_pos hcur.symm] at hfound
      cases hfound
    · intro path
      rw [hrun.get?_commit hcur hreb, lastWritten_congr (Workspace.commit_settings tables).symm]
  · rw [hcmt]
    constructor
    · exact hrun.records
    · intro rebuild hoth
      obtain ⟨hold, -⟩ := mem_otherRebuilds.mp hoth
      exact (hrun.rebuilds rebuild hold).after (Nat.le_refl _) (Nat.le_refl _) rfl nofun rfl
    · exact hrun.lastBegan
    · exact hrun.committed_le
    · intro earlier later hle hbound
      exact hrun.nested_cons (fun _ => rfl) hle hbound
    · exact hrun.snapshot_le
    · intro rebuild hfound path
      rw [rebuild?, find?_otherRebuilds, if_neg (Ne.symm hsup)] at hfound
      rw [since_cons_of_not_begins _ rfl, latestEffect?_cons_of_none _ rfl]
      exact hrun.tracked rebuild hfound path
    · intro path
      have hsilent := lastWritten_cons_of_silent run.history run.workspace (.superseded generation)
        (fun _ => rfl) rfl (fun _ _ => ⟨rfl, rfl⟩) path
      exact (hrun.published path).trans hsilent.symm

/-! ## Whole runs -/

lemma Sound.withBuffers (buffers : PathMap String) (disk : Disk) : ({ run with
        workspace := { run.workspace with buffers }
        disk } : WorkspaceRun).Sound := by
  constructor
  · exact hrun.records
  · intro rebuild hreb
    have hsound := hrun.rebuilds rebuild hreb
    exact ⟨hsound.positive, hsound.began, hsound.started, hsound.recorded,
      hsound.uncommitted, hsound.collected⟩
  · exact hrun.lastBegan
  · exact hrun.committed_le
  · exact hrun.nested
  · exact hrun.snapshot_le
  · exact hrun.tracked
  · exact hrun.published

lemma Sound.perform (step : WorkspaceStep) : (run.perform step).Sound := by
  cases step with
  | update path text =>
    have hedit := Workspace.isEdit_updateFile run.workspace path text
    exact hrun.afterEdit (some text) hedit run.disk
  | evict path =>
    have hedit := Workspace.isEdit_evictTable run.workspace path
    exact hrun.afterEdit none hedit _
  | openBuffer path text | closeBuffer path => exact hrun.withBuffers _ run.disk
  | beginRebuild root => exact hrun.afterBegin root
  | collectTables generation => exact hrun.afterCollect generation
  | commitRebuild generation => exact hrun.afterCommit generation
  | changeDisk disk => exact hrun.withBuffers run.workspace.buffers disk

lemma Sound.performAll (steps : List WorkspaceStep) : (run.performAll steps).Sound :=
  foldlRecOn steps _ hrun fun _ hbef step _ => hbef.perform step

lemma Sound.snapshot_generation_le_perform (step : WorkspaceStep) :
    run.workspace.snapshot.generation ≤ (run.perform step).workspace.snapshot.generation := by
  cases step with
  | update path text | openBuffer path text | closeBuffer path | beginRebuild root
  | changeDisk disk => exact Nat.le_refl _
  | evict path =>
    have hedit := Workspace.isEdit_evictTable run.workspace path
    exact Nat.le_of_eq hedit.snapshotGeneration.symm
  | collectTables generation =>
    exact Nat.le_of_eq (by rw [WorkspaceRun.perform, collectTables_workspace])
  | commitRebuild generation =>
    rw [WorkspaceRun.perform]
    rcases run.commitRebuild_cases generation with
      hsame | ⟨ticket, root, tables, hreb, hended⟩
    · exact Nat.le_of_eq (by rw [hsame])
    · have htick := (mem_of_rebuild?_eq_some hreb).2
      rcases hended with ⟨hcur, hcmt⟩ | ⟨-, hcmt⟩
      · rw [hcmt]
        simp only
        rw [Workspace.commit_snapshot_generation (hcur.trans htick.symm)]
        exact hrun.snapshot_le
      · exact Nat.le_of_eq (by rw [hcmt])

lemma Sound.snapshot_generation_le_performAll (steps : List WorkspaceStep) :
    run.workspace.snapshot.generation ≤ (run.performAll steps).workspace.snapshot.generation := by
  induction steps generalizing run with
  | nil => exact Nat.le_refl _
  | cons step rest ih =>
    exact Nat.le_trans (hrun.snapshot_generation_le_perform step) (ih (hrun.perform step))

lemma Sound.isSome_commit_iff_lastBegan? (hreb : rebuild ∈ run.rebuilds) (tables : TableMap) :
    (run.workspace.commit rebuild.ticket tables).1.isSome ↔
      run.history.lastBegan? = some rebuild.ticket.generation := by
  have hpositive := (hrun.rebuilds rebuild hreb).positive
  rw [Workspace.isSome_commit_iff, hrun.lastBegan]
  split
  next hzero =>
    constructor
    · intro hcur
      omega
    · intro hnone
      cases hnone
  next => rw [Option.some.injEq]

end

/-- Last writer wins.  After any run, what is published for a path is what
its last writer left; only the rebuild that began last can commit, any other
commit changes nothing, and the generation of what is published never goes
back. -/
theorem published_by_last_writer (settings : Settings) (cache? : Option TableCache) (disk : Disk)
    (steps : List WorkspaceStep) :
    let run := (initial settings cache? disk).performAll steps
    (∀ path, run.workspace.snapshot.get? path = lastWritten run.workspace run.history path) ∧
      (∀ rebuild ∈ run.rebuilds, ∀ tables,
        (run.workspace.commit rebuild.ticket tables).1.isSome = true ↔
          run.history.lastBegan? = some rebuild.ticket.generation) ∧
      (∀ ticket tables, (run.workspace.commit ticket tables).1 = none →
        (run.workspace.commit ticket tables).2.snapshot = run.workspace.snapshot ∧
          (run.workspace.commit ticket tables).2.lastEdits = run.workspace.lastEdits) ∧
      ∀ later, run.workspace.snapshot.generation ≤
        (run.performAll later).workspace.snapshot.generation := by
  intro run
  have hrun : run.Sound := (initial_sound settings cache? disk).performAll steps
  refine ⟨hrun.published, ?_, ?_, hrun.snapshot_generation_le_performAll⟩
  · intro rebuild hrebuild tables
    exact hrun.isSome_commit_iff_lastBegan? hrebuild tables
  · intro ticket tables hnone
    have hsuperseded : run.workspace.generation ≠ ticket.generation := by
      intro hcurrent
      have hsome := (Workspace.isSome_commit_iff tables).mpr hcurrent
      simp [hnone] at hsome
    rw [Workspace.commit_of_ne hsuperseded]
    exact ⟨rfl, rfl⟩

end WorkspaceRun

end BslInsight
