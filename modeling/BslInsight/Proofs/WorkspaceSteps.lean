import BslInsight.Proofs.PathLookup

/-!
# What single workspace operations do

One lemma for each operation and each part of the state that matters to the
others: the published tables, the edit records, the buffers and the settings.
Later files argue about runs of these operations from the lemmas here and do
not open the operations again.
-/

namespace BslInsight

open List

variable {first second path : Path} {workspace ws : Workspace} (snapshot : Snapshot)

lemma TableMap.get?_congr (tables : TableMap) (hsame : first.same second) :
    tables.get? first = tables.get? second := by
  simp only [TableMap.get?, Path.same_congr_right hsame]

lemma Snapshot.get?_congr (hsame : first.same second) :
    snapshot.get? first = snapshot.get? second :=
  snapshot.tables.get?_congr hsame

lemma Snapshot.get?_withTable (key path : Path) (table : ModuleTable) :
    (snapshot.withTable key table).get? path =
      if key.same path then some table else snapshot.get? path :=
  TableMap.get?_insert snapshot.tables key path table

lemma Snapshot.get?_without (removed path : Path) : (snapshot.without removed).get? path =
      if removed.same path then none else snapshot.get? path :=
  TableMap.get?_erase snapshot.tables removed path

namespace Workspace

lemma parse_congr {first second : Workspace} (hstgs : first.settings = second.settings) :
    first.parse = second.parse := by
  funext path text
  simp [parse, dialectOf, hstgs]

def EditedSince (workspace : Workspace) (start : Nat) (path : Path) : Prop :=
  ∃ entry ∈ workspace.lastEdits, entry.1.same path = true ∧ start < entry.2

def RecordsBounded (workspace : Workspace) : Prop :=
  ∀ entry ∈ workspace.lastEdits, entry.2 ≤ workspace.edits

lemma RecordsBounded.not_editedSince (hbnd : ws.RecordsBounded) (path : Path) :
    ¬ ws.EditedSince ws.edits path := by
  rintro ⟨entry, hentry, -, hlater⟩
  have hle := hbnd entry hentry
  omega

/-! ## Edits -/

lemma editedSince_noteEdit (ws : Workspace) (edited path : Path) {start : Nat}
    (hstart : start ≤ ws.edits) :
    (ws.noteEdit edited).EditedSince start path ↔ edited.same path ∨ ws.EditedSince start path := by
  constructor
  · rintro ⟨entry, hentry, hsame, hlater⟩
    rcases PathMap.mem_insert.mp hentry with ⟨hold, -⟩ | rfl
    · exact .inr ⟨entry, hold, hsame, hlater⟩
    · exact .inl hsame
  · intro hedited
    by_cases hsame : edited.same path
    · exact ⟨(edited, ws.edits + 1), PathMap.mem_insert.mpr (.inr rfl), hsame, by simp only; omega⟩
    · obtain ⟨entry, hentry, hkey, hlater⟩ := hedited.resolve_left hsame
      refine ⟨entry, PathMap.mem_insert.mpr (.inl ⟨hentry, ?_⟩), hkey, hlater⟩
      rw [Path.same_congr_left hkey, Path.same_comm]
      simpa using hsame

lemma RecordsBounded.noteEdit (hbnd : ws.RecordsBounded) (path : Path) :
    (ws.noteEdit path).RecordsBounded := by
  intro entry hentry
  rcases PathMap.mem_insert.mp hentry with ⟨hold, -⟩ | rfl
  · have hle := hbnd entry hold
    simp only [Workspace.noteEdit]
    omega
  · exact Nat.le_refl _

/-- What an update or an eviction does: it decides what is published for the
edited path, leaves a record of that, and keeps everything else. -/
structure IsEdit (before after : Workspace) (edited : Path)
    (effect : Option ModuleTable) : Prop where
  settings : after.settings = before.settings
  generation : after.generation = before.generation
  buffers : after.buffers = before.buffers
  edits : after.edits = before.edits + 1
  snapshotGeneration : after.snapshot.generation = before.snapshot.generation
  get? : ∀ path, after.snapshot.get? path =
      if edited.same path then effect else before.snapshot.get? path
  editedSince : ∀ path start, start ≤ before.edits →
      (after.EditedSince start path ↔ edited.same path = true ∨ before.EditedSince start path)
  recordsBounded : before.RecordsBounded → after.RecordsBounded

lemma isEdit_updateFile (ws : Workspace) (path : Path) (text : String) :
    IsEdit ws (ws.updateFile path text).2 path.normalize (some (ws.parse path.normalize text)) where
  settings := rfl
  generation := rfl
  buffers := rfl
  edits := rfl
  snapshotGeneration := rfl
  get? := fun other => Snapshot.get?_withTable ws.snapshot path.normalize other _
  editedSince := fun other start hstart =>
    editedSince_noteEdit (ws.publish _) path.normalize other hstart
  recordsBounded := fun hbnd => by
    have hpublished := hbnd
    exact hpublished.noteEdit path.normalize

lemma isEdit_evictTable (ws : Workspace) (path : Path) :
    IsEdit ws (ws.evictTable path) path.normalize none := by
  by_cases hcontains : ws.snapshot.contains path.normalize
  · have hevict : ws.evictTable path = (ws.publish (ws.snapshot.without path.normalize)).noteEdit
            path.normalize := by
      simp [evictTable, hcontains]
    have hpublished (hbnd : ws.RecordsBounded) :
        (ws.publish (ws.snapshot.without path.normalize)).RecordsBounded :=
      hbnd
    rw [hevict]
    exact {
      settings := rfl
      generation := rfl
      buffers := rfl
      edits := rfl
      snapshotGeneration := rfl
      get? := Snapshot.get?_without ws.snapshot path.normalize
      editedSince := fun other start hstart =>
        editedSince_noteEdit (ws.publish _) path.normalize other hstart
      recordsBounded := fun hbnd => (hpublished hbnd).noteEdit path.normalize }
  · have hevict : ws.evictTable path = ws.noteEdit path.normalize := by
      simp [evictTable, hcontains]
    rw [hevict]
    refine {
      settings := rfl
      generation := rfl
      buffers := rfl
      edits := rfl
      snapshotGeneration := rfl
      get? := ?_
      editedSince := fun other start hstart => editedSince_noteEdit ws path.normalize other hstart
      recordsBounded := fun hbnd => hbnd.noteEdit path.normalize }
    intro other
    change ws.snapshot.get? other = _
    split
    next hsame =>
      rw [← ws.snapshot.get?_congr hsame]
      simpa [Snapshot.contains] using hcontains
    next => rfl

/-! ## The end of a rebuild -/

lemma get?_keepCurrent (tables : TableMap) (kept path : Path) :
    (keepCurrent snapshot tables kept).get? path =
      if kept.same path then snapshot.get? path else tables.get? path := by
  unfold keepCurrent
  split
  next table htable =>
    rw [TableMap.get?_insert]
    split
    next hsame => rw [← snapshot.get?_congr hsame, htable]
    next => rfl
  next hnone =>
    rw [TableMap.get?_erase]
    split
    next hsame => rw [← snapshot.get?_congr hsame, hnone]
    next => rfl

lemma get?_foldl_keepCurrent (records : PathMap Nat) (tables : TableMap) (path : Path) :
    TableMap.get? (records.foldl (fun tables (kept, _) => keepCurrent snapshot tables kept) tables)
        path =
      if records.any (fun record => record.1.same path) then snapshot.get? path
      else tables.get? path := by
  induction records generalizing tables with
  | nil => rfl
  | cons record rest ih =>
    rw [foldl_cons, ih, get?_keepCurrent, any_cons]
    by_cases hrest : rest.any (fun record => record.1.same path)
    · simp [hrest]
    · cases record.1.same path <;> simp [hrest]

lemma commit_of_ne {ticket : RebuildTicket}
    (hsup : ws.generation ≠ ticket.generation) (tables : TableMap) :
    ws.commit ticket tables = (none, ws) := by
  simp [commit, hsup]

section Commit

variable {workspace ws : Workspace} {ticket : RebuildTicket}

lemma isSome_commit_iff (tables : TableMap) : (ws.commit ticket tables).1.isSome ↔
      ws.generation = ticket.generation := by
  unfold commit
  split
  next hcur => simp [hcur]
  next hsup => simp [hsup]

@[simp] lemma commit_settings (tables : TableMap) :
    (workspace.commit ticket tables).2.settings = workspace.settings := by
  unfold commit
  split <;> rfl

@[simp] lemma commit_generation (tables : TableMap) :
    (workspace.commit ticket tables).2.generation = workspace.generation := by
  unfold commit
  split <;> rfl

@[simp] lemma commit_buffers (tables : TableMap) :
    (workspace.commit ticket tables).2.buffers = workspace.buffers := by
  unfold commit
  split <;> rfl

@[simp] lemma commit_edits (tables : TableMap) :
    (workspace.commit ticket tables).2.edits = workspace.edits := by
  unfold commit
  split <;> rfl

section

variable (hcur : workspace.generation = ticket.generation)
include hcur

lemma commit_snapshot_generation (tables : TableMap) :
    (workspace.commit ticket tables).2.snapshot.generation =
      workspace.generation := by
  simp [commit, hcur, publish]

lemma commit_lastEdits (tables : TableMap) : (workspace.commit ticket tables).2.lastEdits =
      workspace.lastEdits.filter fun entry => ticket.startEdits < entry.2 := by
  simp [commit, hcur]

lemma get?_commit (tables : TableMap) (path : Path) :
    (workspace.commit ticket tables).2.snapshot.get? path =
      if (workspace.lastEdits.filter fun entry => ticket.startEdits < entry.2).any
          (fun entry => entry.1.same path) then
        workspace.snapshot.get? path
      else tables.get? path := by
  simp only [commit, hcur, if_true]
  exact get?_foldl_keepCurrent workspace.snapshot _ tables path

end

lemma any_recent_iff (path : Path) (start : Nat) :
    (ws.lastEdits.filter fun entry => start < entry.2).any (fun entry => entry.1.same path) ↔
      ws.EditedSince start path := by
  simp only [any_eq_true, mem_filter, decide_eq_true_eq, EditedSince]
  constructor
  · rintro ⟨entry, ⟨hentry, hlater⟩, hsame⟩
    exact ⟨entry, hentry, hsame, hlater⟩
  · rintro ⟨entry, hentry, hsame, hlater⟩
    exact ⟨entry, ⟨hentry, hlater⟩, hsame⟩

lemma get?_commit_of_editedSince (hcur : ws.generation = ticket.generation)
    (tables : TableMap) (hedited : ws.EditedSince ticket.startEdits path) :
    (ws.commit ticket tables).2.snapshot.get? path = ws.snapshot.get? path := by
  rw [get?_commit hcur, if_pos ((any_recent_iff path _).mpr hedited)]

lemma get?_commit_of_not_editedSince (hcur : ws.generation = ticket.generation)
    (tables : TableMap) (hedited : ¬ ws.EditedSince ticket.startEdits path) :
    (ws.commit ticket tables).2.snapshot.get? path = tables.get? path := by
  rw [get?_commit hcur, if_neg fun hany => hedited ((any_recent_iff path _).mp hany)]

lemma RecordsBounded.commit (hbnd : ws.RecordsBounded) (tables : TableMap) :
    (ws.commit ticket tables).2.RecordsBounded := by
  by_cases hcur : ws.generation = ticket.generation
  · intro entry hentry
    rw [commit_lastEdits hcur] at hentry
    rw [commit_edits]
    exact hbnd entry (mem_filter.mp hentry).1
  · rw [commit_of_ne hcur]
    exact hbnd

end Commit

end Workspace

end BslInsight
