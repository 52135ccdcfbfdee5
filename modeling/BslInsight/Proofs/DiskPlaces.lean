import BslInsight.Proofs.TextPieces
import BslInsight.Workspace.Sources

/-!
# What a change of one file leaves alone

Writing or removing a file changes what stands at one location.  Directories
are neither made nor lost by it, so every path still leads where it led before,
and all other files are read as before.
-/

namespace BslInsight

open List

variable {content : FileContent} {tree root : FileTree} {next location : List FileName}
  {segment : List UInt8} {disk : Disk} {path : Path} (name : FileName)
  (entries : List (FileName × FileTree))

theorem lookup_filter_ne {α β : Type} [BEq α] [LawfulBEq α] [DecidableEq α] (name other : α)
    (entries : List (α × β)) :
    (entries.filter (·.1 != name)).lookup other =
      if other = name then none else entries.lookup other := by
  induction entries with
  | nil => simp
  | cons entry rest ih =>
    obtain ⟨key, value⟩ := entry
    by_cases hkey : key = name
    · subst key
      simp only [filter_cons, bne_self_eq_false, Bool.false_eq_true, if_false, ih, lookup_cons]
      by_cases hoth : other = name
      · simp [hoth]
      · simp [hoth, beq_eq_false_iff_ne.mpr hoth]
    · simp only [filter_cons, bne_iff_ne, ne_eq, hkey, not_false_eq_true, if_true, lookup_cons, ih]
      by_cases hoth : other = name
      · subst other
        simp [beq_eq_false_iff_ne.mpr (Ne.symm hkey)]
      · simp only [hoth, if_false]

namespace FileTree

def content? : FileTree → Option FileContent
  | .file content => some content
  | .directory _ => none

def look (tree : FileTree) (location : List FileName) : Option (Option FileContent) :=
  (tree.get? location).map content?

@[simp] theorem look_nil (tree : FileTree) : tree.look [] = some tree.content? := by
  cases tree <;> rfl

@[simp] theorem look_file_cons (content : FileContent) (name : FileName) (names : List FileName) :
    (FileTree.file content).look (name :: names) = none := rfl

@[simp] theorem look_directory_cons (name : FileName) (names : List FileName) :
    (FileTree.directory entries).look (name :: names) =
      (entries.lookup name).bind fun child => child.look names := by
  simp only [look, get?, Option.map_bind]
  rfl

theorem lookup_map_replace (other : FileName) (tree : FileTree)
    (entries : List (FileName × FileTree)) :
    (entries.map fun entry => if entry.1 == name then (name, tree) else entry).lookup other =
      if other = name then (entries.lookup name).map fun _ => tree
      else entries.lookup other := by
  induction entries with
  | nil => simp
  | cons entry rest ih =>
    obtain ⟨key, old⟩ := entry
    by_cases hkey : key = name
    · subst key
      by_cases hoth : other = name
      · simp [hoth]
      · simp only [map_cons, beq_self_eq_true, if_true, lookup_cons, ih,
          beq_eq_false_iff_ne.mpr hoth, hoth, if_false]
    · simp only [map_cons, beq_eq_false_iff_ne.mpr hkey, Bool.false_eq_true, if_false,
        lookup_cons, ih]
      by_cases hoth : other = name
      · subst other
        simp [beq_eq_false_iff_ne.mpr (Ne.symm hkey)]
      · simp only [hoth, if_false]

theorem isSome_lookup : (entries.lookup name).isSome = entries.any (·.1 == name) := by
  induction entries with
  | nil => rfl
  | cons entry rest ih =>
    obtain ⟨key, tree⟩ := entry
    by_cases hkey : name = key
    · simp [hkey]
    · simp [lookup_cons, beq_eq_false_iff_ne.mpr hkey, beq_eq_false_iff_ne.mpr (Ne.symm hkey), ih]

theorem lookup_setEntry (other : FileName) (tree : FileTree) (entries : List (FileName × FileTree)) :
    (setEntry name tree entries).lookup other =
      if other = name then some tree else entries.lookup other := by
  unfold setEntry
  rw [← isSome_lookup]
  cases hold : entries.lookup name with
  | some old =>
    apply (lookup_map_replace name other tree entries).trans
    simp [hold]
  | none =>
    simp only [Option.isSome_none, Bool.false_eq_true, if_false, lookup_append]
    by_cases hoth : other = name
    · simp [hoth, hold]
    · simp [lookup_cons, beq_eq_false_iff_ne.mpr hoth, hoth]

theorem look_put? {after : FileTree} (hput : put? (.file content) location tree = some after)
    (hplace : tree.look location ≠ some none) (other : List FileName) :
    after.look other = if other = location then some (some content) else tree.look other := by
  induction location generalizing tree after other with
  | nil =>
    obtain rfl := Option.some.inj hput
    cases tree with
    | directory entries => exact absurd rfl hplace
    | file old =>
      cases other with
      | nil => rfl
      | cons name names => rfl
  | cons name names ih =>
    cases tree with
    | file old => cases hput
    | directory entries =>
      rw [look_directory_cons] at hplace
      simp only [put?] at hput
      cases hchild : entries.lookup name with
      | none =>
        simp only [hchild] at hput
        split at hput
        next hnames =>
          rw [List.isEmpty_iff] at hnames
          subst names
          obtain rfl := Option.some.inj hput
          cases other with
          | nil => rfl
          | cons first rest =>
            rw [look_directory_cons, look_directory_cons, lookup_setEntry]
            by_cases hfirst : first = name
            · subst first
              cases rest with
              | nil => simp [content?]
              | cons next more => simp [hchild]
            · simp [hfirst]
        next => cases hput
      | some child =>
        simp only [hchild, Option.map_eq_some_iff] at hput
        obtain ⟨changed, hchanged, rfl⟩ := hput
        have hbelow := ih hchanged (by simpa [hchild] using hplace)
        cases other with
        | nil => rfl
        | cons first rest =>
          rw [look_directory_cons, look_directory_cons, lookup_setEntry]
          by_cases hfirst : first = name
          · subst first
            simp [hchild, hbelow]
          · simp [hfirst]

theorem look_erase (hne : location ≠ []) (hfile : tree.look location = some (some content))
    (other : List FileName) :
    (erase location tree).look other = if other = location then none else tree.look other := by
  induction location generalizing tree other with
  | nil => exact absurd rfl hne
  | cons name names ih =>
    cases tree with
    | file old => cases hfile
    | directory entries =>
      rw [look_directory_cons, Option.bind_eq_some_iff] at hfile
      obtain ⟨child, hchild, hfile⟩ := hfile
      cases names with
      | nil =>
        cases child with
        | directory below => cases hfile
        | file old =>
          cases other with
          | nil => rfl
          | cons first rest =>
            rw [erase, look_directory_cons, look_directory_cons, lookup_filter_ne]
            by_cases hfirst : first = name
            · subst first
              cases rest with
              | nil => simp
              | cons next more => simp [hchild]
            · simp [hfirst]
      | cons next more =>
        have hbelow := ih (by simp) hfile
        have herase : erase (name :: next :: more) (.directory entries) =
            .directory (setEntry name (erase (next :: more) child) entries) := by
          simp [erase, hchild]
        rw [herase]
        cases other with
        | nil => rfl
        | cons first rest =>
          rw [look_directory_cons, look_directory_cons, lookup_setEntry]
          by_cases hfirst : first = name
          · subst first
            simp [hchild, hbelow]
          · simp [hfirst]

theorem look_nil_of_look (hplace : tree.look location = some none) : tree.look [] = some none := by
  cases tree with
  | directory entries => rfl
  | file content => cases location <;> cases hplace

end FileTree

def FileContent.source? : FileContent → Option String
  | .bytes data => some (decodeSource data)
  | .stored .. => some (decodeSource [])
  | .unreadable => none

namespace Disk

def follow (location : List FileName) (segment : List UInt8) : List FileName :=
  if segment = [] ∨ segment = [dotByte] then location
  else if segment = [dotByte, dotByte] then location.dropLast
  else location ++ [segment]

theorem step_eq_ok_iff : step root location segment = .ok next ↔
      root.look location = some none ∧ follow location segment = next := by
  unfold step FileTree.look follow
  cases root.get? location with
  | none => simp
  | some tree =>
    cases tree with
    | file content => simp [FileTree.content?]
    | directory entries =>
      simp only [Option.map_some, FileTree.content?, true_and]
      split
      · simp
      · split <;> simp

theorem foldlM_step_cons_iff {segments : List (List UInt8)} :
    (segment :: segments).foldlM (step root) location = .ok next ↔ root.look location = some none ∧
        segments.foldlM (step root) (follow location segment) = .ok next := by
  rw [foldlM_cons]
  constructor
  · intro hfold
    cases hstep : step root location segment with
    | error failure =>
      rw [hstep] at hfold
      cases hfold
    | ok reached =>
      rw [hstep] at hfold
      obtain ⟨hplace, rfl⟩ := step_eq_ok_iff.mp hstep
      exact ⟨hplace, hfold⟩
  · rintro ⟨hplace, hfold⟩
    rw [step_eq_ok_iff.mpr ⟨hplace, rfl⟩]
    exact hfold

theorem foldlM_step_congr {first second : FileTree}
    (hplaces : ∀ location, first.look location = some none ↔ second.look location = some none)
    (segments : List (List UInt8)) (location next : List FileName) :
    segments.foldlM (step first) location = .ok next ↔
      segments.foldlM (step second) location = .ok next := by
  induction segments generalizing location with
  | nil => rfl
  | cons segment rest ih => rw [foldlM_step_cons_iff, foldlM_step_cons_iff, hplaces, ih]

theorem look_nil_of_locate (hloc : disk.locate path = .ok location) :
    disk.root.look [] = some none := by
  unfold locate at hloc
  split at hloc
  next => cases hloc
  next hbytes =>
    obtain ⟨segment, segments, hsegs⟩ := exists_cons_of_ne_nil (splitOn_ne_nil slashByte path.bytes)
    rw [hsegs, foldlM_step_cons_iff] at hloc
    exact FileTree.look_nil_of_look hloc.1

theorem lookup_eq_ok_iff : disk.lookup path = .ok tree ↔
      ∃ location, disk.locate path = .ok location ∧ disk.root.get? location = some tree := by
  unfold lookup
  cases disk.locate path with
  | error failure =>
    constructor
    · intro hlk
      cases hlk
    · rintro ⟨location, hloc, -⟩
      cases hloc
  | ok location =>
    constructor
    · intro hlk
      refine ⟨location, rfl, ?_⟩
      cases hget : disk.root.get? location with
      | none =>
        simp only [bind, Except.bind, hget] at hlk
        cases hlk
      | some found =>
        simp only [bind, Except.bind, hget, Except.ok.injEq] at hlk
        rw [hlk]
    · rintro ⟨other, hoth, hget⟩
      obtain rfl := Except.ok.inj hoth
      simp only [bind, Except.bind, hget]

theorem lookup_file_iff : disk.lookup path = .ok (.file content) ↔
      ∃ location, disk.locate path = .ok location ∧
        disk.root.look location = some (some content) := by
  rw [lookup_eq_ok_iff]
  apply exists_congr
  intro location
  apply and_congr_right
  intro _
  unfold FileTree.look
  cases disk.root.get? location with
  | none => simp
  | some tree => cases tree <;> simp [FileTree.content?]

theorem readSource_eq_ok_iff {text : String} : readSource disk path = .ok text ↔
      ∃ content, disk.lookup path = .ok (.file content) ∧ content.source? = some text := by
  unfold readSource readBytes
  cases hlk : disk.lookup path with
  | error failure => simp [bind, Except.bind]
  | ok tree =>
    cases tree with
    | directory entries => simp [bind, Except.bind]
    | file content => cases content <;> simp [bind, Except.bind, FileContent.source?]

/-- The only difference between two disks is what stands at one location, where
neither has a directory. -/
structure ChangesFile
    (before after : Disk) (location : List FileName) (content? : Option FileContent) : Prop where
  workingDir : after.workingDir = before.workingDir
  place : before.root.look location ≠ some none
  look : ∀ other, after.root.look other =
      if other = location then content?.map some else before.root.look other

namespace ChangesFile

variable {before after : Disk} {location : List FileName} {content? : Option FileContent}

variable (hchgs : ChangesFile before after location content?)
include hchgs

theorem directory_iff (other : List FileName) :
    after.root.look other = some none ↔ before.root.look other = some none := by
  rw [hchgs.look]
  split
  next hoth =>
    subst other
    constructor
    · cases content? <;> simp
    · intro hplace
      exact absurd hplace hchgs.place
  next => rfl

theorem locate_iff {found : List FileName} :
    after.locate path = .ok found ↔ before.locate path = .ok found := by
  unfold locate start
  rw [hchgs.workingDir]
  split
  next => rfl
  next => exact foldlM_step_congr hchgs.directory_iff _ _ _

theorem lookup_file (hlk : after.lookup path = .ok (.file content)) :
    content? = some content ∨ before.lookup path = .ok (.file content) := by
  obtain ⟨found, hloc, hlook⟩ := lookup_file_iff.mp hlk
  rw [hchgs.look] at hlook
  split at hlook
  next =>
    left
    simpa using hlook
  next =>
    right
    exact lookup_file_iff.mpr ⟨found, hchgs.locate_iff.mp hloc, hlook⟩

theorem readSource_iff (hpath : before.locate path ≠ .ok location) (text : String) :
    readSource after path = .ok text ↔ readSource before path = .ok text := by
  rw [readSource_eq_ok_iff, readSource_eq_ok_iff]
  apply exists_congr
  intro content
  apply and_congr_left
  intro _
  rw [lookup_file_iff, lookup_file_iff]
  apply exists_congr
  intro found
  rw [hchgs.locate_iff]
  apply and_congr_right
  intro hloc
  have hoth : found ≠ location := by
    rintro rfl
    exact hpath hloc
  rw [hchgs.look, if_neg hoth]

end ChangesFile

theorem changesFile_write {after : Disk} (hwrite : disk.write path content = .ok after) :
    ∃ location, disk.locate path = .ok location ∧
      ChangesFile disk after location (some content) := by
  unfold write at hwrite
  cases hloc : disk.locate path with
  | error failure =>
    simp only [hloc, bind, Except.bind] at hwrite
    cases hwrite
  | ok location =>
    simp only [hloc, bind, Except.bind] at hwrite
    refine ⟨location, rfl, ?_⟩
    have hput {root : FileTree} (hplace : disk.root.look location ≠ some none)
        (hroot : FileTree.put? (.file content) location disk.root = some root) :
        ChangesFile disk { disk with root } location (some content) :=
      { workingDir := rfl
        place := hplace
        look := FileTree.look_put? hroot hplace }
    split at hwrite
    next => cases hwrite
    next => cases hwrite
    next hdrct _ =>
      split at hwrite
      next root hroot =>
        obtain rfl := Except.ok.inj hwrite
        apply hput _ hroot
        intro hplace
        obtain ⟨tree, htree, hcontent⟩ := Option.map_eq_some_iff.mp hplace
        cases tree with
        | file old => cases hcontent
        | directory entries => exact hdrct entries htree
      next => cases hwrite

theorem changesFile_removeFile {after : Disk} (hrem : disk.removeFile path = .ok after) :
    ∃ location, disk.locate path = .ok location ∧ ChangesFile disk after location none := by
  unfold removeFile at hrem
  cases hlk : disk.lookup path with
  | error failure =>
    simp only [hlk, bind, Except.bind] at hrem
    cases hrem
  | ok tree =>
    cases tree with
    | directory entries =>
      simp only [hlk, bind, Except.bind] at hrem
      cases hrem
    | file content =>
      obtain ⟨location, hloc, hlook⟩ := lookup_file_iff.mp hlk
      simp only [hlk, hloc, bind, Except.bind, Except.ok.injEq] at hrem
      subst after
      have hne : location ≠ [] := by
        rintro rfl
        rw [look_nil_of_locate hloc] at hlook
        cases hlook
      refine ⟨location, hloc, ?_⟩
      exact
        { workingDir := rfl
          place := by simp [hlook]
          look := FileTree.look_erase hne hlook }

end Disk

end BslInsight
