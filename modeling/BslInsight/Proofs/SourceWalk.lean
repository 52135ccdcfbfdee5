import BslInsight.Proofs.DiskPlaces
import BslInsight.Proofs.PathNormalization

/-!
# What the walk below a root finds

A rebuild walks the directories below its root, and everything else asks for
files by their path.  In a proper tree both see the same files: the walk lists
a file under the names that lead to it, unless one of the directories on the way
is left out.
-/

namespace BslInsight

open List

variable {entries : List (FileName × FileTree)} {name : FileName} {below tree : FileTree}
  {names : List FileName} {place : Option FileContent} {content : FileContent} {path root : Path}
  {components : List Component}

instance (component : Component) : Decidable component.IsPlain := match component with
  | .root => isFalse id
  | .current => isFalse id
  | .parent => isTrue trivial
  | .name _ => inferInstanceAs (Decidable (_ ∧ _))

/-! ## Trees -/

namespace FileTree

/-- The names in a directory are plain, and no two entries share one. -/
inductive IsProper : FileTree → Prop
  | file (content : FileContent) : IsProper (.file content)
  | directory {entries : List (FileName × FileTree)} (hnames : (entries.map Prod.fst).Nodup)
      (hplain : ∀ entry ∈ entries, (Component.name entry.1).IsPlain)
      (hbelow : ∀ entry ∈ entries, entry.2.IsProper) : IsProper (.directory entries)

lemma lookup_eq_some_iff (hnames : (entries.map Prod.fst).Nodup) :
    entries.lookup name = some tree ↔ (name, tree) ∈ entries := by
  induction entries with
  | nil => simp
  | cons entry rest ih =>
    obtain ⟨key, child⟩ := entry
    rw [map_cons, nodup_cons] at hnames
    rw [lookup_cons, mem_cons, Prod.mk.injEq]
    by_cases hkey : name = key
    · subst key
      have hfresh : (name, tree) ∉ rest := by
        intro hmem
        exact hnames.1 (mem_map.mpr ⟨(name, tree), hmem, rfl⟩)
      simp [hfresh, eq_comm]
    · simp [beq_eq_false_iff_ne.mpr hkey, hkey, ih hnames.2]

lemma get?_append (tree : FileTree) (names others : List FileName) :
    tree.get? (names ++ others) = (tree.get? names).bind (get? others) := by
  induction names generalizing tree with
  | nil => cases tree <;> rfl
  | cons name rest ih =>
    cases tree with
    | file content => rfl
    | directory entries =>
      rw [cons_append, get?, get?]
      cases entries.lookup name with
      | none => rfl
      | some child => exact ih child

lemma look_append (hget : tree.get? names = some below) (others : List FileName) :
    tree.look (names ++ others) = below.look others := by
  simp [look, get?_append, hget]

lemma look_eq_none_none_of_append {rest : List FileName}
    (hlook : tree.look (names ++ name :: rest) = some place) : tree.look names = some none := by
  unfold look at hlook ⊢
  rw [get?_append] at hlook
  cases hget : tree.get? names with
  | none => simp [hget] at hlook
  | some below =>
    cases below with
    | file content => simp [hget, get?] at hlook
    | directory entries => rfl

lemma IsProper.get? (hprop : tree.IsProper) (hget : tree.get? names = some below) :
    below.IsProper := by
  induction names generalizing tree with
  | nil => cases tree <;> cases hget <;> exact hprop
  | cons name rest ih =>
    cases hprop with
    | file content => cases hget
    | @directory entries hnames hplain hbelow =>
      obtain ⟨child, hchild, hrest⟩ := Option.bind_eq_some_iff.mp hget
      exact ih (hbelow _ ((lookup_eq_some_iff hnames).mp hchild)) hrest

lemma IsProper.isPlain (hprop : tree.IsProper) (hlook : tree.look names = some place) :
    ∀ name ∈ names, (Component.name name).IsPlain := by
  induction names generalizing tree with
  | nil => simp
  | cons first rest ih =>
    cases hprop with
    | file content => cases hlook
    | @directory entries hnames hplain hbelow =>
      rw [look_directory_cons] at hlook
      obtain ⟨child, hchild, hrest⟩ := Option.bind_eq_some_iff.mp hlook
      have hentry := (lookup_eq_some_iff hnames).mp hchild
      intro name hname
      rcases mem_cons.mp hname with rfl | hname
      · exact hplain _ hentry
      · exact ih (hbelow _ hentry) hrest name hname

lemma mem_entryFiles_iff {skip : FileName → Bool} : (names, content) ∈ entryFiles skip entries ↔
      ∃ entry ∈ entries, ∃ rest, names = entry.1 :: rest ∧
        (entry.2.isDirectory → skip entry.1 = false) ∧
        (rest, content) ∈ files skip entry.2 := by
  induction entries with
  | nil => simp [entryFiles]
  | cons entry others ih =>
    obtain ⟨key, child⟩ := entry
    rw [entryFiles, mem_append, ih]
    simp only [mem_cons, exists_eq_or_imp]
    apply or_congr_left
    by_cases hskip : (child.isDirectory && skip key)
    · simp only [hskip, if_true, not_mem_nil, false_iff]
      rintro ⟨rest, -, henter, -⟩
      rw [Bool.and_eq_true] at hskip
      rw [henter hskip.1] at hskip
      cases hskip.2
    · have henter : child.isDirectory → skip key = false := by
        intro hdrct
        simpa [hdrct] using hskip
      simp only [hskip, Bool.false_eq_true, if_false, mem_map, Prod.mk.injEq]
      constructor
      · rintro ⟨⟨rest, found⟩, hfound, rfl, rfl⟩
        exact ⟨rest, rfl, henter, hfound⟩
      · rintro ⟨rest, rfl, -, hfound⟩
        exact ⟨(rest, content), hfound, rfl, rfl⟩

/-- The walk lists the files that can be looked up, except below directories that
are skipped. -/
lemma mem_files_iff (hprop : tree.IsProper) {skip : FileName → Bool} :
    (names, content) ∈ files skip tree ↔
      tree.look names = some (some content) ∧ ∀ name ∈ names.dropLast, skip name = false := by
  induction names generalizing tree with
  | nil =>
    cases tree with
    | file found =>
      simp only [files, mem_singleton, Prod.mk.injEq, true_and, look_nil, content?,
        Option.some.injEq, dropLast_nil, not_mem_nil, false_implies, implies_true,
        and_true]
      exact eq_comm
    | directory entries => simp [files, mem_entryFiles_iff, content?]
  | cons name rest ih =>
    cases hprop with
    | file found => simp [files]
    | @directory entries hnames hplain hbelow =>
      rw [files, mem_entryFiles_iff, look_directory_cons]
      constructor
      · rintro ⟨⟨key, child⟩, hentry, others, heq, henter, hfound⟩
        obtain ⟨rfl, rfl⟩ := List.cons.inj heq
        obtain ⟨hlook, hskip⟩ := (ih (hbelow _ hentry)).mp hfound
        rw [(lookup_eq_some_iff hnames).mpr hentry]
        refine ⟨hlook, ?_⟩
        intro other hoth
        cases rest with
        | nil => cases hoth
        | cons next more =>
          rw [dropLast_cons_cons, mem_cons] at hoth
          rcases hoth with rfl | hoth
          · apply henter
            -- Something lies below the entry, so it is a directory.
            cases child with
            | file found => cases hlook
            | directory below => rfl
          · exact hskip other hoth
      · rintro ⟨hlook, hskip⟩
        obtain ⟨child, hchild, hrest⟩ := Option.bind_eq_some_iff.mp hlook
        have hentry := (lookup_eq_some_iff hnames).mp hchild
        refine ⟨(name, child), hentry, rest, rfl, ?_, ?_⟩
        · intro hdrct
          cases rest with
          | nil =>
            cases child with
            | file found => cases hdrct
            | directory below => cases hrest
          | cons next more =>
            apply hskip
            simp
        · apply (ih (hbelow _ hentry)).mpr
          refine ⟨hrest, ?_⟩
          intro other hoth
          apply hskip
          cases rest with
          | nil => cases hoth
          | cons next more =>
            rw [dropLast_cons_cons]
            exact mem_cons_of_mem _ hoth

end FileTree

/-! ## Paths below a directory -/

namespace Path

lemma isAbsolute_name (hname : (Component.name name).IsPlain) :
    (Path.mk name).isAbsolute = false := by
  rw [Bool.eq_false_iff]
  intro habs
  exact hname.2.2.2 (mem_of_mem_head? (by simpa [isAbsolute] using habs))

lemma bytes_join (hpath : path.bytes ≠ []) (hname : (Component.name name).IsPlain) :
    (∃ head, path.bytes = head ++ [slashByte] ∧
        (path.join ⟨name⟩).bytes = head ++ slashByte :: name) ∨
      path.bytes.getLast? ≠ some slashByte ∧
        (path.join ⟨name⟩).bytes = path.bytes ++ slashByte :: name := by
  unfold join
  rw [if_neg (by simp [isAbsolute_name hname]), if_neg hpath]
  by_cases hlast : path.bytes.getLast? = some slashByte
  · left
    obtain ⟨head, hhead⟩ := getLast?_eq_some_iff.mp hlast
    refine ⟨head, hhead, ?_⟩
    simp [hhead]
  · right
    simp [hlast]

lemma isAbsolute_join (hpath : path.bytes ≠ []) (hname : (Component.name name).IsPlain) :
    (path.join ⟨name⟩).isAbsolute = path.isAbsolute := by
  unfold isAbsolute
  rcases bytes_join hpath hname with ⟨head, hhead, hjoin⟩ | ⟨-, hjoin⟩
  · rw [hjoin, hhead]
    cases head <;> rfl
  · rw [hjoin]
    cases hbytes : path.bytes with
    | nil => exact absurd hbytes hpath
    | cons byte bytes => rfl

lemma splitOn_name (hname : (Component.name name).IsPlain) : splitOn slashByte name = [name] :=
  splitOn_joinWith (by simpa using hname.2.2.2) (cons_ne_nil name [])

lemma components_join (hpath : path.bytes ≠ []) (hname : (Component.name name).IsPlain) :
    (path.join ⟨name⟩).components = path.components ++ [.name name] := by
  have hread (first : Bool) : Component.ofSegment? first name = some (.name name) :=
    Component.ofSegment?_bytes hname first
  have hempty (first : Bool) : Component.ofSegment? first [] = none := rfl
  unfold components
  rw [isAbsolute_join hpath hname]
  rcases bytes_join hpath hname with ⟨head, hhead, hjoin⟩ | ⟨-, hjoin⟩
  · rw [hjoin, hhead, splitOn_append_cons, splitOn_append_cons, splitOn_name hname]
    obtain ⟨first, rest, hsegs⟩ := exists_cons_of_ne_nil (splitOn_ne_nil slashByte head)
    have hnil : splitOn slashByte ([] : List UInt8) = [[]] := rfl
    rw [hsegs, hnil]
    split
    · simp only [filterMap_append]
      simp [hread, hempty]
    · simp [ofSegments, hread, hempty]
  · rw [hjoin, splitOn_append_cons, splitOn_name hname]
    obtain ⟨first, rest, hsegs⟩ := exists_cons_of_ne_nil (splitOn_ne_nil slashByte path.bytes)
    rw [hsegs]
    split
    · simp only [filterMap_append]
      simp [hread]
    · simp [ofSegments, hread]

lemma bytes_join_ne_nil (hpath : path.bytes ≠ []) (hname : (Component.name name).IsPlain) :
    (path.join ⟨name⟩).bytes ≠ [] := by
  rcases bytes_join hpath hname with ⟨head, -, hjoin⟩ | ⟨-, hjoin⟩ <;> simp [hjoin]

lemma components_joinNames (hpath : path.bytes ≠ [])
    (hnames : ∀ name ∈ names, (Component.name name).IsPlain) :
    (path.joinNames names).components = path.components ++ names.map .name := by
  induction names generalizing path with
  | nil => simp [joinNames]
  | cons name rest ih =>
    have hname := hnames name mem_cons_self
    have hrest := ih (bytes_join_ne_nil hpath hname)
      (fun other hoth => hnames other (mem_cons_of_mem name hoth))
    rw [components_join hpath hname] at hrest
    simpa [joinNames] using hrest

lemma normalizeComponents_append_names (components : List Component) (names : List FileName) :
    normalizeComponents (components ++ names.map .name) =
      normalizeComponents components ++ names.map .name := by
  unfold normalizeComponents
  rw [foldl_append]
  generalize components.foldl normalizeStep [] = done
  induction names generalizing done with
  | nil => simp
  | cons name rest ih =>
    rw [map_cons, foldl_cons, ih]
    simp [normalizeStep]

lemma joinWith_bytes_append (hne : components ≠ []) (last : Component) :
    joinWith [slashByte] ((components ++ [last]).map Component.bytes) =
      joinWith [slashByte] (components.map Component.bytes) ++ slashByte :: last.bytes := by
  rw [map_append, joinWith_append _ (by simpa using hne) (by simp)]
  simp [joinWith]

lemma exists_getLast?_joinWith_bytes (hne : components ≠ [])
    (hplain : ∀ component ∈ components, component.IsPlain) :
    ∃ byte, (joinWith [slashByte] (components.map Component.bytes)).getLast? = some byte ∧
      byte ≠ slashByte := by
  rcases eq_nil_or_concat components with rfl | ⟨others, last, rfl⟩
  · exact absurd rfl hne
  · rw [concat_eq_append] at hplain ⊢
    have hlast := hplain last (by simp)
    let byte := last.bytes.getLast (Component.bytes_ne_nil hlast)
    have hbyte : last.bytes.getLast? = some byte := getLast?_eq_some_getLast _
    refine ⟨byte, ?_, ?_⟩
    · by_cases hoths : others = []
      · simpa [hoths, joinWith] using hbyte
      · rw [joinWith_bytes_append hoths, getLast?_append, getLast?_cons, hbyte]
        rfl
    · intro hslash
      apply Component.slashByte_notMem_bytes hlast
      rw [← hslash]
      exact mem_of_getLast? hbyte

lemma bytes_join_of_getLast? {byte : UInt8} (hlast : path.bytes.getLast? = some byte)
    (hbyte : byte ≠ slashByte) (hname : (Component.name name).IsPlain) :
    (path.join ⟨name⟩).bytes = path.bytes ++ slashByte :: name := by
  have hpath : path.bytes ≠ [] := by
    intro hempty
    simp [hempty] at hlast
  rcases bytes_join hpath hname with ⟨head, hhead, -⟩ | ⟨-, hjoin⟩
  · rw [hhead, getLast?_concat, Option.some.injEq] at hlast
    exact absurd hlast.symm hbyte
  · exact hjoin

lemma ofComponents_of_isPlain (hplain : ∀ component ∈ components, component.IsPlain) :
    ofComponents components = ⟨joinWith [slashByte] (components.map Component.bytes)⟩ := by
  cases components with
  | nil => rfl
  | cons component rest =>
    cases component with
    | root => exact (hplain _ mem_cons_self).elim
    | current => rfl
    | parent => rfl
    | name value => rfl

lemma isPlain_append_name (hplain : ∀ component ∈ components, component.IsPlain)
    (hname : (Component.name name).IsPlain) :
    ∀ component ∈ components ++ [.name name], component.IsPlain := by
  intro component hcomp
  rcases mem_append.mp hcomp with hold | hnew
  · exact hplain component hold
  · exact mem_singleton.mp hnew ▸ hname

lemma IsSpelled.append_name (hspel : IsSpelled components) (hne : components ≠ [])
    (hname : (Component.name name).IsPlain) : IsSpelled (components ++ [.name name]) := by
  cases components with
  | nil => exact absurd rfl hne
  | cons component rest => cases component <;> exact isPlain_append_name hspel hname

lemma join_ofComponents (hspel : IsSpelled components) (hne : components ≠ [])
    (hname : (Component.name name).IsPlain) :
    (ofComponents components).join ⟨name⟩ = ofComponents (components ++ [.name name]) := by
  have hrlv (hplain : ∀ component ∈ components, component.IsPlain) :
      (ofComponents components).join ⟨name⟩ = ofComponents (components ++ [.name name]) := by
    obtain ⟨byte, hlast, hbyte⟩ := exists_getLast?_joinWith_bytes hne hplain
    rw [ofComponents_of_isPlain hplain, ofComponents_of_isPlain (isPlain_append_name hplain hname),
      joinWith_bytes_append hne, Path.mk.injEq]
    exact bytes_join_of_getLast? hlast hbyte hname
  cases components with
  | nil => exact absurd rfl hne
  | cons component rest =>
    cases component with
    | current => exact hrlv hspel
    | parent => exact hrlv hspel
    | name value => exact hrlv hspel
    | root =>
      by_cases hrest : rest = []
      · subst rest
        simp [ofComponents, join, isAbsolute_name hname, joinWith, Component.bytes]
      · obtain ⟨byte, hlast, hbyte⟩ := exists_getLast?_joinWith_bytes hrest hspel
        rw [cons_append, ofComponents, ofComponents, Path.mk.injEq,
          joinWith_bytes_append hrest, ← cons_append]
        apply bytes_join_of_getLast? _ hbyte hname
        simp [getLast?_cons, hlast]

lemma joinNames_ofComponents (hspel : IsSpelled components) (hne : components ≠ [])
    (hnames : ∀ name ∈ names, (Component.name name).IsPlain) :
    (ofComponents components).joinNames names = ofComponents (components ++ names.map .name) := by
  induction names generalizing components with
  | nil => simp [joinNames]
  | cons name rest ih =>
    have hname := hnames name mem_cons_self
    have hrest := ih (hspel.append_name hne hname) (by simp)
      (fun other hoth => hnames other (mem_cons_of_mem name hoth))
    rw [← join_ofComponents hspel hne hname] at hrest
    simpa [joinNames] using hrest

lemma normalize_joinNames (hroot : root.normalize = root) (hbytes : root.bytes ≠ [])
    (hnames : ∀ name ∈ names, (Component.name name).IsPlain) :
    (root.joinNames names).normalize = root.joinNames names := by
  have hne : normalizeComponents root.components ≠ [] := by
    intro hnil
    rw [← hroot, normalize, hnil] at hbytes
    exact hbytes rfl
  have hspel := isSpelled_normalizeComponents root
  rw [normalize, components_joinNames hbytes hnames, normalizeComponents_append_names,
    ← joinNames_ofComponents hspel hne hnames, ← normalize, hroot]

lemma normalize_eq_joinNames (hroot : root.normalize.bytes ≠ [])
    (hnames : ∀ name ∈ names, (Component.name name).IsPlain)
    (hpath : path.normalize.components = root.normalize.components ++ names.map .name) :
    path.normalize = root.normalize.joinNames names := by
  have hnorm := normalize_joinNames (normalize_normalize root) hroot hnames
  apply eq_of_same_of_normalize _ (normalize_normalize path) hnorm
  rw [same_iff, hpath, components_joinNames hroot hnames]

lemma isPlain_of_mem_normalize (hname : .name name ∈ path.normalize.components) :
    (Component.name name).IsPlain := by
  rw [components_normalize] at hname
  exact isPlain_of_mem_normalizeComponents hname

end Path

namespace Disk

variable {disk : Disk} {root : Path} {tree : FileTree}

lemma step_bind_step_nil (top : FileTree) (location : List FileName) (segment : List UInt8) :
    (step top location [] >>= fun next => step top next segment) = step top location segment := by
  unfold step
  cases hget : top.get? location with
  | none => rfl
  | some tree =>
    cases tree with
    | file content => rfl
    | directory entries => simp [bind, Except.bind, hget]

lemma locate_join (disk : Disk) (hpath : path.bytes ≠ []) (hname : (Component.name name).IsPlain) :
    disk.locate (path.join ⟨name⟩) =
      disk.locate path >>= fun location => step disk.root location name := by
  unfold locate start
  rw [Path.isAbsolute_join hpath hname, if_neg (Path.bytes_join_ne_nil hpath hname), if_neg hpath]
  rcases Path.bytes_join hpath hname with ⟨head, hhead, hjoin⟩ | ⟨-, hjoin⟩
  · have hnil : splitOn slashByte ([] : List UInt8) = [[]] := rfl
    rw [hjoin, hhead, splitOn_append_cons, splitOn_append_cons, Path.splitOn_name hname, hnil]
    simp [foldlM_append, step_bind_step_nil]
  · rw [hjoin, splitOn_append_cons, Path.splitOn_name hname]
    simp [foldlM_append]

lemma locate_joinNames (disk : Disk) (hpath : path.bytes ≠ [])
    (hnames : ∀ name ∈ names, (Component.name name).IsPlain) :
    disk.locate (path.joinNames names) =
      disk.locate path >>= fun location => names.foldlM (step disk.root) location := by
  induction names generalizing path with
  | nil =>
    simp only [Path.joinNames, foldl_nil, foldlM_nil]
    cases disk.locate path <;> rfl
  | cons name rest ih =>
    have hname := hnames name mem_cons_self
    have hrest := ih (Path.bytes_join_ne_nil hpath hname)
      (fun other hoth => hnames other (mem_cons_of_mem name hoth))
    rw [disk.locate_join hpath hname] at hrest
    simpa [Path.joinNames] using hrest

lemma follow_name (hname : (Component.name name).IsPlain) (location : List FileName) :
    follow location name = location ++ [name] := by
  obtain ⟨hempty, hdot, hdots, -⟩ := hname
  simp [follow, hempty, hdot, hdots]

lemma exists_foldlM_step_iff {top : FileTree} {location : List FileName}
    (hnames : ∀ name ∈ names, (Component.name name).IsPlain) :
    (∃ found, names.foldlM (step top) location = .ok found ∧ top.look found = some (some content)) ↔
      top.look (location ++ names) = some (some content) := by
  induction names generalizing location with
  | nil => simp [pure, Except.pure]
  | cons name rest ih =>
    have hname := hnames name mem_cons_self
    have hrest : ∀ other ∈ rest, (Component.name other).IsPlain :=
      fun other hoth => hnames other (mem_cons_of_mem name hoth)
    simp only [foldlM_step_cons_iff, follow_name hname, and_assoc, exists_and_left]
    rw [ih hrest, append_assoc, singleton_append]
    constructor
    · exact And.right
    · intro hlook
      exact ⟨FileTree.look_eq_none_none_of_append hlook, hlook⟩

lemma bytes_ne_nil_of_lookup (hlk : disk.lookup root = .ok tree) : root.bytes ≠ [] := by
  obtain ⟨location, hloc, -⟩ := lookup_eq_ok_iff.mp hlk
  intro hbytes
  simp [locate, hbytes] at hloc

lemma lookup_joinNames_iff (hlk : disk.lookup root = .ok tree)
    (hnames : ∀ name ∈ names, (Component.name name).IsPlain) :
    disk.lookup (root.joinNames names) = .ok (.file content) ↔
      tree.look names = some (some content) := by
  have hbytes := bytes_ne_nil_of_lookup hlk
  obtain ⟨location, hloc, hget⟩ := lookup_eq_ok_iff.mp hlk
  rw [lookup_file_iff, disk.locate_joinNames hbytes hnames, hloc, ← FileTree.look_append hget names]
  exact exists_foldlM_step_iff hnames

end Disk

/-- The source files are the files below the root that the settings admit and
that do not lie in a directory which is left out. -/
lemma joinNames_mem_sourceFiles_iff {settings : Settings} {disk : Disk}
    (hroot : root.normalize = root) (hlk : disk.lookup root = .ok tree)
    (hprop : tree.IsProper) (hnames : ∀ name ∈ names, (Component.name name).IsPlain) :
    root.joinNames names ∈ sourceFiles settings disk root ↔
      ∃ content, tree.look names = some (some content) ∧
        settings.indexes (root.joinNames names) content ∧
        ∀ name ∈ names.dropLast, settings.excludes name = false := by
  have hbytes := Disk.bytes_ne_nil_of_lookup hlk
  simp only [sourceFiles, hlk, sortPaths, mem_mergeSort, mem_filterMap]
  constructor
  · rintro ⟨⟨others, content⟩, hfound, hpath⟩
    obtain ⟨hlook, henter⟩ := (FileTree.mem_files_iff hprop).mp hfound
    have hoths := hprop.isPlain hlook
    rw [Option.ite_none_right_eq_some, Option.some.injEq] at hpath
    have hsame : others = names := by
      have hcomps := congrArg Path.components hpath.2
      rw [Path.normalize_joinNames hroot hbytes hoths, Path.components_joinNames hbytes hoths,
        Path.components_joinNames hbytes hnames, append_cancel_left_eq] at hcomps
      exact (map_inj_right fun _ _ => Component.name.inj).mp hcomps
    subst others
    exact ⟨content, hlook, hpath.1, henter⟩
  · rintro ⟨content, hlook, hindexes, henter⟩
    refine ⟨(names, content), (FileTree.mem_files_iff hprop).mpr ⟨hlook, henter⟩, ?_⟩
    rw [if_pos hindexes, Path.normalize_joinNames hroot hbytes hnames]

end BslInsight
