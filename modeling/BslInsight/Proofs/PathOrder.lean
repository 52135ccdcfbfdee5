import BslInsight.Proofs.PathLookup
import BslInsight.Proofs.SourceWalk
import BslInsight.Proofs.StableSort

/-!
# Paths in order

Source files are listed and tables are kept in the order of paths, which goes by
components.  It is a linear order up to spelling.  A walk meets every file once,
so its list is strictly sorted, and tables stay strictly sorted by their paths
whatever is put among them.
-/

namespace BslInsight

open List

variable {first second root path : Path} {tree : FileTree} {disk : Disk} {table : ModuleTable}

/-! ## The order -/

namespace Component

def nameBytes : Component → FileName
  | .name value => value
  | _ => []

lemma compare_eq_compareLex :
    Component.compare = compareLex (compareOn rank) (compareOn nameBytes) := by
  funext first second
  cases first <;> cases second <;> rfl

instance : Std.TransCmp Component.compare := by
  rw [compare_eq_compareLex]
  infer_instance

end Component

namespace Path

lemma compareComponents_eq_compareLex : compareComponents = List.compareLex Component.compare := by
  funext first second
  induction first generalizing second with
  | nil => cases second <;> rfl
  | cons component rest ih =>
    cases second with
    | nil => rfl
    | cons other others => rw [compareComponents, List.compareLex_cons_cons, ih]

instance : Std.TransCmp Path.compare where
  eq_swap := by
    simp only [compare, compareComponents_eq_compareLex]
    exact Std.OrientedCmp.eq_swap
  isLE_trans hfirst hsnd := by
    simp only [compare, compareComponents_eq_compareLex] at hfirst hsnd ⊢
    exact Std.TransCmp.isLE_trans hfirst hsnd

def Before (first second : Path) : Prop := first.compare second = .lt

lemma Before.trans {third : Path} (hfirst : first.Before second) (hsnd : second.Before third) :
    first.Before third :=
  Std.TransCmp.lt_trans hfirst hsnd

lemma before_of_compare_eq_gt (hcmp : first.compare second = .gt) : second.Before first :=
  Std.OrientedCmp.lt_of_gt hcmp

lemma Before.not_same (hbef : first.Before second) : first.same second = false := by
  rw [Bool.eq_false_iff, Ne, ← compare_eq_iff, hbef]
  simp

lemma before_of_isLE (hle : (first.compare second).isLE)
    (hoth : first.same second = false) : first.Before second := by
  rw [Bool.eq_false_iff, Ne, ← compare_eq_iff] at hoth
  unfold Before
  generalize first.compare second = order at hle hoth
  cases order with
  | lt => rfl
  | eq => exact absurd rfl hoth
  | gt => cases hle

lemma pairwise_sortPaths
    {paths : List Path} (hpaths : paths.Pairwise fun first second => first.same second = false) :
    (sortPaths paths).Pairwise Before := by
  have hsort := pairwise_mergeSort_isLE Path.compare paths
  have hdist : (sortPaths paths).Pairwise fun first second => first.same second = false :=
    (mergeSort_perm paths _).symm.pairwise hpaths fun {first second} hoth => by rwa [same_comm]
  exact (hsort.and hdist).imp fun hboth => before_of_isLE hboth.1 hboth.2

end Path

/-! ## Source files -/

namespace FileTree

lemma pairwise_entryFiles {skip : FileName → Bool} {entries : List (FileName × FileTree)}
    (hnames : (entries.map Prod.fst).Nodup) (hbelow : ∀ entry ∈ entries,
      (files skip entry.2).Pairwise fun first second => first.1 ≠ second.1) :
    (entryFiles skip entries).Pairwise fun first second => first.1 ≠ second.1 := by
  induction entries with
  | nil => exact .nil
  | cons entry rest ih =>
    obtain ⟨name, tree⟩ := entry
    rw [map_cons, nodup_cons] at hnames
    have hrest := ih hnames.2 fun other hoth => hbelow other (mem_cons_of_mem _ hoth)
    rw [entryFiles]
    split
    next => exact hrest
    next =>
      apply pairwise_append.mpr
      refine ⟨?_, hrest, ?_⟩
      · rw [pairwise_map]
        apply (hbelow _ mem_cons_self).imp
        intro first second hne heq
        exact hne (List.cons.inj heq).2
      · -- Files of different entries differ in their first name.
        intro file hfile other hoth heq
        obtain ⟨below, -, rfl⟩ := mem_map.mp hfile
        obtain ⟨entry, hentry, names, hoths, -⟩ := mem_entryFiles_iff.mp hoth
        rw [hoths, List.cons.injEq] at heq
        exact hnames.1 (mem_map.mpr ⟨entry, hentry, heq.1.symm⟩)

lemma IsProper.pairwise_files (hprop : tree.IsProper) (skip : FileName → Bool) :
    (files skip tree).Pairwise fun first second => first.1 ≠ second.1 := by
  induction hprop with
  | file content => exact pairwise_singleton _ _
  | directory hnames hplain hbelow ih => exact pairwise_entryFiles hnames ih

end FileTree

lemma Disk.isProper_of_lookup (hprop : disk.root.IsProper)
    (hlk : disk.lookup root = .ok tree) : tree.IsProper := by
  obtain ⟨location, -, hget⟩ := lookup_eq_ok_iff.mp hlk
  exact hprop.get? hget

lemma components_normalize_of_mem_files (hlk : disk.lookup root = .ok tree)
    (htree : tree.IsProper) {skip : FileName → Bool} {names : List FileName} {content : FileContent}
    (hmem : (names, content) ∈ tree.files skip) :
    (root.joinNames names).normalize.components =
      Path.normalizeComponents root.components ++ names.map .name := by
  have hnames := htree.isPlain ((FileTree.mem_files_iff htree).mp hmem).1
  rw [Path.components_normalize, Path.components_joinNames (Disk.bytes_ne_nil_of_lookup hlk) hnames,
    Path.normalizeComponents_append_names]

lemma pairwise_sourceFiles (hprop : disk.root.IsProper) (settings : Settings) (root : Path) :
    (sourceFiles settings disk root).Pairwise Path.Before := by
  unfold sourceFiles
  split
  next => exact .nil
  next tree hlk =>
    have htree := Disk.isProper_of_lookup hprop hlk
    apply Path.pairwise_sortPaths
    rw [pairwise_filterMap]
    apply (htree.pairwise_files settings.excludes).imp_of_mem
    intro file other hfile hoth hne path hpath second hsnd
    rw [Option.ite_none_right_eq_some, Option.some.injEq] at hpath hsnd
    rw [Bool.eq_false_iff, Ne, Path.same_iff, ← hpath.2, ← hsnd.2,
      components_normalize_of_mem_files hlk htree hfile,
      components_normalize_of_mem_files hlk htree hoth, append_cancel_left_eq]
    intro heq
    exact hne ((map_inj_right fun _ _ => Component.name.inj).mp heq)

lemma exists_names_of_mem_sourceFiles {settings : Settings} (hprop : disk.root.IsProper)
    (hroot : root.normalize = root) (hmem : path ∈ sourceFiles settings disk root) :
    ∃ names : List FileName, path.components = root.components ++ names.map .name ∧
      (settings.dialectFor? path).isSome := by
  unfold sourceFiles at hmem
  split at hmem
  next => cases hmem
  next tree hlk =>
    have htree := Disk.isProper_of_lookup hprop hlk
    rw [sortPaths, mem_mergeSort, mem_filterMap] at hmem
    obtain ⟨⟨names, content⟩, hfound, hpath⟩ := hmem
    rw [Option.ite_none_right_eq_some, Option.some.injEq] at hpath
    have hbelow := components_normalize_of_mem_files hlk htree hfound
    rw [hpath.2, ← Path.components_normalize, hroot] at hbelow
    refine ⟨names, hbelow, ?_⟩
    have hnames := htree.isPlain ((FileTree.mem_files_iff htree).mp hfound).1
    rw [Path.normalize_joinNames hroot (Disk.bytes_ne_nil_of_lookup hlk) hnames] at hpath
    rw [← hpath.2]
    exact (Bool.and_eq_true_iff.mp hpath.1).1

/-! ## Tables -/

namespace TableMap

def IsSorted (tables : TableMap) : Prop := (tables.map Prod.fst).Pairwise Path.Before

lemma mem_keys_insert {tables : TableMap} {key : Path}
    (hkey : key ∈ (tables.insert path table).map Prod.fst) :
    key = path ∨ key ∈ tables.map Prod.fst := by
  induction tables with
  | nil => exact .inl (mem_singleton.mp hkey)
  | cons entry rest ih =>
    obtain ⟨other, old⟩ := entry
    cases hcmp : path.compare other with
    | lt => simpa only [insert, hcmp, map_cons, mem_cons] using hkey
    | eq =>
      simp only [insert, hcmp, map_cons] at hkey
      exact .inr hkey
    | gt =>
      simp only [insert, hcmp, map_cons, mem_cons] at hkey ⊢
      rcases hkey with rfl | hkey
      · exact .inr (.inl rfl)
      · exact (ih hkey).imp_right .inr

lemma IsSorted.insert
    {tables : TableMap} (hsort : tables.IsSorted) (path : Path) (table : ModuleTable) :
    (tables.insert path table).IsSorted := by
  induction tables with
  | nil => exact pairwise_singleton _ _
  | cons entry rest ih =>
    obtain ⟨key, old⟩ := entry
    obtain ⟨hfirst, hrest⟩ := pairwise_cons.mp hsort
    cases hcmp : path.compare key with
    | lt =>
      simp only [TableMap.insert, hcmp]
      apply pairwise_cons.mpr
      refine ⟨?_, hsort⟩
      intro other hoth
      rcases mem_cons.mp hoth with rfl | hoth
      · exact hcmp
      · exact Path.Before.trans hcmp (hfirst other hoth)
    | eq =>
      simp only [TableMap.insert, hcmp]
      exact hsort
    | gt =>
      simp only [TableMap.insert, hcmp]
      apply pairwise_cons.mpr
      refine ⟨?_, ih hrest⟩
      intro other hoth
      rcases mem_keys_insert hoth with rfl | hoth
      · exact Path.before_of_compare_eq_gt hcmp
      · exact hfirst other hoth

structure IsIndex (tables : TableMap) : Prop where
  sorted : tables.IsSorted
  normal : ∀ path ∈ tables.map Prod.fst, path.normalize = path

namespace IsIndex

variable {tables : TableMap}

lemma nil : IsIndex [] := ⟨.nil, by simp⟩

lemma insert (hindex : tables.IsIndex) (hpath : path.normalize = path) (table : ModuleTable) :
    (tables.insert path table).IsIndex where
  sorted := hindex.sorted.insert path table
  normal key hkey := by
    rcases mem_keys_insert hkey with rfl | hold
    · exact hpath
    · exact hindex.normal key hold

lemma get?_eq_of_mem (hsort : tables.IsSorted) (hmem : (path, table) ∈ tables) :
    tables.get? path = some table := by
  induction tables with
  | nil => cases hmem
  | cons entry rest ih =>
    obtain ⟨key, old⟩ := entry
    obtain ⟨hfirst, hrest⟩ := pairwise_cons.mp hsort
    rw [TableMap.get?_cons]
    rcases mem_cons.mp hmem with heq | hlater
    · obtain ⟨rfl, rfl⟩ := Prod.mk.inj heq
      rw [if_pos (Path.same_self path)]
    · have hbef : key.Before path := hfirst path (mem_map_of_mem hlater)
      rw [hbef.not_same]
      exact ih hrest hlater

lemma mem_iff (hindex : tables.IsIndex) :
    (path, table) ∈ tables ↔ path.normalize = path ∧ tables.get? path = some table := by
  constructor
  · intro hmem
    exact ⟨hindex.normal path (mem_map_of_mem hmem), get?_eq_of_mem hindex.sorted hmem⟩
  · rintro ⟨hpath, hget⟩
    obtain ⟨key, hmem, hsame⟩ := PathMap.mem_of_get?_eq_some hget
    have hkey := hindex.normal key (mem_map_of_mem hmem)
    rwa [Path.eq_of_same_of_normalize hsame hkey hpath] at hmem

end IsIndex

end TableMap

end BslInsight
