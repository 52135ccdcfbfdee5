import Mathlib.Algebra.Ring.Nat
import BslInsight.Proofs.PathOrder
import BslInsight.Proofs.ReverseLookup

/-!
# The index of a snapshot with a history

Tables are put into a snapshot and taken out of it in any order.  They stay sorted by path, with
the last table put in for each file, and the groups of the reverse index hold just what they
declare.
-/

namespace BslInsight

open List

variable {snapshot : Snapshot}

/-! ## Groups -/

namespace Groups

variable {α : Type}

lemma perm_push (groups : Groups α) (key : String) (item : α) :
    ((groups.push key item).flatMap Prod.snd).Perm (item :: groups.flatMap Prod.snd) := by
  induction groups with
  | nil => exact .refl _
  | cons group rest ih =>
    obtain ⟨other, items⟩ := group
    rw [push, flatMap_cons]
    split
    next =>
      rw [flatMap_cons, append_assoc]
      exact perm_middle
    next =>
      rw [flatMap_cons]
      exact (ih.append_left items).trans perm_middle

lemma perm_foldl_push (groups : Groups α) (key : α → String) (items : List α) :
    ((items.foldl (fun groups item => groups.push (key item) item) groups).flatMap Prod.snd).Perm
      (items ++ groups.flatMap Prod.snd) := by
  induction items generalizing groups with
  | nil => exact .refl _
  | cons item rest ih =>
    exact (ih _).trans (((perm_push groups (key item) item).append_left rest).trans perm_middle)

end Groups

lemma ReverseIndex.perm_entries (tables : TableMap) :
    (ofTables tables).entries.Perm tables.declarations := by
  have hperm := Groups.perm_foldl_push [] (fun found : IndexedSymbol => found.symbol.lowerName)
    tables.declarations
  rw [flatMap_nil, append_nil] at hperm
  rw [entries, ofTables, byName_foldl_addTable]
  exact hperm

lemma ReverseIndex.size_eq (index : ReverseIndex) : index.size = index.entries.length := by
  rw [entries, length_flatMap, sum_eq_foldr, foldr_map]
  rfl

lemma Snapshot.symbolCount_eq (snapshot : Snapshot) :
    snapshot.symbolCount = snapshot.tables.declarations.length := by
  simp only [TableMap.declarations, length_flatMap, length_map, sum_eq_foldr, foldr_map]
  rfl

lemma sum_length_filter {α : Type} (key : α → String) {keys : List String} (hkeys : keys.Nodup)
    {items : List α} (hcover : ∀ item ∈ items, key item ∈ keys) :
    (keys.map fun wanted => (items.filter fun item => key item = wanted).length).sum =
      items.length := by
  induction keys generalizing items with
  | nil =>
    rw [eq_nil_iff_forall_not_mem.mpr fun item hitem => not_mem_nil (hcover item hitem)]
    rfl
  | cons first rest ih =>
    obtain ⟨hfirst, hrest⟩ := nodup_cons.mp hkeys
    have hoths : ∀ wanted ∈ rest, (items.filter fun item => key item = wanted) =
        (items.filter fun item => !decide (key item = first)).filter
          fun item => key item = wanted := by
      intro wanted hwanted
      rw [filter_filter]
      refine filter_congr fun item hitem => ?_
      have hne : wanted ≠ first := fun heq => hfirst (heq ▸ hwanted)
      by_cases hkey : key item = wanted <;> simp [hkey, hne]
    rw [map_cons, sum_cons, map_congr_left fun wanted hwanted =>
      congrArg List.length (hoths wanted hwanted), ih hrest,
      ← length_eq_length_filter_add]
    intro item hitem
    obtain ⟨hitem, hkey⟩ := mem_filter.mp hitem
    exact (mem_cons.mp (hcover item hitem)).resolve_left (by simpa using hkey)

namespace TableMap

variable {tables : TableMap}

lemma IsSorted.erase (hsort : tables.IsSorted) (path : Path) : (tables.erase path).IsSorted :=
  hsort.sublist (filter_sublist.map Prod.fst)

lemma IsSorted.find?_eq_some_iff (hsort : tables.IsSorted) {p : Path × ModuleTable → Bool}
    {entry : Path × ModuleTable} :
    tables.find? p = some entry ↔ entry ∈ tables ∧ p entry ∧
      ∀ other ∈ tables, p other → (entry.1.compare other.1).isLE := by
  induction tables with
  | nil => simp
  | cons first rest ih =>
    obtain ⟨hfirst, hrest⟩ := pairwise_cons.mp hsort
    cases hp : p first with
    | false =>
      rw [find?_cons_of_neg (by simp [hp]), ih hrest]
      grind
    | true =>
      rw [find?_cons_of_pos hp, Option.some.injEq]
      constructor
      · rintro rfl
        refine ⟨mem_cons_self, hp, fun other hoth _ => ?_⟩
        rcases mem_cons.mp hoth with rfl | hoth
        · rw [(Path.compare_eq_iff _ _).mpr (Path.same_self _)]
          rfl
        · rw [hfirst other.1 (mem_map_of_mem hoth)]
          rfl
      · rintro ⟨hmem, -, hleast⟩
        rcases mem_cons.mp hmem with rfl | hmem
        · rfl
        · have hbef := hfirst entry.1 (mem_map_of_mem hmem)
          have hle := hleast first mem_cons_self hp
          rw [Std.OrientedCmp.gt_of_lt hbef] at hle
          cases hle

end TableMap

/-! ## Histories -/

structure SnapshotChange where
  path : Path
  table? : Option ModuleTable
deriving DecidableEq, Repr

namespace Snapshot

def change (snapshot : Snapshot) (change : SnapshotChange) : Snapshot := match change.table? with
  | some table => snapshot.withTable change.path table
  | none => snapshot.without change.path

def ofChanges (changes : List SnapshotChange) : Snapshot := changes.foldl change {}

lemma isSorted_change (hsort : snapshot.tables.IsSorted) (change : SnapshotChange) :
    (snapshot.change change).tables.IsSorted := by
  unfold Snapshot.change
  split
  next table _ => exact hsort.insert change.path table
  next => exact hsort.erase change.path

lemma isSorted_foldl_change (changes : List SnapshotChange) (hsort : snapshot.tables.IsSorted) :
    (changes.foldl change snapshot).tables.IsSorted := by
  induction changes generalizing snapshot with
  | nil => exact hsort
  | cons first rest ih => exact ih (isSorted_change hsort first)

lemma get?_change (snapshot : Snapshot) (change : SnapshotChange) (path : Path) :
    (snapshot.change change).get? path =
      if change.path.same path then change.table? else snapshot.get? path := by
  unfold Snapshot.change
  split
  next table htable =>
    rw [htable]
    exact TableMap.get?_insert snapshot.tables change.path path table
  next htable =>
    rw [htable]
    exact TableMap.get?_erase snapshot.tables change.path path

lemma get?_ofChanges (changes : List SnapshotChange) (path : Path) : (ofChanges changes).get? path =
      (changes.reverse.find? fun change => change.path.same path).bind (·.table?) := by
  induction changes using reverseRecOn with
  | nil => rfl
  | append_singleton earlier last ih =>
    rw [ofChanges, foldl_append, foldl_cons, foldl_nil, get?_change, reverse_concat, find?_cons]
    cases last.path.same path with
    | true => rfl
    | false => exact ih

lemma moduleNamed?_eq_some_iff (hsort : snapshot.tables.IsSorted) {name : String}
    {table : ModuleTable} :
    snapshot.moduleNamed? name = some table ↔ ∃ path, (path, table) ∈ snapshot.tables ∧
      table.isNamed (lower name) ∧ ∀ other ∈ snapshot.tables,
        other.2.isNamed (lower name) → (path.compare other.1).isLE := by
  rw [moduleNamed?_eq, Option.bind_eq_some_iff]
  constructor
  · rintro ⟨⟨path, found⟩, hfind, hget⟩
    have hleast := hsort.find?_eq_some_iff.mp hfind
    rw [TableMap.IsIndex.get?_eq_of_mem hsort hleast.1, Option.some.injEq] at hget
    exact ⟨path, hget ▸ hleast⟩
  · rintro ⟨path, hleast⟩
    exact ⟨(path, table), hsort.find?_eq_some_iff.mpr hleast,
      TableMap.IsIndex.get?_eq_of_mem hsort hleast.1⟩

/-- Whatever was put into a snapshot and taken out of it, the snapshot holds the last table of each
file, and its index finds what these tables declare. -/
theorem reverseIndex_ofChanges (changes : List SnapshotChange) :
    let snapshot := ofChanges changes
    let declared := snapshot.tables.declarations
    (∀ path, snapshot.get? path =
      (changes.reverse.find? fun change => change.path.same path).bind (·.table?)) ∧
    snapshot.tables.IsSorted ∧
    (∀ name, snapshot.reverseIndex.lookup name =
      declared.filter fun found => found.symbol.lowerName = lower name) ∧
    snapshot.reverseIndex.size = snapshot.symbolCount ∧
    (∀ names : List String, (names.map lower).Nodup →
      (∀ found ∈ declared, found.symbol.lowerName ∈ names.map lower) →
      (names.map fun name => (snapshot.reverseIndex.lookup name).length).sum =
        snapshot.symbolCount) ∧
    ∀ name table, snapshot.moduleNamed? name = some table ↔
      ∃ path, (path, table) ∈ snapshot.tables ∧ table.isNamed (lower name) = true ∧
        ∀ other ∈ snapshot.tables, other.2.isNamed (lower name) = true →
          (path.compare other.1).isLE = true := by
  intro snapshot declared
  have hsorted : snapshot.tables.IsSorted := isSorted_foldl_change changes .nil
  have hlookup := ReverseIndex.lookup_ofTables snapshot.tables
  refine ⟨get?_ofChanges changes, hsorted, hlookup, ?_, ?_, fun name table =>
    moduleNamed?_eq_some_iff hsorted⟩
  · rw [ReverseIndex.size_eq, symbolCount_eq]
    exact (ReverseIndex.perm_entries snapshot.tables).length_eq
  · intro names hnames hcover
    have hsum := sum_length_filter (fun found : IndexedSymbol => found.symbol.lowerName) hnames hcover
    rw [symbolCount_eq, ← hsum, map_map]
    exact congrArg List.sum (map_congr_left fun name _ => congrArg List.length (hlookup name))

end Snapshot

end BslInsight
