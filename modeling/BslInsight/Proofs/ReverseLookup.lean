import Mathlib.Data.List.Find
import BslInsight.Proofs.PathLookup

/-!
# What the reverse index finds

A group of the reverse index is the part of the tables that has its key, in the order of the
tables.  Lookups that leave a file out do not depend on its table, and a module is found without
the table of a file unless that table has the name.
-/

namespace BslInsight

open List

variable {path : Path} (tables : TableMap) (snapshot : Snapshot) (name : String)

namespace Groups

variable {α β : Type}

lemma get_push (groups : Groups α) (key other : String) (item : α) :
    (groups.push key item).get other = groups.get other ++ if key = other then [item] else [] := by
  induction groups with
  | nil =>
    by_cases hkey : key = other
    · simp [push, get, hkey]
    · have hlk : (other == key) = false := by simpa using fun h => hkey h.symm
      simp [push, get, lookup_cons, hlk, hkey]
  | cons group rest ih =>
    obtain ⟨first, items⟩ := group
    simp only [get] at ih
    by_cases hfirst : first = key
    · subst hfirst
      by_cases hkey : first = other
      · simp [push, get, hkey]
      · have hlk : (other == first) = false := by simpa using fun h => hkey h.symm
        simp [push, get, lookup_cons, hlk, hkey]
    · by_cases hoth : other = first
      · subst hoth
        have hkey : ¬ key = other := fun h => hfirst h.symm
        simp [push, get, hfirst, hkey]
      · have hlk : (other == first) = false := by simpa using hoth
        simp [push, get, hfirst, lookup_cons, hlk, ih]

lemma get_foldl_push
    (groups : Groups α) (key : β → String) (value : β → α) (items : List β) (other : String) :
    (items.foldl (fun groups item => groups.push (key item) (value item)) groups).get other =
      groups.get other ++ (items.filter fun item => key item = other).map value := by
  induction items generalizing groups with
  | nil => simp
  | cons item rest ih =>
    rw [foldl_cons, ih, get_push, append_assoc]
    by_cases hkey : key item = other
    · simp [hkey]
    · simp [hkey]

end Groups

def TableMap.declarations (tables : TableMap) : List IndexedSymbol :=
  tables.flatMap fun (path, table) => table.symbols.map fun symbol => ⟨path, symbol⟩

lemma TableMap.declarations_cons (entry : Path × ModuleTable) (tables : TableMap) :
    declarations (entry :: tables) =
      entry.2.symbols.map (IndexedSymbol.mk entry.1) ++ tables.declarations :=
  rfl

def ModuleTable.isNamed (table : ModuleTable) (lowerName : String) : Bool :=
  table.name?.map lower = some lowerName

namespace ReverseIndex

lemma byName_foldl_addTable (index : ReverseIndex) (tables : TableMap) :
    (tables.foldl (fun index (path, table) => index.addTable path table) index).byName =
      tables.declarations.foldl (fun groups found => groups.push found.symbol.lowerName found)
        index.byName := by
  induction tables generalizing index with
  | nil => rfl
  | cons entry rest ih =>
    rw [foldl_cons, ih, TableMap.declarations_cons, foldl_append, foldl_map]
    rfl

lemma modules_foldl_addTable (index : ReverseIndex) (tables : TableMap) (key : String) :
    (tables.foldl (fun index (path, table) => index.addTable path table) index).modules.get key =
      index.modules.get key ++ (tables.filter fun entry => entry.2.isNamed key).map Prod.fst := by
  induction tables generalizing index with
  | nil => simp
  | cons entry rest ih =>
    obtain ⟨path, table⟩ := entry
    have hadd : (index.addTable path table).modules.get key =
        index.modules.get key ++ if table.isNamed key then [path] else [] := by
      cases hname : table.name? with
      | none => simp [addTable, ModuleTable.isNamed, hname]
      | some name => simp [addTable, ModuleTable.isNamed, hname, Groups.get_push]
    rw [foldl_cons, ih, hadd, append_assoc]
    by_cases hnamed : table.isNamed key
    · simp [hnamed]
    · simp [hnamed]

lemma lookup_ofTables : (ofTables tables).lookup name =
      tables.declarations.filter fun found => found.symbol.lowerName = lower name := by
  have hget := Groups.get_foldl_push [] (fun found : IndexedSymbol => found.symbol.lowerName) id
    tables.declarations (lower name)
  rw [map_id] at hget
  rw [lookup, ofTables, byName_foldl_addTable]
  exact hget

lemma moduleFiles_ofTables : (ofTables tables).moduleFiles name =
      (tables.filter fun entry => entry.2.isNamed (lower name)).map Prod.fst :=
  modules_foldl_addTable {} tables (lower name)

end ReverseIndex

namespace TableMap

lemma erase_insert (path : Path) (table : ModuleTable) :
    (tables.insert path table).erase path = tables.erase path := by
  induction tables with
  | nil => simp [insert, erase]
  | cons entry rest ih =>
    obtain ⟨key, old⟩ := entry
    cases hcmp : path.compare key with
    | lt => simp [insert, hcmp, erase]
    | eq =>
      have hsame : key.same path := by
        rw [Path.same_comm, ← Path.compare_eq_iff, hcmp]
      simp [insert, hcmp, erase, hsame]
    | gt =>
      simp only [erase] at ih
      simp [insert, hcmp, erase, filter_cons, ih]

lemma mem_of_mem_insert {tables : TableMap} {table : ModuleTable} {entry : Path × ModuleTable}
    (hentry : entry ∈ tables.insert path table) :
    entry ∈ tables ∨ entry.1.same path ∧ entry.2 = table := by
  induction tables with
  | nil =>
    rw [insert, mem_singleton] at hentry
    exact .inr ⟨by simp [hentry], by simp [hentry]⟩
  | cons other rest ih =>
    obtain ⟨key, old⟩ := other
    cases hcmp : path.compare key with
    | lt =>
      simp only [insert, hcmp, mem_cons] at hentry
      rcases hentry with rfl | hentry
      · exact .inr ⟨Path.same_self path, rfl⟩
      · exact .inl (mem_cons.mpr hentry)
    | eq =>
      simp only [insert, hcmp, mem_cons] at hentry
      rcases hentry with rfl | hentry
      · have hsame := (Path.compare_eq_iff path key).mp hcmp
        exact .inr ⟨Path.same_comm path key ▸ hsame, rfl⟩
      · exact .inl (mem_cons_of_mem _ hentry)
    | gt =>
      simp only [insert, hcmp, mem_cons] at hentry
      rcases hentry with rfl | hentry
      · exact .inl mem_cons_self
      · exact (ih hentry).imp_left (mem_cons_of_mem _)

end TableMap

namespace Snapshot

/-- The snapshots hold the same tables for all files but one. -/
def AgreesOutside (first second : Snapshot) (path : Path) : Prop :=
  first.tables.erase path = second.tables.erase path

lemma agreesOutside_withTable (path : Path) (table : ModuleTable) :
    (snapshot.withTable path table).AgreesOutside snapshot path :=
  TableMap.erase_insert snapshot.tables path table

lemma exportedMethodsNamed_eq (exclude : Path) : snapshot.exportedMethodsNamed name exclude =
      (snapshot.tables.erase exclude).flatMap fun entry =>
        entry.2.symbols.filter fun symbol =>
          symbol.lowerName = lower name && symbol.kind.isMethod && symbol.exported := by
  rw [exportedMethodsNamed, reverseIndex, ReverseIndex.lookup_ofTables]
  induction snapshot.tables with
  | nil => rfl
  | cons entry rest ih =>
    rw [TableMap.declarations_cons, filter_append, filter_append, map_append, ih]
    by_cases hfile : entry.1.same exclude
    · simp [TableMap.erase, hfile, filter_map, Function.comp_def]
    · simp [TableMap.erase, hfile, filter_map, Function.comp_def, filter_filter,
        Bool.and_comm, Bool.and_left_comm]

lemma moduleNamed?_eq : snapshot.moduleNamed? name =
      (snapshot.tables.find? fun entry => entry.2.isNamed (lower name)).bind fun entry =>
        snapshot.tables.get? entry.1 := by
  rw [moduleNamed?, reverseIndex, ReverseIndex.moduleFiles_ofTables, head?_map, head?_filter]
  cases snapshot.tables.find? fun entry => entry.2.isNamed (lower name) with
  | none | some entry => rfl

namespace AgreesOutside

variable {first second : Snapshot} {path : Path} (hagree : first.AgreesOutside second path)

include hagree

lemma exportedMethodsNamed :
    first.exportedMethodsNamed name path = second.exportedMethodsNamed name path := by
  rw [exportedMethodsNamed_eq, exportedMethodsNamed_eq, hagree]

lemma exportedMethods : first.exportedMethods path = second.exportedMethods path := by
  unfold AgreesOutside TableMap.erase at hagree
  unfold Snapshot.exportedMethods
  rw [hagree]

end AgreesOutside

lemma moduleNamed?_without {snapshot : Snapshot} {name : String} (hoth :
      ∀ entry ∈ snapshot.tables, entry.1.same path → entry.2.isNamed (lower name) = false) :
    (snapshot.without path).moduleNamed? name = snapshot.moduleNamed? name := by
  have hfind : (snapshot.tables.erase path).find? (fun entry => entry.2.isNamed (lower name)) =
      snapshot.tables.find? fun entry => entry.2.isNamed (lower name) := by
    rw [TableMap.erase, find?_filter]
    refine find?_congr fun entry hentry => ?_
    cases hsame : entry.1.same path with
    | false => simp [hsame]
    | true => simp [hoth entry hentry hsame]
  rw [moduleNamed?_eq, moduleNamed?_eq, without, hfind]
  cases hfound : snapshot.tables.find? fun entry => entry.2.isNamed (lower name) with
  | none => rfl
  | some entry =>
    have hnamed := find?_some (p := fun entry : Path × ModuleTable => entry.2.isNamed (lower name))
      hfound
    have hpath : path.same entry.1 = false := by
      rw [Path.same_comm, Bool.eq_false_iff]
      intro hsame
      rw [hoth entry (mem_of_find?_eq_some hfound) hsame] at hnamed
      cases hnamed
    rw [Option.bind_some, Option.bind_some, TableMap.get?_erase, hpath]
    rfl

lemma AgreesOutside.moduleNamed? {first second : Snapshot}
    (hagree : first.AgreesOutside second path) {name : String} (hfirst :
      ∀ entry ∈ first.tables, entry.1.same path → entry.2.isNamed (lower name) = false)
    (hsnd : ∀ entry ∈ second.tables, entry.1.same path → entry.2.isNamed (lower name) = false) :
    first.moduleNamed? name = second.moduleNamed? name := by
  rw [← moduleNamed?_without hfirst, ← moduleNamed?_without hsnd, moduleNamed?_eq,
    moduleNamed?_eq, without, without, hagree]

end Snapshot

end BslInsight
