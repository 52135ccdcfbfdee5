import Mathlib.Data.String.Basic
import Mathlib.Order.Compare
import BslInsight.Proofs.SnapshotHistory
import BslInsight.Search

/-!
# Searching all declarations

A search goes through the groups of the reverse index and sorts what matches.  It answers with the
declarations of all tables whose names hold the query, and groups that come in another order give
the same answer: matches that the sort leaves tied have one name, so they come from one group.
-/

namespace BslInsight

open List

/-! ## Ranks -/

def MatchRank.Fits (wanted name : List Char) : MatchRank → Prop
  | .leading => wanted <+: name
  | .inside => ¬ wanted <+: name ∧ wanted <:+: name
  | .scattered => ¬ wanted <:+: name ∧ wanted.Sublist name

lemma matchRank?_eq_some_iff {name query : String} {rank : MatchRank} :
    matchRank? name query = some rank ↔ rank.Fits query.toList (lower name).toList := by
  have hleading : beginsWith query (lower name) ↔ query.toList <+: (lower name).toList :=
    isPrefixOf_iff_prefix
  have hins : occursIn query (lower name) ↔ query.toList <:+: (lower name).toList := hasInfix_iff
  have hscattered : scatteredIn query (lower name) ↔ query.toList.Sublist (lower name).toList :=
    isSublist_iff_sublist
  simp only [matchRank?, hleading, hins, hscattered]
  cases rank <;> grind [MatchRank.Fits, IsPrefix.isInfix]

lemma isSome_matchRank?_iff {name query : String} :
    (matchRank? name query).isSome ↔ query.toList.Sublist (lower name).toList := by
  rw [Option.isSome_iff_exists]
  simp only [matchRank?_eq_some_iff]
  constructor
  · rintro ⟨rank, hfits⟩
    cases rank with
    | leading => exact hfits.sublist
    | inside => exact hfits.2.sublist
    | scattered => exact hfits.2
  · intro hsublist
    by_cases hins : query.toList <:+: (lower name).toList
    · by_cases hleading : query.toList <+: (lower name).toList
      · exact ⟨.leading, hleading⟩
      · exact ⟨.inside, hleading, hins⟩
    · exact ⟨.scattered, hins, hsublist⟩

/-! ## The order of matches -/

namespace SymbolMatch

/-- By rank, then by name ignoring case, by file and by line. -/
def Precedes (first second : SymbolMatch) : Prop :=
  first.rank.rank < second.rank.rank ∨ first.rank.rank = second.rank.rank ∧
    (first.symbol.lowerName < second.symbol.lowerName ∨
      first.symbol.lowerName = second.symbol.lowerName ∧
        (first.symbol.file.Before second.symbol.file ∨
          first.symbol.file.same second.symbol.file = true ∧
            first.symbol.range.startLine ≤ second.symbol.range.startLine))

lemma isLE_compare_iff {first second : SymbolMatch} :
    (first.compare second).isLE ↔ first.Precedes second := by
  simp only [compare, Ordering.isLE_then_iff_or, compare_lt_iff_lt, compare_eq_iff_eq,
    Path.compare_eq_iff, Precedes, Path.Before, Nat.isLE_compare]

lemma compare_eq_compareLex : SymbolMatch.compare = compareLex (compareOn (·.rank.rank))
      (compareLex (compareOn (·.symbol.lowerName))
        (compareLex (fun first second => first.symbol.file.compare second.symbol.file)
          (compareOn (·.symbol.range.startLine)))) :=
  rfl

instance : Std.TransCmp SymbolMatch.compare := by
  have hfile : Std.TransCmp fun first second : SymbolMatch =>
      first.symbol.file.compare second.symbol.file :=
    { eq_swap := Std.OrientedCmp.eq_swap, isLE_trans := Std.TransCmp.isLE_trans }
  rw [compare_eq_compareLex]
  infer_instance

end SymbolMatch

/-! ## The order of groups -/

namespace Groups

variable {α : Type} {key : α → String} {groups others : Groups α}

structure IsGrouping (key : α → String) (groups : Groups α) : Prop where
  nodup : (groups.map Prod.fst).Nodup
  keyed : ∀ group ∈ groups, ∀ item ∈ group.2, key item = group.1

lemma mem_keys_push {added other : String} {item : α} :
    other ∈ (groups.push added item).map Prod.fst ↔ other = added ∨ other ∈ groups.map Prod.fst := by
  induction groups with
  | nil => simp [push]
  | cons group rest ih =>
    rw [push]
    split
    next heq => simp [← heq]
    next => grind

lemma IsGrouping.push (hgrps : groups.IsGrouping key) (item : α) :
    (groups.push (key item) item).IsGrouping key := by
  induction groups with
  | nil => exact ⟨pairwise_singleton _ _, by simp [Groups.push]⟩
  | cons group rest ih =>
    obtain ⟨hfresh, hnodup⟩ := nodup_cons.mp hgrps.nodup
    obtain ⟨hgroup, hrest⟩ := forall_mem_cons.mp hgrps.keyed
    have hpush := ih ⟨hnodup, hrest⟩
    rw [Groups.push]
    split
    next heq =>
      refine ⟨hgrps.nodup, forall_mem_cons.mpr ⟨fun other hoth => ?_, hrest⟩⟩
      rcases mem_append.mp hoth with hoth | hoth
      · exact hgroup other hoth
      · rw [mem_singleton.mp hoth, heq]
    next hne =>
      refine ⟨nodup_cons.mpr ⟨?_, hpush.nodup⟩, forall_mem_cons.mpr ⟨hgroup, hpush.keyed⟩⟩
      rw [mem_keys_push]
      exact not_or.mpr ⟨hne, hfresh⟩

lemma IsGrouping.foldl_push (hgrps : groups.IsGrouping key) (items : List α) :
    (items.foldl (fun groups item => groups.push (key item) item) groups).IsGrouping key := by
  induction items generalizing groups with
  | nil => exact hgrps
  | cons item rest ih => exact ih (hgrps.push item)

lemma IsGrouping.perm (hgrps : groups.IsGrouping key) (hperm : others.Perm groups) :
    others.IsGrouping key :=
  ⟨(hperm.map Prod.fst).nodup_iff.mpr hgrps.nodup,
    fun group hgroup => hgrps.keyed group (hperm.mem_iff.mp hgroup)⟩

lemma IsGrouping.pairwise_filter (hgrps : groups.IsGrouping key) (wanted : String) :
    (groups.filter fun group => group.1 = wanted).Pairwise fun _ _ => False := by
  have hdist := (pairwise_map.mp hgrps.nodup).filter fun group => group.1 = wanted
  apply hdist.imp_of_mem
  intro first second hfirst hsnd hne
  simp only [mem_filter, decide_eq_true_eq] at hfirst hsnd
  exact hne (hfirst.2.trans hsnd.2.symm)

lemma IsGrouping.filter_flatMap (hgrps : groups.IsGrouping key) (wanted : String) :
    ((groups.flatMap Prod.snd).filter fun item => key item = wanted) =
      (groups.filter fun group => group.1 = wanted).flatMap Prod.snd := by
  have hkeyed := hgrps.keyed
  clear hgrps
  induction groups with
  | nil => rfl
  | cons group rest ih =>
    rw [flatMap_cons, filter_append, filter_cons,
      ih fun other hoth => hkeyed other (mem_cons_of_mem _ hoth)]
    have hgroup : ∀ item ∈ group.2, decide (key item = wanted) = decide (group.1 = wanted) := by
      intro item hitem
      rw [hkeyed group mem_cons_self item hitem]
    rw [filter_congr hgroup]
    split <;> simp [*]

lemma IsGrouping.filter_eq_of_perm (hgrps : groups.IsGrouping key) (hperm : others.Perm groups)
    (wanted : String) :
    ((others.flatMap Prod.snd).filter fun item => key item = wanted) =
      (groups.flatMap Prod.snd).filter fun item => key item = wanted := by
  have hoths := hgrps.perm hperm
  rw [hoths.filter_flatMap, hgrps.filter_flatMap,
    List.Perm.eq_of_pairwise (fun _ _ _ _ => False.elim) (hoths.pairwise_filter wanted)
      (hgrps.pairwise_filter wanted) (hperm.filter _)]

end Groups

lemma ReverseIndex.isGrouping_byName (tables : TableMap) :
    (ofTables tables).byName.IsGrouping (·.symbol.lowerName) := by
  have hnil : Groups.IsGrouping (fun found : IndexedSymbol => found.symbol.lowerName) [] :=
    ⟨.nil, by simp⟩
  rw [ofTables, byName_foldl_addTable]
  exact hnil.foldl_push tables.declarations

/-! ## Searches -/

def IndexedSymbol.match? (query : String) (entry : IndexedSymbol) : Option SymbolMatch :=
  (matchRank? entry.symbol.name query).map fun rank => ⟨entry.symbol, rank⟩

lemma SymbolMatch.lowerName_eq_of_tied {first second : SymbolMatch}
    (htied : first.compare second = .eq) : second.symbol.lowerName = first.symbol.lowerName := by
  simp only [compare, Ordering.then_eq_eq, compare_eq_iff_eq] at htied
  exact htied.2.1.symm

lemma filter_tied_filterMap (query : String) (entries : List IndexedSymbol) (item : SymbolMatch) :
    (entries.filterMap (·.match? query)).filter (item.compare · = .eq) =
      ((entries.filter fun entry => entry.symbol.lowerName = item.symbol.lowerName).filterMap
        (·.match? query)).filter (item.compare · = .eq) := by
  rw [filter_filterMap, filter_filterMap, filterMap_filter]
  apply filterMap_congr
  intro entry hentry
  split
  next => rfl
  next hname =>
    cases hmatch : entry.match? query with
    | none => rfl
    | some found =>
      obtain ⟨rank, -, rfl⟩ := Option.map_eq_some_iff.mp hmatch
      refine Option.filter_some_neg (decide_eq_false fun htied => hname ?_)
      exact decide_eq_true (SymbolMatch.lowerName_eq_of_tied htied)

lemma map_symbol_filterMap (query : String) (entries : List IndexedSymbol) :
    (entries.filterMap (·.match? query)).map (·.symbol) =
      (entries.map (·.symbol)).filter fun symbol =>
        query.toList.Sublist symbol.lowerName.toList := by
  induction entries with
  | nil => rfl
  | cons entry rest ih =>
    have hsome : (matchRank? entry.symbol.name query).isSome ↔
        query.toList.Sublist entry.symbol.lowerName.toList := isSome_matchRank?_iff
    rw [filterMap_cons, IndexedSymbol.match?]
    simp only [map_cons, filter_cons, ← ih, ← hsome]
    cases matchRank? entry.symbol.name query with
    | none | some rank => rfl

lemma perm_searchEntries (entries : List IndexedSymbol) (query : String) :
    (searchEntries entries query).Perm
      (entries.filterMap (·.match? (lower (String.ofList (trim query.toList))))) :=
  mergeSort_perm _ _

lemma searchEntries_eq_of_perm {groups others : Groups IndexedSymbol}
    (hgrps : groups.IsGrouping (·.symbol.lowerName)) (hperm : others.Perm groups) (query : String) :
    searchEntries (others.flatMap Prod.snd) query = searchEntries (groups.flatMap Prod.snd) query := by
  apply mergeSort_eq_of_filter_tied
  intro item
  have hfilt := hgrps.filter_eq_of_perm hperm item.symbol.lowerName
  exact (filter_tied_filterMap _ _ item).trans (hfilt ▸ (filter_tied_filterMap _ _ item).symm)

/-- A search finds each declaration that holds the query once, under its best rank and in order, and
the order of the groups of the index does not matter. -/
theorem searchSymbols_ranked (snapshot : Snapshot) (query : String) :
    let wanted := (lower (String.ofList (trim query.toList))).toList
    let found := searchSymbols snapshot query
    (found.map (·.symbol)).Perm ((snapshot.tables.flatMap (·.2.symbols)).filter fun symbol =>
      wanted.Sublist symbol.lowerName.toList) ∧
    (∀ item ∈ found, item.rank.Fits wanted item.symbol.lowerName.toList) ∧
    found.Pairwise SymbolMatch.Precedes ∧
    ∀ groups : Groups IndexedSymbol, groups.Perm snapshot.reverseIndex.byName →
      searchEntries (groups.flatMap Prod.snd) query = found := by
  intro wanted found
  refine ⟨?_, ?_, ?_, ?_⟩
  · have hentries := (ReverseIndex.perm_entries snapshot.tables).map IndexedSymbol.symbol
    have hsymbols : snapshot.tables.declarations.map IndexedSymbol.symbol =
        snapshot.tables.flatMap (·.2.symbols) := by
      simp [TableMap.declarations, map_flatMap, Function.comp_def]
    rw [hsymbols] at hentries
    refine ((perm_searchEntries _ query).map _).trans ?_
    rw [map_symbol_filterMap]
    exact hentries.filter _
  · intro item hitem
    obtain ⟨entry, -, hmatch⟩ := mem_filterMap.mp ((perm_searchEntries _ query).mem_iff.mp hitem)
    obtain ⟨rank, hrank, rfl⟩ := Option.map_eq_some_iff.mp hmatch
    exact matchRank?_eq_some_iff.mp hrank
  · exact (pairwise_mergeSort_isLE SymbolMatch.compare _).imp SymbolMatch.isLE_compare_iff.mp
  · intro groups hperm
    exact searchEntries_eq_of_perm (ReverseIndex.isGrouping_byName snapshot.tables) hperm query

end BslInsight
